import CommandBinding.Files.Sources
import CommandBinding.Proofs.Steps
import Mathlib.Data.List.Sort
import Mathlib.Data.String.Basic

/-!
The order of paths. It is strict, and `Path.insert` keeps a list in it, so the source files of a command line ascend.
Of two paths with different parts one comes before the other, so an ascending list is known, up to equality of paths,
by what is in it.
-/
namespace CommandBinding

namespace Path

variable {p q r : Part} {ps qs rs : List Part} {first second third path : String} {paths more : List String}

theorem before_iff : p.before q = true ↔ p.rank < q.rank ∨ p.rank = q.rank ∧ p.text < q.text := by
  simp [Part.before]

theorem before_trans (hpq : p.before q = true) (hqr : q.before r = true) : p.before r = true := by
  rw [before_iff] at hpq hqr ⊢
  rcases hpq with hpq | ⟨hpq, htext⟩
  · left
    omega
  · rcases hqr with hqr | ⟨hqr, hmore⟩
    · left
      omega
    · exact Or.inr ⟨hpq.trans hqr, lt_trans htext hmore⟩

theorem partsBefore_trans (hpq : partsBefore ps qs = true) (hqr : partsBefore qs rs = true) :
    partsBefore ps rs = true := by
  induction ps generalizing qs rs with
  | nil =>
    cases rs with
    | nil => cases qs <;> exact hqr
    | cons r rs => rfl
  | cons p ps ih =>
    cases qs with
    | nil => exact absurd hpq Bool.false_ne_true
    | cons q qs =>
      cases rs with
      | nil => exact absurd hqr Bool.false_ne_true
      | cons r rs =>
        simp only [partsBefore, Bool.or_eq_true, Bool.and_eq_true, beq_iff_eq] at hpq hqr ⊢
        rcases hpq with hpq | ⟨rfl, hps⟩
        · rcases hqr with hqr | ⟨rfl, -⟩
          · exact Or.inl (before_trans hpq hqr)
          · exact Or.inl hpq
        · exact hqr.imp_right fun hqs => ⟨hqs.1, ih hps hqs.2⟩

theorem before_irrefl (p : Part) : p.before p = false := by
  simp [Part.before]

theorem before_or_eq (p q : Part) : p.before q = true ∨ p = q ∨ q.before p = true := by
  simp only [before_iff]
  rcases lt_trichotomy p.rank q.rank with h | h | h
  · exact Or.inl (Or.inl h)
  · rcases lt_trichotomy p.text q.text with htext | htext | htext
    · exact Or.inl (Or.inr ⟨h, htext⟩)
    · refine Or.inr (Or.inl ?_)
      -- Parts of one rank are of one kind, and only names have a text.
      cases p <;> cases q <;> simp_all [Part.rank, Part.text]
    · exact Or.inr (Or.inr (Or.inr ⟨h.symm, htext⟩))
  · exact Or.inr (Or.inr (Or.inl h))

theorem partsBefore_irrefl (ps : List Part) : partsBefore ps ps = false := by
  induction ps with
  | nil => rfl
  | cons p ps ih => simp [partsBefore, before_irrefl, ih]

theorem partsBefore_or_eq (ps qs : List Part) : partsBefore ps qs = true ∨ ps = qs ∨ partsBefore qs ps = true := by
  induction ps generalizing qs with
  | nil => cases qs <;> simp [partsBefore]
  | cons p ps ih =>
    cases qs with
    | nil => simp [partsBefore]
    | cons q qs =>
      simp only [partsBefore, Bool.or_eq_true, Bool.and_eq_true, beq_iff_eq]
      rcases before_or_eq p q with h | rfl | h
      · exact Or.inl (Or.inl h)
      · rcases ih qs with h | rfl | h
        · exact Or.inl (Or.inr ⟨rfl, h⟩)
        · exact Or.inr (Or.inl rfl)
        · exact Or.inr (Or.inr (Or.inr ⟨rfl, h⟩))
      · exact Or.inr (Or.inr (Or.inl h))

theorem path_before_trans (h : before first second = true) (hmore : before second third = true) :
    before first third = true :=
  partsBefore_trans h hmore

theorem mem_of_mem_insert (h : second ∈ insert path paths) : second = path ∨ second ∈ paths := by
  induction paths with
  | nil => exact Or.inl (List.mem_singleton.mp h)
  | cons first rest ih =>
    unfold insert at h
    split at h
    · exact List.mem_cons.mp h
    · split at h
      · rcases List.mem_cons.mp h with rfl | h
        · exact Or.inr (List.mem_cons_self ..)
        · exact (ih h).imp_right (List.mem_cons_of_mem first)
      · exact Or.inr h

theorem pairwise_insert (h : paths.Pairwise fun p q => before p q = true) :
    (insert path paths).Pairwise fun p q => before p q = true := by
  induction paths with
  | nil => exact List.pairwise_singleton _ path
  | cons first rest ih =>
    obtain ⟨hfirst, hrest⟩ := List.pairwise_cons.mp h
    unfold insert
    split
    · next hbefore =>
      refine List.pairwise_cons.mpr ⟨fun other hother => ?_, h⟩
      rcases List.mem_cons.mp hother with rfl | hother
      · exact hbefore
      · exact path_before_trans hbefore (hfirst other hother)
    · split
      · next hbehind =>
        refine List.pairwise_cons.mpr ⟨fun other hother => ?_, ih hrest⟩
        rcases mem_of_mem_insert hother with rfl | hother
        · exact hbehind
        · exact hfirst other hother
      · exact h

theorem pairwise_foldl_insert (h : paths.Pairwise fun p q => before p q = true) :
    (more.foldl (fun paths path => insert path paths) paths).Pairwise fun p q => before p q = true := by
  induction more generalizing paths with
  | nil => exact h
  | cons path more ih => exact ih (pairwise_insert h)

theorem mem_insert_of_mem (h : second ∈ paths) : second ∈ insert path paths := by
  induction paths with
  | nil => cases h
  | cons first rest ih =>
    unfold insert
    split
    · exact List.mem_cons_of_mem path h
    · split
      · rcases List.mem_cons.mp h with rfl | h
        · exact List.mem_cons_self ..
        · exact List.mem_cons_of_mem first (ih h)
      · exact h

/-- A path that is put into a list is equal to one in the list. -/
theorem exists_mem_insert (path : String) (paths : List String) :
    ∃ same ∈ insert path paths, parts same = parts path := by
  induction paths with
  | nil => exact ⟨path, List.mem_singleton.mpr rfl, rfl⟩
  | cons first rest ih =>
    unfold insert
    split
    · exact ⟨path, List.mem_cons_self .., rfl⟩
    · next hbefore =>
      split
      · obtain ⟨same, hsame, hparts⟩ := ih
        exact ⟨same, List.mem_cons_of_mem first hsame, hparts⟩
      · next hbehind =>
        refine ⟨first, List.mem_cons_self .., ?_⟩
        rcases partsBefore_or_eq (parts first) (parts path) with h | h | h
        · exact absurd h hbehind
        · exact h
        · exact absurd h hbefore

theorem mem_of_mem_foldl_insert (h : second ∈ more.foldl (fun paths path => insert path paths) paths) :
    second ∈ paths ∨ second ∈ more := by
  induction more generalizing paths with
  | nil => exact Or.inl h
  | cons path more ih =>
    rcases ih h with h | h
    · rcases mem_of_mem_insert h with rfl | h
      · exact Or.inr (List.mem_cons_self ..)
      · exact Or.inl h
    · exact Or.inr (List.mem_cons_of_mem path h)

theorem mem_foldl_insert_of_mem (h : second ∈ paths) :
    second ∈ more.foldl (fun paths path => insert path paths) paths := by
  induction more generalizing paths with
  | nil => exact h
  | cons path more ih => exact ih (mem_insert_of_mem h)

theorem exists_mem_foldl_insert (h : path ∈ more) :
    ∃ same ∈ more.foldl (fun paths path => insert path paths) paths, parts same = parts path := by
  induction more generalizing paths with
  | nil => cases h
  | cons first more ih =>
    rcases List.mem_cons.mp h with rfl | h
    · obtain ⟨same, hsame, hparts⟩ := exists_mem_insert path paths
      rw [List.foldl_cons]
      exact ⟨same, mem_foldl_insert_of_mem hsame, hparts⟩
    · exact ih h

/-- Two ascending lists that hold the same paths, up to equality, are equal path by path. -/
theorem map_parts_eq_of_mem_iff {others : List String} (h : paths.Pairwise fun p q => before p q = true)
    (hothers : others.Pairwise fun p q => before p q = true)
    (hmem : ∀ ps, ps ∈ paths.map parts ↔ ps ∈ others.map parts) : paths.map parts = others.map parts := by
  have : Std.Irrefl fun ps qs => partsBefore ps qs = true := ⟨fun ps => by simp [partsBefore_irrefl ps]⟩
  have : Std.Antisymm fun ps qs => partsBefore ps qs = true :=
    ⟨fun ps qs hps hqs => absurd (partsBefore_trans hps hqs) (by simp [partsBefore_irrefl ps])⟩
  have hparts : (paths.map parts).Pairwise fun ps qs => partsBefore ps qs = true := List.pairwise_map.mpr h
  have hother : (others.map parts).Pairwise fun ps qs => partsBefore ps qs = true := List.pairwise_map.mpr hothers
  exact hparts.eq_of_mem_iff hother hmem

end Path

/-- The source files of a command line come in the order of their paths. -/
theorem FileSystem.pairwise_sources {files : FileSystem} {inputs paths : List String}
    (h : files.sources inputs = .ok paths) : paths.Pairwise fun p q => Path.before p q = true := by
  unfold FileSystem.sources at h
  split at h
  · exact absurd h (by simp [bind, Except.bind, throw, throwThe, MonadExceptOf.throw])
  · obtain ⟨found, -, h⟩ := bind_eq_ok_iff.mp h
    obtain ⟨-, rfl⟩ := h
    exact Path.pairwise_foldl_insert List.Pairwise.nil

end CommandBinding

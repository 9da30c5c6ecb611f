import Mathlib.Data.List.Forall2

/-!
Computations that may fail. What a sequence of steps gives is said by what each step gives.
-/
namespace CommandBinding

variable {ε α β : Type} {x : Except ε α} {step : α → Except ε β}

theorem bind_eq_ok_iff {b : β} : x >>= step = .ok b ↔ ∃ a, x = .ok a ∧ step a = .ok b := by
  cases x <;> simp [bind, Except.bind]

theorem bind_eq_error_iff {e : ε} : x >>= step = .error e ↔ x = .error e ∨ ∃ a, x = .ok a ∧ step a = .error e := by
  cases x <;> simp [bind, Except.bind]

theorem exists_bind_eq_ok_iff : (∃ b, x >>= step = .ok b) ↔ ∃ a, x = .ok a ∧ ∃ b, step a = .ok b := by
  cases x <;> simp [bind, Except.bind]

theorem eq_ok_of_toOption {a : α} (h : x.toOption = some a) : x = .ok a := by
  cases x with
  | ok a' => exact congrArg _ (Option.some.inj h)
  | error e => cases h

theorem exists_eq_ok_of_isSome {x : Except ε α} (h : x.toOption.isSome = true) : ∃ a, x = .ok a := by
  obtain ⟨a, ha⟩ := Option.isSome_iff_exists.mp h
  exact ⟨a, eq_ok_of_toOption ha⟩

theorem forall₂_eq_ok_iff {xs : List α} {ys : List β} :
    List.Forall₂ (fun x y => step x = .ok y) xs ys ↔ xs.map step = ys.map .ok := by
  rw [← List.forall₂_eq_eq_eq, List.forall₂_map_left_iff, List.forall₂_map_right_iff]

theorem mapM_eq_ok_iff {xs : List α} {ys : List β} :
    xs.mapM step = .ok ys ↔ List.Forall₂ (fun x y => step x = .ok y) xs ys := by
  induction xs generalizing ys with
  | nil => cases ys <;> simp [pure, Except.pure]
  | cons x xs ih =>
    simp only [List.mapM_cons, bind_eq_ok_iff, ih, pure, Except.pure, Except.ok.injEq, List.forall₂_cons_left_iff]
    constructor
    · rintro ⟨y, hy, rest, hrest, rfl⟩
      exact ⟨y, rest, hy, hrest, rfl⟩
    · rintro ⟨y, rest, hy, hrest, rfl⟩
      exact ⟨y, hy, rest, hrest, rfl⟩

/-- A list of steps succeeds exactly if each of them does. -/
theorem exists_mapM_eq_ok_iff {xs : List α} : (∃ ys, xs.mapM step = .ok ys) ↔ ∀ x ∈ xs, ∃ y, step x = .ok y := by
  simp only [mapM_eq_ok_iff]
  induction xs with
  | nil => simp
  | cons x xs ih =>
    rw [List.forall_mem_cons, ← ih]
    constructor
    · rintro ⟨ys, hall⟩
      cases hall with
      | cons hy hrest => exact ⟨⟨_, hy⟩, _, hrest⟩
    · rintro ⟨⟨y, hy⟩, ys, hrest⟩
      exact ⟨y :: ys, .cons hy hrest⟩

theorem exists_eq_error_of_mapM {xs : List α} {e : ε} (h : xs.mapM step = .error e) : ∃ x ∈ xs, step x = .error e := by
  induction xs with
  | nil => cases h
  | cons x xs ih =>
    rw [List.mapM_cons, bind_eq_error_iff] at h
    rcases h with h | ⟨y, -, h⟩
    · exact ⟨x, List.mem_cons_self .., h⟩
    · rcases bind_eq_error_iff.mp h with h | ⟨ys, -, h⟩
      · obtain ⟨x', hx', hstep⟩ := ih h
        exact ⟨x', List.mem_cons_of_mem x hx', hstep⟩
      · cases h

theorem mem_iff_of_mapM {xs : List α} {ys : List β} {y : β} (h : xs.mapM step = .ok ys) :
    y ∈ ys ↔ ∃ x ∈ xs, step x = .ok y := by
  have hmap : xs.map step = ys.map .ok := forall₂_eq_ok_iff.mp (mapM_eq_ok_iff.mp h)
  have hmem : .ok y ∈ ys.map (Except.ok (ε := ε)) ↔ y ∈ ys := List.mem_map_of_injective fun _ _ => Except.ok.inj
  rw [← hmem, ← hmap, List.mem_map]

/-- A list of steps fails with the first that fails. -/
theorem mapM_eq_error_of_first {front behind : List α} {a : α} {e : ε} (hfront : ∀ x ∈ front, ∃ y, step x = .ok y)
    (h : step a = .error e) : (front ++ a :: behind).mapM step = .error e := by
  induction front with
  | nil =>
    rw [List.nil_append, List.mapM_cons, h]
    rfl
  | cons x front ih =>
    obtain ⟨⟨y, hy⟩, hrest⟩ := List.forall_mem_cons.mp hfront
    rw [List.cons_append, List.mapM_cons, hy, bind_eq_error_iff]
    exact Or.inr ⟨y, rfl, bind_eq_error_iff.mpr (Or.inl (ih hrest))⟩

end CommandBinding

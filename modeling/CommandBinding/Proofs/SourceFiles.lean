import CommandBinding.Proofs.PathOrder
import CommandBinding.Proofs.RelistedTrees

/-!
The source files of a command line. An input that is a directory stands for the source files to which a route of names
leads from it, through no directory that is skipped; the directory itself is entered whatever its name is. All files are
given once and in the order of their paths, so it makes no difference in which order they were found.
-/
namespace CommandBinding

open CommandBinding.Path (parts)

namespace Entry

variable {entry entry' : Entry} {entries : List (String × Entry)} {here path name : String} {route : List String}

/-- Whether a route of names leads from a directory to a source file. No directory on the way is skipped. -/
inductive Holds : Entry → List String → Prop
  | file {entries : List (String × Entry)} {name : String} {content : Except FileError String} :
      (name, Entry.file content) ∈ entries → isSourceName name = true → Holds (directory entries) [name]
  | inside {entries : List (String × Entry)} {name : String} {inner : Entry} {route : List String} :
      (name, inner) ∈ entries → isSkippedName name = false → Holds inner route →
      Holds (directory entries) (name :: route)

theorem Holds.exists_directory (h : entry.Holds route) : ∃ entries, entry = directory entries := by
  cases h <;> exact ⟨_, rfl⟩

theorem mem_sourcesAmong_iff_exists : path ∈ sourcesAmong here entries ↔
    ∃ member ∈ entries, path ∈ sourcesAt (Path.join here member.1) member.1 member.2 := by
  induction entries with
  | nil => simp [sourcesAmong]
  | cons member rest ih =>
    obtain ⟨name, entry⟩ := member
    simp only [sourcesAmong, List.mem_append, ih, List.exists_mem_cons_iff]

theorem mem_sourcesAt_file_iff {content : Except FileError String} :
    path ∈ sourcesAt here name (file content) ↔ isSourceName name = true ∧ path = here := by
  unfold sourcesAt
  split <;> simp [*]

theorem mem_sourcesAt_directory_iff :
    path ∈ sourcesAt here name (directory entries) ↔ isSkippedName name = false ∧ path ∈ sourcesAmong here entries := by
  unfold sourcesAt
  split <;> simp [*]

/-- The walk through a directory finds the files to which a route leads. -/
theorem mem_sourcesAmong_iff : path ∈ sourcesAmong here entries ↔
    ∃ route, (directory entries).Holds route ∧ path = route.foldl Path.join here := by
  constructor
  · intro h
    induction hentry : directory entries using induct generalizing here entries with
    | hfile content => cases hentry
    | hdirectory entries ih =>
      obtain rfl := directory.inj hentry
      obtain ⟨⟨name, entry⟩, hmem, hpath⟩ := mem_sourcesAmong_iff_exists.mp h
      cases entry with
      | file content =>
        obtain ⟨hname, rfl⟩ := mem_sourcesAt_file_iff.mp hpath
        exact ⟨[name], .file hmem hname, rfl⟩
      | directory inner =>
        obtain ⟨hname, hpath⟩ := mem_sourcesAt_directory_iff.mp hpath
        obtain ⟨route, hroute, rfl⟩ := ih (name, directory inner) hmem hpath rfl
        exact ⟨name :: route, .inside hmem hname hroute, rfl⟩
  · rintro ⟨route, hroute, rfl⟩
    generalize hentry : directory entries = entry at hroute
    induction hroute generalizing here entries with
    | file hmem hname =>
      obtain rfl := directory.inj hentry
      exact mem_sourcesAmong_iff_exists.mpr ⟨_, hmem, mem_sourcesAt_file_iff.mpr ⟨hname, rfl⟩⟩
    | inside hmem hname hroute ih =>
      obtain rfl := directory.inj hentry
      obtain ⟨inner, rfl⟩ := hroute.exists_directory
      exact mem_sourcesAmong_iff_exists.mpr ⟨_, hmem, mem_sourcesAt_directory_iff.mpr ⟨hname, ih rfl⟩⟩

/-- A route leads to a source file whatever the order of the directories is. -/
theorem Relisted.holds (h : entry.Relisted entry') (hroute : entry.Holds route) : entry'.Holds route := by
  induction hroute generalizing entry' with
  | file hmem hname =>
    obtain ⟨entries', other, rfl, hother, hrelisted⟩ := h.exists_mem hmem
    cases hrelisted
    exact .file hother hname
  | inside hmem hname _ ih =>
    obtain ⟨entries', other, rfl, hother, hrelisted⟩ := h.exists_mem hmem
    exact .inside hother hname (ih hrelisted)

end Entry

namespace FileSystem

variable {files files' : FileSystem} {input path : String} {inputs inputs' paths : List String}

def HasSource (files : FileSystem) (path : String) : Prop :=
  (∃ content, files.lookUp path = .ok (.file content)) ∧ Entry.isSourceName (Path.lastName path) = true

def Accepts (files : FileSystem) (input : String) : Prop :=
  (∃ entries, files.lookUp input = .ok (.directory entries)) ∨ files.HasSource input

/-- Whether an input stands for the source file at a path: it is the file, or a directory from which a route leads
there. -/
def Yields (files : FileSystem) (input path : String) : Prop :=
  (files.HasSource input ∧ path = input) ∨
    ∃ entry route, files.lookUp input = .ok entry ∧ entry.Holds route ∧ path = route.foldl Path.join input

def refusal (files : FileSystem) (input : String) : InputError :=
  match files.lookUp input with
  | .ok _ => .notASource input
  | .error _ => .missing input

theorem exists_sourcesOf (h : files.Accepts input) :
    ∃ found, files.sourcesOf input = .ok found ∧ ∀ path, path ∈ found ↔ files.Yields input path := by
  rcases h with ⟨entries, hentries⟩ | ⟨⟨content, hcontent⟩, hname⟩
  · refine ⟨Entry.sourcesAmong input entries, by simp only [sourcesOf, hentries], fun path => ?_⟩
    simp [Yields, HasSource, hentries, Entry.mem_sourcesAmong_iff]
  · refine ⟨[input], by simp only [sourcesOf, hcontent, hname, if_true], fun path => ?_⟩
    have hnone : ∀ route, ¬(Entry.file content).Holds route := fun route hroute => by
      obtain ⟨entries, heq⟩ := hroute.exists_directory
      cases heq
    simp [Yields, HasSource, hcontent, hname, hnone]

theorem sourcesOf_of_not_accepts (h : ¬files.Accepts input) : files.sourcesOf input = .error (files.refusal input) := by
  unfold sourcesOf refusal
  split
  · next entries hentries => exact absurd (Or.inl ⟨entries, hentries⟩) h
  · next content hcontent =>
    split
    · next hname => exact absurd (Or.inr ⟨⟨content, hcontent⟩, hname⟩) h
    · rw [hcontent]
  · next e he => rw [he]

theorem accepts_iff : files.Accepts input ↔ (files.sourcesOf input).toOption.isSome = true := by
  constructor
  · intro h
    obtain ⟨found, hfound, -⟩ := exists_sourcesOf h
    rw [hfound]
    rfl
  · intro h
    by_contra hnot
    rw [sourcesOf_of_not_accepts hnot] at h
    cases h

instance : Decidable (files.Accepts input) :=
  decidable_of_iff _ accepts_iff.symm

/-- Relisted file systems accept the same inputs, and these yield the same source files. -/
theorem HasSource.of_relisted (hfiles : files.Relisted files') (h : files.HasSource path) : files'.HasSource path := by
  obtain ⟨⟨content, hcontent⟩, hname⟩ := h
  obtain ⟨entry, hentry, hrelisted⟩ := hfiles.exists_lookUp hcontent
  cases hrelisted
  exact ⟨⟨content, hentry⟩, hname⟩

theorem Accepts.of_relisted (hfiles : files.Relisted files') (h : files.Accepts input) : files'.Accepts input := by
  rcases h with ⟨entries, hentries⟩ | h
  · obtain ⟨entry, hentry, hrelisted⟩ := hfiles.exists_lookUp hentries
    cases hrelisted
    exact Or.inl ⟨_, hentry⟩
  · exact Or.inr (h.of_relisted hfiles)

theorem Yields.of_relisted (hfiles : files.Relisted files') (h : files.Yields input path) : files'.Yields input path := by
  rcases h with ⟨h, rfl⟩ | ⟨entry, route, hentry, hroute, rfl⟩
  · exact Or.inl ⟨h.of_relisted hfiles, rfl⟩
  · obtain ⟨entry', hentry', hrelisted⟩ := hfiles.exists_lookUp hentry
    exact Or.inr ⟨entry', route, hentry', hrelisted.holds hroute, rfl⟩

/-- Whether paths are, in their order and each of them once, those of the source files that inputs stand for. -/
structure Lists (files : FileSystem) (inputs paths : List String) : Prop where
  ascending : paths.Pairwise fun p q => Path.before p q = true
  sound : ∀ path ∈ paths, ∃ input ∈ inputs, files.Yields input path
  complete : ∀ input ∈ inputs, ∀ path, files.Yields input path → ∃ same ∈ paths, parts same = parts path

theorem exists_lists (hne : inputs ≠ []) (h : ∀ input ∈ inputs, files.Accepts input) :
    ∃ paths, files.sources inputs = .ok paths ∧ files.Lists inputs paths := by
  have hempty : inputs.isEmpty = false := by simpa using hne
  obtain ⟨found, hfound⟩ : ∃ found, inputs.mapM files.sourcesOf = .ok found := by
    rw [exists_mapM_eq_ok_iff]
    intro input hinput
    obtain ⟨paths, hpaths, -⟩ := exists_sourcesOf (h input hinput)
    exact ⟨paths, hpaths⟩
  have hsources : files.sources inputs = .ok (found.flatten.foldl (fun paths path => Path.insert path paths) []) := by
    simp only [sources, hempty, hfound]
    rfl
  have hmem : ∀ path, path ∈ found.flatten ↔ ∃ input ∈ inputs, files.Yields input path := by
    intro path
    simp only [List.mem_flatten, mem_iff_of_mapM hfound]
    constructor
    · rintro ⟨list, ⟨input, hinput, hlist⟩, hpath⟩
      obtain ⟨list', hlist', hyields⟩ := exists_sourcesOf (h input hinput)
      obtain rfl := Except.ok.inj (hlist.symm.trans hlist')
      exact ⟨input, hinput, (hyields path).mp hpath⟩
    · rintro ⟨input, hinput, hpath⟩
      obtain ⟨list, hlist, hyields⟩ := exists_sourcesOf (h input hinput)
      exact ⟨list, ⟨input, hinput, hlist⟩, (hyields path).mpr hpath⟩
  refine ⟨_, hsources, pairwise_sources hsources, fun path hpath => ?_, fun input hinput path hpath => ?_⟩
  · exact (hmem path).mp ((Path.mem_of_mem_foldl_insert hpath).resolve_left List.not_mem_nil)
  · exact Path.exists_mem_foldl_insert ((hmem path).mpr ⟨input, hinput, hpath⟩)

/-- The paths of the same source files are equal one by one. -/
theorem Lists.map_parts_eq {paths' : List String} (h : files.Lists inputs paths) (h' : files'.Lists inputs' paths')
    (hyields : ∀ path, (∃ input ∈ inputs, files.Yields input path) ↔ ∃ input ∈ inputs', files'.Yields input path) :
    paths.map parts = paths'.map parts := by
  refine Path.map_parts_eq_of_mem_iff h.ascending h'.ascending fun ps => ?_
  simp only [List.mem_map]
  constructor
  · rintro ⟨path, hpath, rfl⟩
    obtain ⟨input, hinput, hyield⟩ := (hyields path).mp (h.sound path hpath)
    exact h'.complete input hinput path hyield
  · rintro ⟨path, hpath, rfl⟩
    obtain ⟨input, hinput, hyield⟩ := (hyields path).mpr (h'.sound path hpath)
    exact h.complete input hinput path hyield

/-- Of inputs that are not all accepted the first such is refused. -/
theorem exists_refused (h : ¬∀ input ∈ inputs, files.Accepts input) : ∃ front input behind,
    inputs = front ++ input :: behind ∧ (∀ other ∈ front, files.Accepts other) ∧ ¬files.Accepts input ∧
      files.sources inputs = .error (files.refusal input) := by
  have hsome : (inputs.find? fun input => !decide (files.Accepts input)).isSome = true := by simpa using h
  obtain ⟨input, hfind⟩ := Option.isSome_iff_exists.mp hsome
  obtain ⟨hinput, front, behind, rfl, hfront⟩ := List.find?_eq_some_iff_append.mp hfind
  simp only [Bool.not_eq_true', decide_eq_false_iff_not, Bool.not_not, decide_eq_true_iff] at hinput hfront
  refine ⟨front, input, behind, rfl, hfront, hinput, ?_⟩
  have hmapM : (front ++ input :: behind).mapM files.sourcesOf = .error (files.refusal input) := by
    refine mapM_eq_error_of_first (fun other hother => ?_) (sourcesOf_of_not_accepts hinput)
    obtain ⟨paths, hpaths, -⟩ := exists_sourcesOf (hfront other hother)
    exact ⟨paths, hpaths⟩
  have hempty : (front ++ input :: behind).isEmpty = false := by simp
  simp only [sources, hempty, hmapM]
  rfl

/-- Inputs that are all accepted are listed, and the list depends neither on the order or the repetition of the inputs
nor on the order in which directories list what is in them. Otherwise the error is about the first input that is not
accepted. -/
theorem sources_eq_list_or_refusal (hne : inputs ≠ []) :
    ((∀ input ∈ inputs, files.Accepts input) → ∃ paths, files.sources inputs = .ok paths ∧ files.Lists inputs paths ∧
      ∀ files' inputs', files.Relisted files' → (∀ input, input ∈ inputs' ↔ input ∈ inputs) →
        ∃ paths', files'.sources inputs' = .ok paths' ∧ paths'.map parts = paths.map parts) ∧
    ((¬∀ input ∈ inputs, files.Accepts input) → ∃ front input behind, inputs = front ++ input :: behind ∧
      (∀ other ∈ front, files.Accepts other) ∧ ¬files.Accepts input ∧
        files.sources inputs = .error (files.refusal input)) := by
  refine ⟨fun haccepts => ?_, exists_refused⟩
  obtain ⟨paths, hpaths, hlists⟩ := exists_lists hne haccepts
  refine ⟨paths, hpaths, hlists, fun files' inputs' hfiles hinputs => ?_⟩
  have hne' : inputs' ≠ [] := by
    obtain ⟨input, hinput⟩ := List.exists_mem_of_ne_nil inputs hne
    exact List.ne_nil_of_mem ((hinputs input).mpr hinput)
  obtain ⟨paths', hpaths', hlists'⟩ :=
    exists_lists hne' fun input hinput => (haccepts input ((hinputs input).mp hinput)).of_relisted hfiles
  refine ⟨paths', hpaths', hlists'.map_parts_eq hlists fun path => ?_⟩
  constructor
  · rintro ⟨input, hinput, hyield⟩
    exact ⟨input, (hinputs input).mp hinput, hyield.of_relisted hfiles.symm⟩
  · rintro ⟨input, hinput, hyield⟩
    exact ⟨input, (hinputs input).mpr hinput, hyield.of_relisted hfiles⟩

/-- A tree with a directory `lib`, which holds source files itself, below a directory, and where none are looked for;
`listed` is the order in which it lists them. -/
def libraryTree (listed : List (String × Entry) → List (String × Entry)) : Entry :=
  .directory [("notes.txt", .file (.ok "")), ("lib", .directory (listed [("b.rs", .file (.ok "")),
    (".git", .directory [("c.rs", .file (.ok ""))]), ("target", .directory [("d.rs", .file (.ok ""))]),
    ("a", .directory [("e.rs", .file (.ok ""))])]))]

/-- The directory `lib` gives two files, in whatever order and however often it is given; `notes.txt` is refused. -/
theorem sources_of_libraryTree :
    (ofTree (libraryTree id)).sources ["lib", "lib/target/d.rs"] = .ok ["lib/a/e.rs", "lib/b.rs", "lib/target/d.rs"] ∧
    (∃ paths, (ofTree (libraryTree List.reverse)).sources ["lib/target/d.rs", "lib", "lib"] = .ok paths ∧
      paths.map parts = ["lib/a/e.rs", "lib/b.rs", "lib/target/d.rs"].map parts) ∧
    (ofTree (libraryTree id)).sources ["lib", "notes.txt", "none.rs"] = .error (.notASource "notes.txt") := by
  have hrelisted : (libraryTree id).Relisted (libraryTree List.reverse) := by
    refine .ofDirectory [("notes.txt", _, _), ("lib", _, _)] ?_ (.refl _) (.refl _)
    rintro pair (_ | ⟨_, _ | ⟨_, ⟨⟩⟩⟩)
    · exact .refl _
    · exact .of_perm (List.reverse_perm _).symm
  have hnames : (libraryTree id).HasDistinctNames := by simp [libraryTree]
  have haccepts : ∀ input ∈ ["lib", "lib/target/d.rs"], (ofTree (libraryTree id)).Accepts input := by decide +kernel
  obtain ⟨paths, hpaths, -, hagain⟩ := (sources_eq_list_or_refusal (by simp)).1 haccepts
  have hexpected : (ofTree (libraryTree id)).sources ["lib", "lib/target/d.rs"] =
      .ok ["lib/a/e.rs", "lib/b.rs", "lib/target/d.rs"] := eq_ok_of_toOption (by decide +kernel)
  obtain rfl := Except.ok.inj (hpaths.symm.trans hexpected)
  refine ⟨hexpected, ?_, by decide +kernel⟩
  exact hagain _ _ (relisted_ofTree hrelisted hnames) fun input => by simp [or_comm]

end FileSystem

end CommandBinding

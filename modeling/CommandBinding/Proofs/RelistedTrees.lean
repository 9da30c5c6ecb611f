import CommandBinding.Files
import Mathlib.Data.List.Forall2
import Mathlib.Data.List.Nodup
import Mathlib.Data.List.Perm.Basic
import Mathlib.Data.Option.Defs

/-!
Trees whose directories list what is in them in another order. A path leads to the same file in both, or to
directories that again differ in their order only, if no directory lists a name twice.
-/
namespace CommandBinding

namespace Entry

variable {entry entry' : Entry} {entries entries' : List (String × Entry)} {name : String} {pieces : List String}
  {above above' : List Entry}

/-- A property of trees that each directory has if all that is in it have it. -/
theorem induct {motive : Entry → Prop} (hfile : ∀ content, motive (file content))
    (hdirectory : ∀ entries, (∀ member ∈ entries, motive member.2) → motive (directory entries)) (entry : Entry) :
    motive entry := by
  refine @Entry.rec motive (fun entries => ∀ member ∈ entries, motive member.2) (fun member => motive member.2) hfile
    hdirectory ?_ ?_ (fun name entry h => h) entry
  · intro member hmember
    cases hmember
  · intro first rest hfirst hrest member hmember
    rcases List.mem_cons.mp hmember with rfl | hmember
    · exact hfirst
    · exact hrest member hmember

/-- Whether two trees differ only in the order in which directories list what is in them. The members of two
directories are paired by name. -/
inductive Relisted : Entry → Entry → Prop
  | ofFile (content : Except FileError String) : Relisted (file content) (file content)
  | ofDirectory {entries entries' : List (String × Entry)} (pairs : List (String × Entry × Entry)) :
      (∀ pair ∈ pairs, Relisted pair.2.1 pair.2.2) →
      entries.Perm (pairs.map fun pair => (pair.1, pair.2.1)) →
      entries'.Perm (pairs.map fun pair => (pair.1, pair.2.2)) →
      Relisted (directory entries) (directory entries')

namespace Relisted

theorem of_perm_of_refl (h : entries.Perm entries') (hrefl : ∀ member ∈ entries, member.2.Relisted member.2) :
    (directory entries).Relisted (directory entries') := by
  refine .ofDirectory (entries.map fun member => (member.1, member.2, member.2)) ?_ ?_ ?_
  · intro pair hpair
    obtain ⟨member, hmember, rfl⟩ := List.mem_map.mp hpair
    exact hrefl member hmember
  · rw [List.map_map]
    exact .of_eq (List.map_id entries).symm
  · rw [List.map_map]
    exact h.symm.trans (.of_eq (List.map_id entries).symm)

theorem refl (entry : Entry) : entry.Relisted entry := by
  induction entry using induct with
  | hfile content => exact .ofFile content
  | hdirectory entries ih => exact of_perm_of_refl (.refl entries) ih

/-- A directory may list what is in it in any order. -/
theorem of_perm (h : entries.Perm entries') : (directory entries).Relisted (directory entries') :=
  of_perm_of_refl h fun member _ => refl member.2

theorem symm (h : entry.Relisted entry') : entry'.Relisted entry := by
  induction h with
  | ofFile content => exact .ofFile content
  | ofDirectory pairs _ hleft hright ih =>
    refine .ofDirectory (pairs.map fun pair => (pair.1, pair.2.2, pair.2.1)) ?_ ?_ ?_
    · intro pair hpair
      obtain ⟨member, hmember, rfl⟩ := List.mem_map.mp hpair
      exact ih member hmember
    · rw [List.map_map]
      exact hright
    · rw [List.map_map]
      exact hleft

/-- What a directory lists stands under the same name in the other one. -/
theorem exists_mem (h : (directory entries).Relisted entry') (hmem : (name, entry) ∈ entries) :
    ∃ entries' other, entry' = directory entries' ∧ (name, other) ∈ entries' ∧ entry.Relisted other := by
  cases h with
  | ofDirectory pairs hpairs hleft hright =>
    obtain ⟨pair, hpair, heq⟩ := List.mem_map.mp (hleft.mem_iff.mp hmem)
    obtain ⟨rfl, rfl⟩ := Prod.mk.inj heq
    exact ⟨_, pair.2.2, rfl, hright.mem_iff.mpr (List.mem_map_of_mem hpair), hpairs pair hpair⟩

theorem names_perm (h : (directory entries).Relisted (directory entries')) :
    (entries.map (·.1)).Perm (entries'.map (·.1)) := by
  cases h with
  | ofDirectory pairs _ hleft hright =>
    have hnames := hleft.map (·.1)
    have hothers := hright.map (·.1)
    rw [List.map_map] at hnames hothers
    exact hnames.trans hothers.symm

end Relisted

inductive HasDistinctNames : Entry → Prop
  | ofFile (content : Except FileError String) : HasDistinctNames (file content)
  | ofDirectory {entries : List (String × Entry)} : (entries.map (·.1)).Nodup →
      (∀ member ∈ entries, HasDistinctNames member.2) → HasDistinctNames (directory entries)

@[simp] theorem hasDistinctNames_file (content : Except FileError String) : (file content).HasDistinctNames :=
  .ofFile content

@[simp] theorem hasDistinctNames_directory_iff : (directory entries).HasDistinctNames ↔
    (entries.map (·.1)).Nodup ∧ ∀ member ∈ entries, member.2.HasDistinctNames := by
  constructor
  · rintro (_ | ⟨hnames, hinner⟩)
    exact ⟨hnames, hinner⟩
  · exact fun h => .ofDirectory h.1 h.2

/-- A name leads to what is listed under it. -/
theorem find?_eq_some_iff {member : String × Entry} (h : (entries.map (·.1)).Nodup) :
    entries.find? (·.1 == name) = some member ↔ member ∈ entries ∧ member.1 = name := by
  constructor
  · intro hfind
    exact ⟨List.mem_of_find?_eq_some hfind, by simpa using List.find?_some hfind⟩
  · rintro ⟨hmem, rfl⟩
    have hsome : (entries.find? (·.1 == member.1)).isSome = true := List.find?_isSome.mpr ⟨member, hmem, by simp⟩
    obtain ⟨first, hfind⟩ := Option.isSome_iff_exists.mp hsome
    have hname : first.1 = member.1 := by simpa using List.find?_some hfind
    rw [hfind, List.inj_on_of_nodup_map h (List.mem_of_find?_eq_some hfind) hmem hname]

/-- Whether trees are found that differ only in the order of their directories, or none are and for the same reason. -/
def FoundAlike : Except FileError Entry → Except FileError Entry → Prop
  | .ok entry, .ok entry' => entry.Relisted entry'
  | .error e, .error e' => e = e'
  | _, _ => False

theorem FoundAlike.symm {found found' : Except FileError Entry} (h : FoundAlike found found') :
    FoundAlike found' found := by
  cases found <;> cases found'
  · exact Eq.symm h
  · exact h
  · exact h
  · exact Relisted.symm h

theorem Relisted.find? (h : (directory entries).Relisted (directory entries')) (hnames : (entries.map (·.1)).Nodup)
    (name : String) : Option.Rel (fun member member' => member ∈ entries ∧ member.2.Relisted member'.2)
      (entries.find? (·.1 == name)) (entries'.find? (·.1 == name)) := by
  have hnames' : (entries'.map (·.1)).Nodup := h.names_perm.nodup_iff.mp hnames
  cases hfind : entries.find? (·.1 == name) with
  | some member =>
    obtain ⟨hmem, rfl⟩ := (find?_eq_some_iff hnames).mp hfind
    obtain ⟨_, other, heq, hother, hrelisted⟩ := h.exists_mem hmem
    obtain rfl := directory.inj heq
    rw [(find?_eq_some_iff hnames').mpr ⟨hother, rfl⟩]
    exact .some ⟨hmem, hrelisted⟩
  | none =>
    cases hfind' : entries'.find? (·.1 == name) with
    | none => exact .none
    | some member =>
      obtain ⟨hmem, rfl⟩ := (find?_eq_some_iff hnames').mp hfind'
      obtain ⟨_, other, heq, hother, -⟩ := h.symm.exists_mem hmem
      obtain rfl := directory.inj heq
      rw [(find?_eq_some_iff hnames).mpr ⟨hother, rfl⟩] at hfind
      cases hfind

/-- A path leads to the same place in both trees. -/
theorem Relisted.follow (h : entry.Relisted entry') (hnames : entry.HasDistinctNames)
    (habove : List.Forall₂ (fun e e' => e.Relisted e' ∧ e.HasDistinctNames) above above') :
    FoundAlike (entry.follow above pieces) (entry'.follow above' pieces) := by
  induction pieces generalizing entry entry' above above' with
  | nil => exact h
  | cons piece rest ih =>
    cases entry with
    | file content =>
      cases h
      rfl
    | directory entries =>
      obtain ⟨entries', rfl⟩ : ∃ entries', entry' = directory entries' := by
        cases h
        exact ⟨_, rfl⟩
      obtain ⟨hdistinct, hinner⟩ := hasDistinctNames_directory_iff.mp hnames
      have hfind := h.find? hdistinct piece
      simp only [Entry.follow]
      split
      · exact ih h hnames habove
      · split
        · cases habove with
          | nil => rfl
          | cons hparent habove => exact ih hparent.1 hparent.2 habove
        · generalize entries.find? (·.1 == piece) = found, entries'.find? (·.1 == piece) = found' at hfind ⊢
          cases hfind with
          | none => rfl
          | some hmember => exact ih hmember.2 (hinner _ hmember.1) (.cons ⟨h, hnames⟩ habove)

end Entry

namespace FileSystem

variable {files files' : FileSystem} {path : String} {entry : Entry}

/-- Whether two file systems differ only in the order in which directories list what is in them. -/
def Relisted (files files' : FileSystem) : Prop :=
  ∀ path, Entry.FoundAlike (files.lookUp path) (files'.lookUp path)

theorem Relisted.symm (h : files.Relisted files') : files'.Relisted files :=
  fun path => (h path).symm

theorem Relisted.exists_lookUp (h : files.Relisted files') (hentry : files.lookUp path = .ok entry) :
    ∃ entry', files'.lookUp path = .ok entry' ∧ entry.Relisted entry' := by
  have hfound := h path
  rw [hentry] at hfound
  cases hentry' : files'.lookUp path with
  | error e => simp [hentry', Entry.FoundAlike] at hfound
  | ok entry' =>
    rw [hentry'] at hfound
    exact ⟨entry', rfl, hfound⟩

theorem relisted_ofTree {root root' : Entry} (h : root.Relisted root') (hnames : root.HasDistinctNames) :
    (ofTree root).Relisted (ofTree root') := by
  intro path
  simp only [ofTree, Entry.at?]
  split
  · rfl
  · exact h.follow hnames .nil

end FileSystem

end CommandBinding

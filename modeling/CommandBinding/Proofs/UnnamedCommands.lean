import CommandBinding.Proofs.CommandNames
import CommandBinding.Proofs.FunctionNames
import CommandBinding.Proofs.LeafReading

/-!
Commands without a name. The command name of an identifier is empty if the identifier has nothing but underscores.
Longer names of this kind are reserved, but two, three or four underscores are not: every function that is bound is also
bound under each of these names, to a command that has none.
-/
namespace CommandBinding

open Source CommandName

variable {name : String} {n : Nat}

def underscores (n : Nat) : String :=
  String.ofList (List.replicate n '_')

theorem toList_underscores : (underscores n).toList = List.replicate n '_' :=
  String.toList_ofList

theorem utf8ByteSize_underscores : (underscores n).utf8ByteSize = n := by
  have hone : '_'.utf8Size = 1 := by decide
  rw [underscores, String.utf8ByteSize_ofList]
  induction n with
  | zero => rfl
  | succ n ih => rw [List.replicate_succ, String.utf8Len_cons, ih, hone]

namespace CommandName

theorem nameWords_eq_nil_iff {cs : List Char} : nameWords cs = [] ↔ ∀ c ∈ cs, isSeparator c = true := by
  induction cs with
  | nil => simp
  | cons c cs ih =>
    by_cases hc : isSeparator c = true
    · simp [nameWords_separator hc, ih, hc]
    · rw [Bool.not_eq_true] at hc
      simp [nameWords_cons hc, hc]

theorem kebab_eq_empty_iff : kebab name = "" ↔ ∀ c ∈ name.toList, isSeparator c = true := by
  rw [kebab, String.ofList_eq_empty_iff, ← nameWords_eq_nil_iff, ← List.map_eq_nil_iff (f := lowered)]
  constructor
  · exact not_imp_not.mp (joined_ne_nil fun _ hword => isWord_of_mem_kebab hword)
  · intro hnone
    rw [hnone, joined_nil]

end CommandName

namespace WorkFunction

/-- Names of underscores are reserved beyond four of them. -/
theorem isReservedName_underscores : isReservedName (underscores n) = decide (4 < n) := by
  have htwo : "__".toList = List.replicate 2 '_' := by decide
  have hstarts : (underscores n).startsWith "__" = true ↔ 2 ≤ n := by
    simp [String.startsWith_string_iff, toList_underscores, htwo, List.prefix_replicate_iff]
  have hends : (underscores n).endsWith "__" = true ↔ 2 ≤ n := by
    rw [String.endsWith_eq_endsWith_toSlice, String.Slice.endsWith_string_iff, String.copy_toSlice]
    simp [toList_underscores, htwo, List.suffix_replicate_iff]
  rw [Bool.eq_iff_iff, isReservedName, utf8ByteSize_underscores, Bool.and_eq_true, Bool.and_eq_true, hstarts, hends,
    decide_eq_true_eq]
  omega

end WorkFunction

/-- An identifier without a command name is a row of underscores. -/
theorem exists_underscores (hname : isIdentifier name = true) (h : kebab name = "") :
    ∃ n, 0 < n ∧ name = underscores n := by
  obtain ⟨c, more, htext, -⟩ := Lexer.isIdentifier_iff.mp hname
  have hdash : '-' ∉ name.toList := Lexer.not_mem_word (.inl hname) (by decide) (by decide)
  have hall : ∀ d ∈ name.toList, d = '_' := by
    intro d hd
    have hseparator := kebab_eq_empty_iff.mp h d hd
    simp only [isSeparator, Bool.or_eq_true, beq_iff_eq] at hseparator
    rcases hseparator with hunderscore | rfl
    · exact hunderscore
    · exact absurd hd hdash
  refine ⟨name.toList.length, by simp [htext], ?_⟩
  rw [← String.toList_inj, toList_underscores]
  exact List.eq_replicate_iff.mpr ⟨rfl, hall⟩

theorem kebab_underscores : kebab (underscores n) = "" := by
  rw [kebab_eq_empty_iff, toList_underscores]
  intro c hc
  rw [List.eq_of_mem_replicate hc]
  rfl

/-- The names of underscores that are not reserved, but for the one that binds nothing. -/
def shortUnderscores : List String :=
  ["__", "___", "____"]

theorem mem_shortUnderscores_iff : name ∈ shortUnderscores ↔ ∃ n, 1 < n ∧ n ≤ 4 ∧ name = underscores n := by
  have hnames : shortUnderscores = [2, 3, 4].map underscores := by decide
  rw [hnames, List.mem_map]
  constructor
  · rintro ⟨n, hn, rfl⟩
    refine ⟨n, ?_, ?_, rfl⟩ <;> simp at hn <;> omega
  · rintro ⟨n, hlow, hhigh, rfl⟩
    exact ⟨n, by simp; omega, rfl⟩

namespace WorkFunction

variable {f : WorkFunction} {directive : Directive} {settings : Settings} {b : Binding}

theorem commandName_of_bind (h : f.bind directive settings = .ok b) : b.commandName = kebab f.name := by
  obtain ⟨-, groups, function, state, -, -, rfl⟩ := bind_eq_ok_iff.mp h
  exact callName_eq_kebab f.name

/-- Of the functions that are bound, those named by two to four underscores have a command without a name. -/
theorem commandName_eq_empty_iff (hname : isIdentifier f.name = true) (hlone : f.name ≠ "_")
    (hbind : f.bind directive settings = .ok b) :
    (b.commandName = "" ↔ f.name ∈ shortUnderscores) ∧ ∀ name ∈ shortUnderscores,
      ∃ unnamed, (f.renamed name).bind directive settings = .ok unnamed ∧ unnamed.commandName = "" := by
  have hfree := not_isReservedName_of_bind hbind
  refine ⟨⟨fun hempty => ?_, fun hshort => ?_⟩, fun name hshort => ?_⟩
  · rw [commandName_of_bind hbind] at hempty
    obtain ⟨n, hpos, hrow⟩ := exists_underscores hname hempty
    rw [hrow, isReservedName_underscores, decide_eq_false_iff_not, not_lt] at hfree
    have hmore : n ≠ 1 := by
      rintro rfl
      exact hlone hrow
    exact mem_shortUnderscores_iff.mpr ⟨n, by omega, hfree, hrow⟩
  · obtain ⟨n, -, -, hrow⟩ := mem_shortUnderscores_iff.mp hshort
    rw [commandName_of_bind hbind, hrow, kebab_underscores]
  · obtain ⟨n, -, hhigh, rfl⟩ := mem_shortUnderscores_iff.mp hshort
    have hsame : isReservedName (underscores n) = isReservedName f.name := by
      rw [hfree, isReservedName_underscores, decide_eq_false_iff_not, not_lt]
      exact hhigh
    have hrenamed := bind_renamed hsame hbind
    refine ⟨_, hrenamed, ?_⟩
    rw [commandName_of_bind hrenamed]
    exact kebab_underscores

/-- A function without parameters that is named by two underscores. -/
theorem commandName_eq_empty_of_two_underscores :
    ∃ b, (named "__").bind { kind := .callFunction } {} = .ok b ∧ b.commandName = "" := by
  have hbound : ((named "__").bind { kind := .callFunction } {}).toOption.isSome = true := by decide +kernel
  cases hb : (named "__").bind { kind := .callFunction } {} with
  | error found => simp [hb, Except.toOption] at hbound
  | ok b =>
    obtain ⟨hempty, -⟩ := commandName_eq_empty_iff (by decide +kernel) (by decide) hb
    exact ⟨b, rfl, hempty.mpr (by decide)⟩

end WorkFunction

end CommandBinding

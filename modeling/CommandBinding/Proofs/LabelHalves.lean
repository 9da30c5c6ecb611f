import CommandBinding.Proofs.AliasSpellings
import CommandBinding.Proofs.FlagAliases

/-!
The halves of a label. A label is cut where the separator occurs for the first time, and its aliases hold both halves in
full: the head is the short or the legacy alias, which its length decides, and the rest is the long one.
-/
namespace CommandBinding

variable {separator cs head tail front back : List Char}

/-- A text is cut if the separator occurs in it, and not behind any place where it does. -/
theorem exists_cutAtFirst (h : cs = front ++ separator ++ back) :
    ∃ head tail, cutAtFirst separator cs = some (head, tail) ∧ head.length ≤ front.length := by
  induction cs generalizing front with
  | nil =>
    obtain ⟨hfront, -⟩ := List.append_eq_nil_iff.mp h.symm
    obtain ⟨-, rfl⟩ := List.append_eq_nil_iff.mp hfront
    exact ⟨[], [], rfl, Nat.zero_le _⟩
  | cons c rest ih =>
    by_cases hprefix : separator.isPrefixOf (c :: rest) = true
    · exact ⟨[], _, if_pos hprefix, Nat.zero_le _⟩
    · cases front with
      | nil => exact absurd (List.isPrefixOf_iff_prefix.mpr ⟨back, h.symm⟩) hprefix
      | cons d front =>
        obtain ⟨head, tail, hcut, hle⟩ := ih (List.cons.inj h).2
        refine ⟨c :: head, tail, ?_, Nat.succ_le_succ hle⟩
        rw [cutAtFirst, if_neg hprefix, hcut, Option.map_some]

theorem cutAtFirst_eq_none_iff : cutAtFirst separator cs = none ↔ ∀ front back, cs ≠ front ++ separator ++ back := by
  constructor
  · rintro hnone front back h
    obtain ⟨head, tail, hcut, -⟩ := exists_cutAtFirst h
    simp [hcut] at hnone
  · intro h
    cases hcut : cutAtFirst separator cs with
    | none => rfl
    | some pieces => exact absurd (eq_append_of_cutAtFirst hcut) (h pieces.1 pieces.2)

namespace Aliases

variable {label separator text : String}

/-- The alias that the head of a label gives, empty if it gives none. -/
def headText (a : Aliases) : String :=
  (a.short.or a.legacy).getD ""

theorem headText_ofHead (head : List Char) (long : Option String) :
    ({ ofHead head with long } : Aliases).headText = String.ofList head := by
  match head with
  | [] => rfl
  | [c] => rfl
  | c :: d :: rest => rfl

theorem length_of_short {head : List Char} (h : (ofHead head).short = some text) : text.length = 1 := by
  match head with
  | [] => simp [ofHead] at h
  | [c] =>
    obtain rfl := Option.some.inj h
    simp
  | c :: d :: rest => simp [ofHead] at h

theorem length_of_legacy {head : List Char} (h : (ofHead head).legacy = some text) : 2 ≤ text.length := by
  match head with
  | [] => simp [ofHead] at h
  | [c] => simp [ofHead] at h
  | c :: d :: rest =>
    obtain rfl := Option.some.inj h
    rw [String.length_ofList, List.length_cons, List.length_cons]
    omega

theorem getD_nonEmpty (cs : List Char) : (nonEmpty cs).getD "" = String.ofList cs := by
  cases cs <;> rfl

theorem length_of_nonEmpty {cs : List Char} (h : nonEmpty cs = some text) : 1 ≤ text.length := by
  cases cs with
  | nil => simp [nonEmpty] at h
  | cons c cs =>
    obtain rfl := Option.some.inj h
    rw [String.length_ofList, List.length_cons]
    omega

theorem ofLabel_of_cut {head tail : List Char} (hlabel : label ≠ positionalLabel)
    (hcut : cutAtFirst separator.toList label.toList = some (head, tail)) :
    ofLabel label separator = { ofHead head with long := nonEmpty tail } := by
  rw [ofLabel, if_neg hlabel, hcut]

theorem ofLabel_of_uncut (hlabel : label ≠ positionalLabel)
    (hcut : cutAtFirst separator.toList label.toList = none) :
    ofLabel label separator = { ofHead label.toList with long := (ofHead label.toList).legacy } := by
  rw [ofLabel, if_neg hlabel, hcut]

/-- The lengths of the aliases tell them apart, whatever the label is. -/
theorem lengths_ofLabel (label separator : String) :
    (∀ text, (ofLabel label separator).short = some text → text.length = 1) ∧
      (∀ text, (ofLabel label separator).legacy = some text → 2 ≤ text.length) ∧
      ∀ text, (ofLabel label separator).long = some text → 1 ≤ text.length := by
  by_cases hlabel : label = positionalLabel
  · simp [ofLabel, hlabel]
  · cases hcut : cutAtFirst separator.toList label.toList with
    | none =>
      rw [ofLabel_of_uncut hlabel hcut]
      exact ⟨fun _ => length_of_short, fun _ => length_of_legacy, fun _ h => Nat.le_of_lt (length_of_legacy h)⟩
    | some pieces =>
      rw [ofLabel_of_cut hlabel hcut]
      exact ⟨fun _ => length_of_short, fun _ => length_of_legacy, fun _ => length_of_nonEmpty⟩

/-- A label is made up of the alias of its head, the separator and the long alias, and the separator occurs in it nowhere
before; where it does not occur at all, the head is the whole label and the long alias is the legacy one. -/
theorem ofLabel_cuts_at_first_separator {label : String} (hlabel : label ≠ positionalLabel) (separator : String) :
    (∀ front back, label = front ++ separator ++ back →
      label = (ofLabel label separator).headText ++ separator ++ (ofLabel label separator).long.getD "" ∧
        (ofLabel label separator).headText.length ≤ front.length) ∧
    ((∀ front back, label ≠ front ++ separator ++ back) →
      label = (ofLabel label separator).headText ∧ (ofLabel label separator).long = (ofLabel label separator).legacy) ∧
    (∀ text, (ofLabel label separator).short = some text → text.length = 1) ∧
    (∀ text, (ofLabel label separator).legacy = some text → 2 ≤ text.length) ∧
    (∀ text, (ofLabel label separator).long = some text → 1 ≤ text.length) ∧
    ((ofLabel label separator).short = none ∨ (ofLabel label separator).legacy = none) := by
  obtain ⟨hshort, hlegacy, hlong⟩ := lengths_ofLabel label separator
  refine ⟨fun front back hoccurs => ?_, fun hnowhere => ?_, hshort, hlegacy, hlong,
    ofLabel_short_or_legacy label separator⟩
  · have hchars : label.toList = front.toList ++ separator.toList ++ back.toList := by
      rw [hoccurs, String.toList_append, String.toList_append]
    obtain ⟨head, tail, hcut, hle⟩ := exists_cutAtFirst hchars
    rw [ofLabel_of_cut hlabel hcut, headText_ofHead, getD_nonEmpty, String.length_ofList, ← String.length_toList]
    refine ⟨?_, hle⟩
    rw [← String.toList_inj]
    simpa using eq_append_of_cutAtFirst hcut
  · have hcut : cutAtFirst separator.toList label.toList = none := by
      rw [cutAtFirst_eq_none_iff]
      intro front back hchars
      refine hnowhere (String.ofList front) (String.ofList back) ?_
      rw [← String.toList_inj]
      simpa using hchars
    rw [ofLabel_of_uncut hlabel hcut, headText_ofHead, String.ofList_toList]
    exact ⟨rfl, rfl⟩

/-- The label `x__dry__run` is cut at the first of its separators, and `dry_run` not at all. -/
theorem ofLabel_cuts_at_first_of_two :
    ("x__dry__run" = (ofLabel "x__dry__run" "__").headText ++ "__" ++ (ofLabel "x__dry__run" "__").long.getD "" ∧
      (ofLabel "x__dry__run" "__").headText.length ≤ "x".length) ∧
    "dry_run" = (ofLabel "dry_run" "__").headText := by
  have hnowhere : ∀ front back, "dry_run" ≠ front ++ "__" ++ back := by
    have hcut : cutAtFirst "__".toList "dry_run".toList = none := by decide
    intro front back h
    refine cutAtFirst_eq_none_iff.mp hcut front.toList back.toList ?_
    rw [h, String.toList_append, String.toList_append]
  exact ⟨(ofLabel_cuts_at_first_separator (by decide) "__").1 "x" "dry__run" (by decide),
    ((ofLabel_cuts_at_first_separator (by decide) "__").2.1 hnowhere).1⟩

end Aliases

end CommandBinding

import CommandBinding.CodeText
import Mathlib.Data.Bool.AllAny

/-!
Texts of the form `Head<Inner>`. A text that counts as one argument stays one inside further brackets, so a
sequence type is read back whatever its element type is made of.
-/
namespace CommandBinding.CodeText

def isAsciiName (text : String) : Bool :=
  match text.toList with
  | [] => false
  | c :: rest => startsName c && rest.all continuesName

theorem continuesName_of_startsName {c : Char} (h : startsName c = true) : continuesName c = true := by
  simp only [startsName, continuesName, Char.isAlphanum, Bool.or_eq_true] at h ⊢
  exact h.imp_left Or.inl

theorem continuesName_of_isAsciiName {text : String} (h : isAsciiName text = true) :
    ∀ c ∈ text.toList, continuesName c = true := by
  unfold isAsciiName at h
  split at h
  · simp at h
  · next first rest he =>
    simp only [Bool.and_eq_true, List.all_eq_true] at h
    intro c hc
    rw [he] at hc
    rcases List.mem_cons.mp hc with rfl | hc
    · exact continuesName_of_startsName h.1
    · exact h.2 c hc

/-- A text that is one argument leaves the depth of the brackets around it as it was. -/
theorem isOneArgument_append {cs : List Char} {depth : Nat} (h : isOneArgument depth cs = true) (outer : Nat)
    (rest : List Char) : isOneArgument (depth + outer + 1) (cs ++ rest) = isOneArgument (outer + 1) rest := by
  induction cs generalizing depth with
  | nil =>
    have : depth = 0 := by simpa [isOneArgument] using h
    simp [this]
  | cons c cs ih =>
    simp only [isOneArgument, List.cons_append] at h ⊢
    split at h
    · rw [if_pos ‹_›, ← ih h, show depth + outer + 1 + 1 = depth + 1 + outer + 1 by omega]
    · next hopen =>
      rw [if_neg hopen]
      split at h
      · next hclose =>
        simp only [Bool.and_eq_true, bne_iff_ne, ne_eq] at h
        rw [if_pos hclose, ← ih h.2, show depth + outer + 1 - 1 = depth - 1 + outer + 1 by omega]
        simp
      · next hclose =>
        rw [if_neg hclose]
        split at h
        · simp at h
        · rw [if_neg (by simp), ih h]

/-- A character of a name is no bracket, no comma and no line feed. -/
theorem isOneArgument_cons_of_continuesName {c : Char} (h : continuesName c = true) (depth : Nat) (rest : List Char) :
    isOneArgument depth (c :: rest) = isOneArgument depth rest := by
  have hmark : ∀ d ∈ ['<', '(', '[', '>', ')', ']', ','], continuesName d = false :=
    List.all_iff_forall_prop.mp (by decide)
  have hne : ∀ d ∈ ['<', '(', '[', '>', ')', ']', ','], c ≠ d := by
    rintro d hd rfl
    simp [hmark c hd] at h
  simp only [List.forall_mem_cons] at hne
  simp [isOneArgument, hne]

theorem isOneArgument_name_append {name : List Char} (h : ∀ c ∈ name, continuesName c = true) (depth : Nat)
    (rest : List Char) : isOneArgument depth (name ++ rest) = isOneArgument depth rest := by
  induction name with
  | nil => rfl
  | cons c name ih =>
    rw [List.cons_append, isOneArgument_cons_of_continuesName (h c (by simp)), ih fun d hd => h d (by simp [hd])]

/-- What may stand between the brackets of a wrapped type. -/
structure IsInner (cs : List Char) : Prop where
  ne_nil : cs ≠ []
  on_one_line : '\n' ∉ cs
  one_argument : isOneArgument 0 cs = true

/-- A name around an argument is one argument again. -/
theorem IsInner.wrap {name cs : List Char} (hname : ∀ c ∈ name, continuesName c = true) (h : IsInner cs) :
    IsInner (name ++ '<' :: (cs ++ ['>'])) where
  ne_nil := by simp
  on_one_line := by
    have hfeed : '\n' ∉ name := fun hm => absurd (hname _ hm) (by decide)
    simp [hfeed, h.on_one_line]
  one_argument := by
    rw [isOneArgument_name_append hname]
    simpa [isOneArgument] using isOneArgument_append h.one_argument 0 ['>']

theorem beforeFinalAngle_eq_some_iff {cs inner : List Char} :
    beforeFinalAngle cs = some inner ↔ cs = inner ++ ['>'] := by
  unfold beforeFinalAngle
  split
  · next inner' he =>
    have : cs = inner'.reverse ++ ['>'] := by simpa using congrArg List.reverse he
    rw [this]
    simp
  · next hne =>
    constructor
    · simp
    · rintro rfl
      exact absurd (by simp) (hne inner.reverse)

/-- A wrapped type that is read has an argument between its brackets. -/
theorem isInner_of_wrapped? {text head inner : String} (h : wrapped? text = some (head, inner)) :
    IsInner inner.toList := by
  simp only [wrapped?, Option.bind_eq_bind, Option.bind_eq_some_iff, Prod.exists] at h
  obtain ⟨_, _, _, cs, _, h⟩ := h
  split at h
  · simp at h
  · next hc =>
    simp only [Bool.or_eq_true, Bool.not_eq_true', not_or, List.isEmpty_iff, List.contains_iff_mem,
      Bool.not_eq_false] at hc
    simp only [Option.some.injEq, Prod.mk.injEq] at h
    obtain ⟨-, rfl⟩ := h
    rw [String.toList_ofList]
    exact ⟨hc.1.1, hc.1.2, hc.2⟩

theorem isInner_of_sequenceElement? {text element : String} (h : sequenceElement? text = some element) :
    IsInner element.toList := by
  unfold sequenceElement? at h
  split at h
  · next hw =>
    obtain rfl := Option.some.inj h
    exact isInner_of_wrapped? hw
  · simp at h

/-- A sequence type is read back. -/
theorem wrapped?_sequenceOf {element : String} (h : IsInner element.toList) :
    wrapped? (sequenceOf element) = some ("Vec", element) := by
  have htext : (sequenceOf element).toList = 'V' :: 'e' :: 'c' :: '<' :: (element.toList ++ ['>']) := by
    simp [sequenceOf]
  have hhead : ∀ rest, headFrom [] ('V' :: 'e' :: 'c' :: '<' :: rest) = some (['V', 'e', 'c'], rest) := fun _ => rfl
  have hangle := beforeFinalAngle_eq_some_iff.mpr (rfl : element.toList ++ ['>'] = element.toList ++ ['>'])
  simp only [wrapped?, htext, hhead, hangle, Option.bind_eq_bind, Option.bind_some, h.one_argument]
  rw [if_neg (by simp [h.ne_nil, h.on_one_line])]
  simp

end CommandBinding.CodeText

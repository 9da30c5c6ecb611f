import CommandBinding.Proofs.WordReading

/-!
Names without the mark of their raw form. What is left is an identifier, and it makes a name again: the same one, or
the raw form of a reserved word. So a name that has been kept as a text can always be written where code is generated.
-/
namespace CommandBinding.Source

open Lexer (isIdentifier_iff not_isIdentifierContinue_of_mem)

variable {word text : String}

/-- An identifier does not begin with the mark of a raw form. -/
theorem not_raw_of_isIdentifier (h : isIdentifier text = true) (rest : List Char) : text.toList ≠ 'r' :: '#' :: rest := by
  obtain ⟨c, more, htext, -, hmore⟩ := isIdentifier_iff.mp h
  intro hraw
  rw [htext] at hraw
  obtain ⟨-, rfl⟩ := List.cons.inj hraw
  have hsharp := not_isIdentifierContinue_of_mem (c := '#') (by decide)
  rw [hmore '#' (by simp)] at hsharp
  exact absurd hsharp (by decide)

theorem unraw_of_isIdentifier (h : isIdentifier text = true) : unraw text = text := by
  unfold unraw
  split
  · next rest hraw => exact absurd hraw (not_raw_of_isIdentifier h rest)
  · rfl

theorem isName_of_isIdentifier (h : isIdentifier text = true) (hreserved : text ∉ reservedWords) :
    isName text = true := by
  unfold isName
  split
  · next rest hraw => exact absurd hraw (not_raw_of_isIdentifier h rest)
  · simpa [h] using hreserved

/-- The identifier behind a name is reserved only if the name is raw, and then it has a raw form. -/
theorem plain_cases (name : Name) :
    isIdentifier name.plain = true ∧ (name.plain ∈ reservedWords → hasRawForm name.plain = true) := by
  have h := name.text_isName
  unfold isName at h
  split at h
  · next rest hraw =>
    have hplain : name.plain = String.ofList rest := by simp only [Name.plain, unraw, hraw]
    rw [hplain]
    refine ⟨?_, fun _ => h⟩
    simp only [hasRawForm, Bool.and_eq_true] at h
    exact h.1
  · next hraw =>
    simp only [Bool.and_eq_true, Bool.not_eq_true', List.contains_eq_mem, decide_eq_false_iff_not] at h
    have hplain : name.plain = name.text := unraw_of_isIdentifier h.1
    rw [hplain]
    exact ⟨h.1, fun hreserved => absurd hreserved h.2⟩

theorem plain_ne (name : Name) : name.plain ≠ "_" ∧ name.plain ≠ "" := by
  obtain ⟨hidentifier, hraw⟩ := plain_cases name
  constructor
  · intro heq
    rw [heq] at hraw
    exact absurd (hraw (by decide)) (by decide +kernel)
  · intro heq
    rw [heq] at hidentifier
    exact absurd hidentifier (by decide)

theorem ofWord?_of_reserved (h : isIdentifier text = true) (hreserved : text ∈ reservedWords) :
    Name.ofWord? text = none := by
  have hname : isName text = false := by
    unfold isName
    split
    · next rest hraw => exact absurd hraw (not_raw_of_isIdentifier h rest)
    · simp [hreserved]
  simp only [Name.ofWord?, hname, Bool.false_eq_true, ↓reduceDIte]

theorem unraw_raw (text : String) : unraw ("r#" ++ text) = text := by
  have hletters : ("r#" ++ text).toList = 'r' :: '#' :: text.toList := by simp
  simp only [unraw, hletters, String.ofList_toList]

theorem isName_raw (text : String) : isName ("r#" ++ text) = hasRawForm text := by
  have hletters : ("r#" ++ text).toList = 'r' :: '#' :: text.toList := by simp
  simp only [isName, hletters, String.ofList_toList]

theorem ofText?_of_reserved (h : isIdentifier text = true) (hreserved : text ∈ reservedWords)
    (hraw : isName ("r#" ++ text) = true) : Name.ofText? text = some ⟨"r#" ++ text, hraw⟩ := by
  have htokens : ∀ x ∈ reservedWords, Token.ofText? x = some [.word x] := by decide +kernel
  have hnone : Name.ofWord? text = none := ofWord?_of_reserved h hreserved
  have hread : Name.read? text = none := by simp only [Name.read?, htokens text hreserved, hnone]
  have hword : Name.ofWord? ("r#" ++ text) = some ⟨"r#" ++ text, hraw⟩ := by
    simp only [Name.ofWord?, hraw, ↓reduceDIte]
  simp only [Name.ofText?, hread, hword]

/-- A text that is a name makes itself. -/
theorem ofText?_of_isName (h : isName text = true) : Name.ofText? text = some ⟨text, h⟩ := by
  have hword : Name.ofWord? text = some ⟨text, h⟩ := by simp only [Name.ofWord?, h, ↓reduceDIte]
  simp only [Name.ofText?, Name.read?, hword]

/-- The identifier behind a name makes a name with the same identifier. -/
theorem exists_ofText?_plain (name : Name) : ∃ again, Name.ofText? name.plain = some again ∧ again.plain = name.plain := by
  obtain ⟨hidentifier, hraw⟩ := plain_cases name
  by_cases hreserved : name.plain ∈ reservedWords
  · have hname : isName ("r#" ++ name.plain) = true := (isName_raw _).trans (hraw hreserved)
    exact ⟨_, ofText?_of_reserved hidentifier hreserved hname, unraw_raw name.plain⟩
  · have hname := isName_of_isIdentifier hidentifier hreserved
    exact ⟨_, ofText?_of_isName hname, unraw_of_isIdentifier hidentifier⟩

end CommandBinding.Source

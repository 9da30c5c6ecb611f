import CommandBinding.Proofs.WrapperRecognition

/-!
Which types are reserved. A type is taken for a flag by what follows its last `::`, so not only the paths to the reserved
names are: every type that ends in such a path is, a reference or a function type with such an output as well. The same
types with the bare name in the place of the path are values.
-/
namespace CommandBinding

namespace CodeText

variable {cs name best : List Char}

/-- What follows the last `::` stands behind one. -/
theorem afterLastColons_eq_or_behind (best cs : List Char) :
    afterLastColons best cs = best ∨ ∃ front, cs = front ++ ':' :: ':' :: afterLastColons best cs := by
  induction cs generalizing best with
  | nil => exact Or.inl rfl
  | cons c rest ih =>
    rw [afterLastColons]
    rcases ih (if c == ':' && rest.head? == some ':' then rest.tail else best) with h | ⟨front, h⟩
    · by_cases hcolons : (c == ':' && rest.head? == some ':') = true
      · rw [if_pos hcolons] at h ⊢
        simp only [Bool.and_eq_true, beq_iff_eq] at hcolons
        obtain ⟨rfl, hhead⟩ := hcolons
        obtain ⟨more, rfl⟩ := List.head?_eq_some_iff.mp hhead
        exact Or.inr ⟨[], by rw [h]; rfl⟩
      · rw [if_neg hcolons] at h ⊢
        exact Or.inl h
    · exact Or.inr ⟨c :: front, congrArg (c :: ·) h⟩

theorem afterLastColons_of_no_colon (h : ':' ∉ name) (best : List Char) : afterLastColons best name = best := by
  rcases afterLastColons_eq_or_behind best name with hbest | ⟨front, hbehind⟩
  · exact hbest
  · rw [hbehind] at h
    simp at h

theorem afterLastColons_append (h : ':' ∉ name) (best front : List Char) :
    afterLastColons best (front ++ ':' :: ':' :: name) = name := by
  induction front generalizing best with
  | nil =>
    have hhead : name.head? ≠ some ':' := fun hhead => h (List.mem_of_head? hhead)
    simp [afterLastColons, hhead, afterLastColons_of_no_colon h]
  | cons c front ih => exact ih _

/-- A name is the last segment of itself and of the texts that end in it behind `::`. -/
theorem lastSegment_eq_iff {text name : String} (h : ':' ∉ name.toList) :
    lastSegment text = name ↔ text = name ∨ ∃ front, text = front ++ "::" ++ name := by
  rw [lastSegment, ← String.toList_inj, String.toList_ofList]
  constructor
  · intro hlast
    rcases afterLastColons_eq_or_behind text.toList text.toList with hwhole | ⟨front, hbehind⟩
    · exact Or.inl (String.toList_inj.mp (hwhole.symm.trans hlast))
    · refine Or.inr ⟨String.ofList front, ?_⟩
      rw [← String.toList_inj, hbehind, hlast]
      simp
  · rintro (rfl | ⟨front, rfl⟩)
    · exact afterLastColons_of_no_colon h _
    · have hchars : (front ++ "::" ++ name).toList = front.toList ++ ':' :: ':' :: name.toList := by simp
      rw [hchars]
      exact afterLastColons_append h _ _

/-- A wrapped type ends in a bracket. -/
theorem wrapped?_eq_none {text : String} (h : text.toList.getLast? ≠ some '>') : wrapped? text = none := by
  cases hwrapped : wrapped? text with
  | none => rfl
  | some pair =>
    obtain ⟨path, hpath, -⟩ := exists_path_of_headFrom (wrapped?_eq_some_iff.mp hwrapped).1 (by simp)
    have hchars : text.toList = path ++ pair.1.toList ++ '<' :: pair.2.toList ++ ['>'] := by simpa using hpath
    exact absurd (by rw [hchars, List.getLast?_concat]) h

end CodeText

/-- The types that are flags by their name alone. -/
inductive ReservedType where
  | flag
  | metaFlag
deriving DecidableEq, Repr

namespace ReservedType

def name : ReservedType → String
  | flag => "Flag"
  | metaFlag => "MetaFlag"

def category : ReservedType → Category
  | flag => .flag
  | metaFlag => .metaFlag

/-- A path to the type: names with `::` between them, and perhaps in front. -/
def IsPathTo (r : ReservedType) (text : String) : Prop :=
  ∃ (rooted : Bool) (path : List String), (∀ segment ∈ path, Lexeme.IsWord segment) ∧
    text.toList = (if rooted then [':', ':'] else []) ++ Wrapper.pathChars path ++ r.name.toList

/-- A text that ends in the name behind `::` and is no path to the type. -/
def OnlyEndsIn (r : ReservedType) (text : String) : Prop :=
  (∃ front, text = front ++ "::" ++ r.name) ∧ ¬r.IsPathTo text

variable {r : ReservedType} {text front : String} {c : Char}

theorem no_colon (r : ReservedType) : ':' ∉ r.name.toList := by
  cases r <;> decide

theorem ofUnwrapped_eq_category_iff : Category.ofUnwrapped text {} = r.category ↔ CodeText.lastSegment text = r.name := by
  simp only [Category.ofUnwrapped]
  cases r <;> split_ifs <;> simp_all [category, name]

theorem ofType_append (front : String) :
    Category.ofType (front ++ r.name) {} = Category.ofUnwrapped (front ++ r.name) {} := by
  have hlast : r.name.toList.getLast? = some 'g' := by cases r <;> decide
  have hnone : CodeText.wrapped? (front ++ r.name) = none := CodeText.wrapped?_eq_none (by simp [hlast])
  rw [Category.ofType, hnone]

theorem ofUnwrapped_of_ofType (h : Category.ofType text {} = r.category) :
    Category.ofUnwrapped text {} = r.category := by
  unfold Category.ofType at h
  split at h
  · split_ifs at h <;> cases r <;> first | exact h | cases h
  · exact h

theorem ofType_eq_category_iff : Category.ofType text {} = r.category ↔
    text = r.name ∨ ∃ front, text = front ++ "::" ++ r.name := by
  rw [← CodeText.lastSegment_eq_iff r.no_colon, ← ofUnwrapped_eq_category_iff]
  refine ⟨ofUnwrapped_of_ofType, fun h => ?_⟩
  have hends : ∃ front, text = front ++ r.name := by
    rcases (CodeText.lastSegment_eq_iff r.no_colon).mp (ofUnwrapped_eq_category_iff.mp h) with rfl | ⟨front, rfl⟩
    · exact ⟨"", by simp⟩
    · exact ⟨front ++ "::", rfl⟩
  obtain ⟨front, rfl⟩ := hends
  rw [ofType_append, h]

/-- What stands in front of the name in a path to it is nothing or ends in `::`. -/
theorem pathChars_eq_nil_or (rooted : Bool) (path : List String) :
    (if rooted then [':', ':'] else []) ++ Wrapper.pathChars path = [] ∨
      ∃ front, (if rooted then [':', ':'] else []) ++ Wrapper.pathChars path = front ++ [':', ':'] := by
  rcases List.eq_nil_or_concat path with rfl | ⟨path, segment, rfl⟩
  · cases rooted
    · exact Or.inl rfl
    · exact Or.inr ⟨[], rfl⟩
  · exact Or.inr ⟨(if rooted then [':', ':'] else []) ++ Wrapper.pathChars path ++ segment.toList,
      by simp [Wrapper.pathChars]⟩

theorem IsPathTo.ends (h : r.IsPathTo text) : text = r.name ∨ ∃ front, text = front ++ "::" ++ r.name := by
  obtain ⟨rooted, path, -, hchars⟩ := h
  rcases pathChars_eq_nil_or rooted path with hnil | ⟨front, hfront⟩
  · exact Or.inl (String.toList_inj.mp (by simpa [hnil] using hchars))
  · refine Or.inr ⟨String.ofList front, ?_⟩
    rw [← String.toList_inj, hchars, hfront]
    simp

theorem isPathTo_name (r : ReservedType) : r.IsPathTo r.name :=
  ⟨false, [], by simp, by simp [Wrapper.pathChars]⟩

/-- What a path is made of. -/
theorem IsPathTo.mem (h : r.IsPathTo text) : ∀ c ∈ text.toList, Unicode.isIdentifierStart c = true ∨
    Unicode.isIdentifierContinue c = true ∨ c = '#' ∨ c = ':' := by
  obtain ⟨rooted, path, hpath, hchars⟩ := h
  have hname : Lexeme.IsWord r.name := Or.inl (by cases r <;> decide +kernel)
  intro c hc
  simp only [hchars, List.mem_append, Wrapper.pathChars, List.mem_flatMap] at hc
  rcases hc with (hc | ⟨segment, hsegment, hc⟩) | hc
  · cases rooted <;> simp_all
  · rcases hc with hc | hc
    · exact (Lexeme.mem_of_isWord (hpath segment hsegment) c hc).imp_right (Or.imp_right Or.inl)
    · simp_all
  · exact (Lexeme.mem_of_isWord hname c hc).imp_right (Or.imp_right Or.inl)

/-- Behind a mark or a blank, the bare name is no last segment. -/
theorem lastSegment_ne_name (hcolon : c ≠ ':') (hword : CodeText.isWordChar c = false) (front : String)
    (r other : ReservedType) : CodeText.lastSegment (front ++ String.singleton c ++ r.name) ≠ other.name := by
  have hletters : ∀ d ∈ other.name.toList, CodeText.isWordChar d = true :=
    List.all_iff_forall_prop.mp (by cases other <;> decide)
  have hmem : c ∉ other.name.toList := fun hc => by simp [hletters c hc] at hword
  have hchars : (front ++ String.singleton c ++ r.name).toList = front.toList ++ c :: r.name.toList := by simp
  rw [Ne, CodeText.lastSegment_eq_iff other.no_colon]
  rintro (hname | ⟨before, hbehind⟩)
  · rw [← String.toList_inj, hchars] at hname
    exact hmem (hname ▸ by simp)
  · rw [← String.toList_inj, hchars, String.toList_append, String.toList_append, List.append_assoc] at hbehind
    -- Both ends belong to one text, so the shorter one ends the longer one.
    have hmarked : c :: r.name.toList <:+ before.toList ++ ("::".toList ++ other.name.toList) := ⟨_, hbehind⟩
    rcases List.suffix_or_suffix_of_suffix hmarked ⟨_, rfl⟩ with hends | hends
    · have hc := hends.subset (List.mem_cons_self ..)
      simp [hcolon, hmem] at hc
    · have hc : ':' ∈ c :: r.name.toList := hends.subset (by simp)
      simp [hcolon.symm, r.no_colon] at hc

theorem ofType_of_bare (hcolon : c ≠ ':') (hword : CodeText.isWordChar c = false) (front : String)
    (r : ReservedType) : Category.ofType (front ++ String.singleton c ++ r.name) {} =
      .value (front ++ String.singleton c ++ r.name) := by
  have hflag : CodeText.lastSegment (front ++ String.singleton c ++ r.name) ≠ ({} : Settings).flagType :=
    lastSegment_ne_name hcolon hword front r .flag
  have hmetaFlag : CodeText.lastSegment (front ++ String.singleton c ++ r.name) ≠ ({} : Settings).metaFlagType :=
    lastSegment_ne_name hcolon hword front r .metaFlag
  rw [ofType_append, Category.ofUnwrapped, if_neg hflag, if_neg hmetaFlag]

/-- The text of a type whose tokens end in the name behind `::` ends in it as well. -/
theorem tightText_append_path {tokens : List Token} (h : ∀ p ∈ Token.pieces tokens, p.isCopied = true)
    (r : ReservedType) : Source.tightText (tokens ++ Token.operator "::" ++ [.word r.name]) =
      Source.tightText tokens ++ "::" ++ r.name := by
  have hcolon : CodeText.isWordChar ':' = false := by decide
  have hpath : ∀ p ∈ Token.pieces (Token.operator "::" ++ [.word r.name]), p.isCopied = true :=
    List.all_iff_forall_prop.mp (by cases r <;> decide)
  have hchars : (Token.pieces (Token.operator "::" ++ [.word r.name])).map Piece.chars =
      [[':'], [':'], r.name.toList] := by cases r <;> decide
  have hall : ∀ p ∈ Token.pieces (tokens ++ (Token.operator "::" ++ [.word r.name])), p.isCopied = true := by
    rw [Lexer.pieces_append]
    exact List.forall_mem_append.mpr ⟨h, hpath⟩
  rw [List.append_assoc, ← String.toList_inj, String.toList_append, String.toList_append, Source.tightText,
    Source.tightText, Token.toList_tight_textOf hall, Token.toList_tight_textOf h, Lexer.pieces_append, List.map_append,
    hchars, CodeText.glued, CodeText.gluedBehind_append_mark hcolon]
  simp [CodeText.glued, CodeText.gluedBehind, hcolon]

/-- A text is taken for a reserved type if it is a path to the type, but also if it only ends in one that has a `::`,
whatever constructors stand in front; with the bare name behind a constructor it is a value. -/
theorem ofType_eq_reserved_iff (r : ReservedType) :
    (∀ text, Category.ofType text {} = r.category ↔ r.IsPathTo text ∨ r.OnlyEndsIn text) ∧
    (∀ (front : String) (c : Char), c ≠ ':' → CodeText.isWordChar c = false →
      Category.ofType (front ++ String.singleton c ++ r.name) {} = .value (front ++ String.singleton c ++ r.name)) ∧
    ∀ tokens : List Token, (∀ p ∈ Token.pieces tokens, p.isCopied = true) →
      Category.ofType (Source.tightText (tokens ++ Token.operator "::" ++ [.word r.name])) {} = r.category := by
  refine ⟨fun text => ?_, fun front c hcolon hword => ofType_of_bare hcolon hword front r, fun tokens hcopied => ?_⟩
  · rw [ofType_eq_category_iff]
    constructor
    · intro h
      by_cases hpath : r.IsPathTo text
      · exact Or.inl hpath
      · rcases h with rfl | hends
        · exact absurd r.isPathTo_name hpath
        · exact Or.inr ⟨hends, hpath⟩
    · rintro (hpath | ⟨hends, -⟩)
      · exact hpath.ends
      · exact Or.inr hends
  · rw [tightText_append_path hcopied, ofType_eq_category_iff]
    exact Or.inr ⟨_, rfl⟩

/-- A reference to `a::Flag` is no path, but it is taken for a flag as `a::Flag` is; a reference to `Flag` is a value. A
function type with the output `a::Flag` is taken for a flag as well. -/
theorem ofType_of_reference_to_flag :
    let reference : List Token := [.mark '&' false, .word "a"]
    let function : List Token := [.word "fn", .group .parenthesis [], .mark '-' true, .mark '>' false, .word "a"]
    (Source.parse (·.anyType) (reference ++ Token.operator "::" ++ [.word "Flag"])).toOption.isSome = true ∧
      (¬flag.IsPathTo "&a::Flag" ∧ Category.ofType "&a::Flag" {} = .flag) ∧
      Category.ofType "&Flag" {} = .value "&Flag" ∧
      Category.ofType (Source.tightText (function ++ Token.operator "::" ++ [.word "Flag"])) {} = .flag := by
  intro reference function
  obtain ⟨htext, hbare, htokens⟩ := ofType_eq_reserved_iff .flag
  have hpath : ¬flag.IsPathTo "&a::Flag" := fun h => absurd (h.mem '&' (by decide)) (by decide +kernel)
  exact ⟨by decide +kernel, ⟨hpath, (htext "&a::Flag").mpr (Or.inr ⟨⟨"&a", by decide⟩, hpath⟩)⟩,
    hbare "" '&' (by decide) (by decide), htokens function (List.all_iff_forall_prop.mp (by decide))⟩

end ReservedType

end CommandBinding

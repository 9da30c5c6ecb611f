import CommandBinding.Category
import CommandBinding.Code
import CommandBinding.Proofs.NestedTokens

/-!
Which wrapped types are recognised. A type such as `path::Vec<T>` is recognised by its text, so two things can hide it:
names in front of it that are not read as a path, and brackets in the text of `T` that are not the two sides of a pair.
-/
namespace CommandBinding

namespace Lexeme

variable {text : String}

theorem not_isIdentifierContinue_of_isBlank {c : Char} (h : Unicode.isBlank c = true) :
    Unicode.isIdentifierContinue c = false := by
  have hall : ∀ n ∈ Lexer.gapCodes, Unicode.isIdentifierContinue (Char.ofNat n) = false := by decide +kernel
  have hc := hall c.toNat (Lexer.mem_gapCodes (by simp [Lexer.isGap, h]))
  rwa [Char.ofNat_toNat] at hc

/-- What a word is made of. -/
theorem mem_of_isWord (h : IsWord text) : ∀ c ∈ text.toList,
    Unicode.isIdentifierStart c = true ∨ Unicode.isIdentifierContinue c = true ∨ c = '#' := by
  have hidentifier {cs : List Char} (h : Lexer.IsIdentifier cs) :
      ∀ c ∈ cs, Unicode.isIdentifierStart c = true ∨ Unicode.isIdentifierContinue c = true ∨ c = '#' := by
    obtain ⟨c, more, rfl, hc, hmore⟩ := h
    exact List.forall_mem_cons.mpr ⟨Or.inl hc, fun d hd => Or.inr (Or.inl (hmore d hd))⟩
  rcases h with h | ⟨name, rfl, h, -⟩
  · exact hidentifier (Lexer.isIdentifier_iff.mp h)
  · have hname := hidentifier (Lexer.isIdentifier_iff.mp h)
    have hraw : ("r#" ++ name).toList = 'r' :: '#' :: name.toList := by simp
    rw [hraw]
    exact List.forall_mem_cons.mpr ⟨Or.inl (by decide), List.forall_mem_cons.mpr ⟨Or.inr (Or.inr rfl), hname⟩⟩

theorem isPlain_of_isWord (h : IsWord text) : ∀ c ∈ text.toList, CodeText.isPlain c = true ∧ c ≠ ':' ∧ c ≠ '<' := by
  intro c hc
  have houtside : ∀ d ∈ ['"', '\'', '\\', ':', '<'], d ∈ Lexer.outsideWords ∧ d ≠ '#' :=
    List.all_iff_forall_prop.mp (by decide)
  have hne : ∀ d ∈ ['"', '\'', '\\', ':', '<'], c ≠ d := by
    rintro d hd rfl
    obtain ⟨hmem, hfence⟩ := houtside c hd
    rcases mem_of_isWord h c hc with hstart | hcontinue | hhash
    · simp [Lexer.not_isIdentifierStart_of_mem hmem] at hstart
    · simp [Lexer.not_isIdentifierContinue_of_mem hmem] at hcontinue
    · exact hfence hhash
  have hblank : Unicode.isBlank c = false := by
    rw [← Bool.not_eq_true]
    intro hblank
    have hgap : Lexer.isGap c = true := by simp [Lexer.isGap, hblank]
    rcases mem_of_isWord h c hc with hstart | hcontinue | rfl
    · simp [Lexer.not_isIdentifierStart_of_isGap hgap] at hstart
    · simp [not_isIdentifierContinue_of_isBlank hblank] at hcontinue
    · exact absurd hblank (by decide)
  simp only [List.forall_mem_cons] at hne
  simp [CodeText.isPlain, hblank, hne]

theorem ne_nil_of_isWord (h : IsWord text) : text.toList ≠ [] := by
  obtain ⟨c, more, htext, -⟩ := Lexer.head_of_isWord h
  simp [htext]

end Lexeme

namespace Token

theorem textOf_colons {ts : List Token} (hne : ts ≠ []) :
    (textOf (operator "::" ++ ts)).toList = ':' :: ':' :: ' ' :: (textOf ts).toList := by
  have hcolons : operator "::" = [.mark ':' true, .mark ':' false] := by decide
  have hempty : ts.isEmpty = false := by simpa using hne
  simp [hcolons, textOf, text, isJoint, hempty]

theorem textOf_word {ts : List Token} (name : String) (hne : ts ≠ []) :
    (textOf (.word name :: ts)).toList = name.toList ++ ' ' :: (textOf ts).toList := by
  have hempty : ts.isEmpty = false := by simpa using hne
  simp [textOf, text, isJoint, hempty]

theorem textOf_append_angle (ts : List Token) :
    ∃ cs, (textOf (ts ++ [.mark '>' false])).toList = cs ++ ['>'] := by
  induction ts with
  | nil => exact ⟨[], rfl⟩
  | cons t ts ih =>
    obtain ⟨cs, hcs⟩ := ih
    exact ⟨t.text.toList ++ (if t.isJoint then "" else " ").toList ++ cs, by simp [textOf, hcs]⟩

theorem toList_tightText_append_angle (ts : List Token) : (Source.tightText (ts ++ [.mark '>' false])).toList =
    CodeText.tightFrom .code none false (textOf (ts ++ [.mark '>' false])).toList := by
  obtain ⟨cs, hcs⟩ := textOf_append_angle ts
  exact CodeText.toList_tight_of_angle hcs

end Token

/-- The types that are recognised by the name in front of their argument. -/
inductive Wrapper where
  | sequence
  | option
  | variadic
deriving DecidableEq, Repr

namespace Wrapper

def name : Wrapper → String
  | sequence => "Vec"
  | option => "Option"
  | variadic => "Variadic"

def category (element : String) : Wrapper → Category
  | sequence => .array element
  | option => .optional element
  | variadic => .variadic element

def pathTokens (path : List String) : List Token :=
  path.flatMap fun name => .word name :: Token.operator "::"

/-- A wrapped type under a path, which begins with `::` if it is `rooted`. -/
def tokens (w : Wrapper) (rooted : Bool) (path : List String) (type : List Token) : List Token :=
  (if rooted then Token.operator "::" else []) ++ pathTokens path ++
    .word w.name :: .mark '<' false :: type ++ [.mark '>' false]

variable {w : Wrapper} {rooted : Bool} {path : List String} {type : List Token} {text element : String}

theorem ofUnwrapped_ne_category : Category.ofUnwrapped text {} ≠ w.category element := by
  simp only [Category.ofUnwrapped]
  cases w <;> split_ifs <;> simp [category]

/-- A type is taken for a wrapped one exactly if its text splits into the name and the argument. -/
theorem ofType_eq_category_iff :
    Category.ofType text {} = w.category element ↔ CodeText.wrapped? text = some (w.name, element) := by
  unfold Category.ofType
  split
  · next head inner hw =>
    rw [hw]
    by_cases hvec : head = "Vec"
    · cases w <;> simp [hvec, category, name]
    · by_cases hoption : head = "Option"
      · cases w <;> simp [hoption, category, name]
      · by_cases hvariadic : head = "Variadic"
        · cases w <;> simp [hvariadic, category, name]
        · have hname : head ≠ w.name := by cases w <;> assumption
          simp [hvec, hoption, hvariadic, hname, ofUnwrapped_ne_category]
  · next hw => simp [hw, ofUnwrapped_ne_category]

/-! The text of a wrapped type. -/

/-- A path as it stands in the one spacing. -/
def pathChars (path : List String) : List Char :=
  path.flatMap fun name => name.toList ++ [':', ':']

theorem tightFrom_path (hpath : ∀ name ∈ path, Lexeme.IsWord name) (ts : List Token) (hne : ts ≠ []) :
    CodeText.tightFrom .code none false (Token.textOf (pathTokens path ++ ts)).toList =
      pathChars path ++ CodeText.tightFrom .code none false (Token.textOf ts).toList := by
  induction path with
  | nil => rfl
  | cons name path ih =>
    have hname : ∀ c ∈ name.toList, CodeText.isPlain c = true :=
      fun c hc => (Lexeme.isPlain_of_isWord (hpath name (List.mem_cons_self ..)) c hc).1
    have htokens : pathTokens (name :: path) ++ ts =
        .word name :: (Token.operator "::" ++ (pathTokens path ++ ts)) := by simp [pathTokens]
    have hmore : pathTokens path ++ ts ≠ [] := by simp [hne]
    rw [htokens, Token.textOf_word name (by simp [hne]), Token.textOf_colons hmore,
      CodeText.tightFrom_append (CodeText.isCopied_of_isPlain hname), CodeText.tightFrom_space,
      CodeText.tightFrom_colons, ih fun other hother => hpath other (List.mem_cons_of_mem _ hother)]
    simp [pathChars]

/-- The text of a wrapped type ends in the text of its argument in front of the closing bracket. -/
theorem toList_tightText (hpath : ∀ name ∈ path, Lexeme.IsWord name) :
    (Source.tightText (w.tokens rooted path type)).toList =
      (if rooted then [':', ':'] else []) ++ (pathChars path ++ (w.name.toList ++
        '<' :: (Source.tightText (type ++ [.mark '>' false])).toList)) := by
  have hname : ∀ c ∈ w.name.toList, CodeText.isPlain c = true := List.all_iff_forall_prop.mp (by cases w <;> decide)
  have hangle : CodeText.tightFrom .code none false
      (Token.textOf (.word w.name :: .mark '<' false :: (type ++ [.mark '>' false]))).toList =
        w.name.toList ++ '<' :: (Source.tightText (type ++ [.mark '>' false])).toList := by
    have htext : (Token.textOf (.mark '<' false :: (type ++ [.mark '>' false]))).toList =
        '<' :: ' ' :: (Token.textOf (type ++ [.mark '>' false])).toList := by
      simp [Token.textOf, Token.text, Token.isJoint]
    rw [Token.textOf_word _ (List.cons_ne_nil _ _), htext,
      CodeText.tightFrom_append (CodeText.isCopied_of_isPlain hname), CodeText.tightFrom_space,
      CodeText.tightFrom_mark (by decide) (by decide), CodeText.tightFrom_space, CodeText.tightFrom_of_not_word rfl,
      Token.toList_tightText_append_angle]
  have hbare := tightFrom_path hpath (.word w.name :: .mark '<' false :: (type ++ [.mark '>' false])) (by simp)
  rw [hangle] at hbare
  have htokens : w.tokens rooted path type = (if rooted then Token.operator "::" else []) ++ (pathTokens path ++
      .word w.name :: .mark '<' false :: type) ++ [.mark '>' false] := by simp [tokens]
  rw [htokens, Token.toList_tightText_append_angle, ← hbare]
  cases rooted with
  | false => simp
  | true =>
    simp only [if_true, List.append_assoc, List.cons_append]
    rw [Token.textOf_colons (by simp), CodeText.tightFrom_colons]
    simp

/-! The name in front of the argument. -/

theorem headFrom_path (hpath : ∀ name ∈ path, Lexeme.IsWord name) (rest : List Char) :
    CodeText.headFrom [] (pathChars path ++ rest) =
      if ∀ name ∈ path, CodeText.isAsciiName name = true then CodeText.headFrom [] rest else none := by
  induction path with
  | nil => simp [pathChars]
  | cons name path ih =>
    have hword := hpath name (List.mem_cons_self ..)
    have hne := Lexeme.ne_nil_of_isWord hword
    have hchars : pathChars (name :: path) ++ rest = name.toList ++ ':' :: ':' :: (pathChars path ++ rest) := by
      simp [pathChars]
    rw [hchars]
    by_cases hname : CodeText.isAsciiName name = true
    · rw [CodeText.headFrom_name (by simpa using hname), CodeText.headFrom_colons (by simpa using hne),
        ih fun other hother => hpath other (List.mem_cons_of_mem _ hother)]
      simp [hname]
    · rw [CodeText.headFrom_of_not_isAsciiName (by simpa using hname) hne
        fun c hc => (Lexeme.isPlain_of_isWord hword c hc).2]
      simp [hname]

theorem headFrom_tightText (hpath : ∀ name ∈ path, Lexeme.IsWord name) {head inner : List Char} :
    CodeText.headFrom [] (Source.tightText (w.tokens rooted path type)).toList = some (head, inner) ↔
      rooted = false ∧ (∀ name ∈ path, CodeText.isAsciiName name = true) ∧ w.name.toList = head ∧
        (Source.tightText (type ++ [.mark '>' false])).toList = inner := by
  have hname : CodeText.isAsciiName (String.ofList w.name.toList) = true := by cases w <;> decide
  have hne : w.name.toList.reverse ≠ [] := by cases w <;> decide
  rw [toList_tightText hpath]
  cases rooted with
  | true =>
    have hcolon : CodeText.startsName ':' = false := by decide
    rw [if_pos rfl, List.cons_append, CodeText.headFrom.eq_def]
    simp [hcolon]
  | false =>
    rw [if_neg Bool.false_ne_true, List.nil_append, headFrom_path hpath, CodeText.headFrom_name hname,
      CodeText.headFrom_angle hne]
    simp

/-- Which wrapped types are recognised, whatever the tokens of the argument are. Those of an argument in which no angle
bracket stands alone are recognised behind every plain path; those of an argument with an arrow are recognised behind
none, unless as many brackets that are opened alone make up for it. -/
theorem category_of_wrapped_iff (w : Wrapper) (rooted : Bool) (path : List String)
    (hpath : ∀ name ∈ path, Lexeme.IsWord name) (type : List Token) :
    (Category.ofType (Source.tightText (w.tokens rooted path type)) {} = w.category (Source.tightText type) ↔
      rooted = false ∧ (∀ name ∈ path, CodeText.isAsciiName name = true) ∧ Token.IsArgument type) ∧
    ∀ opened closed, Token.Nested false opened closed type → type ≠ [] →
      (Token.IsArgument type → opened = closed) ∧ (opened = 0 → closed = 0 → Token.IsArgument type) := by
  constructor
  · have hangle : (Source.tightText (type ++ [.mark '>' false])).toList = (Source.tightText type).toList ++ ['>'] ↔
        Source.tightText (type ++ [.mark '>' false]) = Source.tightText type ++ ">" := by
      rw [← String.toList_inj, String.toList_append]
      rfl
    rw [ofType_eq_category_iff, CodeText.wrapped?_eq_some_iff, headFrom_tightText hpath, hangle]
    constructor
    · rintro ⟨⟨hrooted, hnames, -, henclosed⟩, hinner⟩
      exact ⟨hrooted, hnames, henclosed, hinner⟩
    · rintro ⟨hrooted, hnames, henclosed, hinner⟩
      exact ⟨⟨hrooted, hnames, rfl, henclosed⟩, hinner⟩
  · intro opened closed hnested hne
    refine ⟨hnested.opened_eq_closed, ?_⟩
    rintro rfl rfl
    exact hnested.isArgument hne

/-- An option in a sequence is recognised under a path that does not begin with `::`, and a function pointer in a
sequence is not recognised, since the arrow in it counts as a bracket. -/
theorem category_of_wrapped_pointer :
    let option : List Token := [.word "Option", .mark '<' false, .word "u8", .mark '>' false]
    let pointer : List Token := [.word "fn", .group .parenthesis [], .mark '-' true, .mark '>' false, .word "u8"]
    Category.ofType (Source.tightText (sequence.tokens false ["std", "vec"] option)) {} = .array "Option<u8>" ∧
      Category.ofType (Source.tightText (sequence.tokens true ["std", "vec"] option)) {} ≠ .array "Option<u8>" ∧
      Category.ofType (Source.tightText (sequence.tokens false [] pointer)) {} ≠ .array "fn()->u8" := by
  intro option pointer
  have hpath : ∀ name ∈ ["std", "vec"], Lexeme.IsWord name := by
    simp only [List.forall_mem_cons]
    exact ⟨Or.inl (by decide +kernel), Or.inl (by decide +kernel), by simp⟩
  have hvalue {inside : Bool} : Token.Nested inside 0 0 [.word "u8"] :=
    .skip ⟨by decide, by decide, Or.inr (by decide)⟩ (List.all_iff_forall_prop.mp (by decide)) .nil
  have hoption : Token.Nested false 0 0 option :=
    .skip ⟨by decide, by decide, Or.inr (by decide)⟩ (List.all_iff_forall_prop.mp (by decide)) (.angles hvalue .nil)
  have hpointer : Token.Nested false 0 1 pointer := by
    have hangle : Token.IsQuiet false (.mark '>' false) := ⟨by decide, by decide, Or.inr (by decide)⟩
    have harrow : Token.Nested false 0 1 [.mark '-' true, .mark '>' false, .word "u8"] :=
      .skip ⟨by decide, by decide, Or.inr (by decide)⟩ (List.all_iff_forall_prop.mp (by decide)) (.quiet hangle hvalue)
    exact .skip ⟨by decide, by decide, Or.inr (by decide)⟩ (List.all_iff_forall_prop.mp (by decide))
      (.group .nil harrow)
  have hoptionText : Source.tightText option = "Option<u8>" := by decide +kernel
  have hpointerText : Source.tightText pointer = "fn()->u8" := by decide +kernel
  rw [← hoptionText, ← hpointerText]
  obtain ⟨hplain, hargument⟩ := category_of_wrapped_iff .sequence false _ hpath option
  obtain ⟨hrooted, -⟩ := category_of_wrapped_iff .sequence true _ hpath option
  obtain ⟨hfunction, hstray⟩ := category_of_wrapped_iff .sequence false [] (by simp) pointer
  refine ⟨hplain.mpr ⟨rfl, by decide, (hargument 0 0 hoption (List.cons_ne_nil _ _)).2 rfl rfl⟩, ?_, ?_⟩
  · exact fun h => absurd (hrooted.mp h).1 (by decide)
  · exact fun h => absurd ((hstray 0 1 hpointer (List.cons_ne_nil _ _)).1 (hfunction.mp h).2.2) (by decide)

end Wrapper

end CommandBinding

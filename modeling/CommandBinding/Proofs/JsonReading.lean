import CommandBinding.Data.Json.Reading
import Mathlib.Data.List.Basic
import Mathlib.Data.List.Forall2
import Mathlib.Tactic.Common

/-!
JSON text gives data back. What is read from the text of a value is that value, in which each named alternative is a record
with one field. The records in it must not repeat a field.
-/
namespace CommandBinding.Data

mutual

/-- The value as JSON has it: a named alternative is a record with one field. -/
def plain : Data → Data
  | null => null
  | bool value => bool value
  | number value => number value
  | string value => string value
  | list items => list (plainItems items)
  | record fields => record (plainFields fields)
  | variant name payload => record [(name, payload.plain)]

def plainItems : List Data → List Data
  | [] => []
  | item :: rest => item.plain :: plainItems rest

def plainFields : List (String × Data) → List (String × Data)
  | [] => []
  | (name, value) :: rest => (name, value.plain) :: plainFields rest

end

mutual

/-- No record in the value repeats a field. -/
def DistinctFields : Data → Prop
  | null | bool _ | number _ | string _ => True
  | list items => DistinctInItems items
  | record fields => (fields.map (·.1)).Nodup ∧ DistinctInFields fields
  | variant _ payload => payload.DistinctFields

def DistinctInItems : List Data → Prop
  | [] => True
  | item :: rest => item.DistinctFields ∧ DistinctInItems rest

def DistinctInFields : List (String × Data) → Prop
  | [] => True
  | (_, value) :: rest => value.DistinctFields ∧ DistinctInFields rest

end

theorem keys_plainFields (fields : List (String × Data)) : (plainFields fields).map (·.1) = fields.map (·.1) := by
  induction fields with
  | nil => rfl
  | cons field fields ih => rw [plainFields, List.map_cons, List.map_cons, ih]

namespace Json

variable {c : Char} {cs rest before blanks : List Char} {fuel level outer : Nat} {d : Data} {lines : List String}

theorem skipBlanks_append (h : ∀ c ∈ blanks, isBlank c = true) : skipBlanks (blanks ++ cs) = skipBlanks cs :=
  List.dropWhile_append_of_pos h

theorem skipBlanks_cons (h : isBlank c = false) : skipBlanks (c :: cs) = c :: cs :=
  List.dropWhile_cons_of_neg (Bool.eq_false_iff.mp h)

theorem toList_newline (level : Nat) : (newline level).toList = '\n' :: List.replicate (2 * level) ' ' := by
  simp [newline]

theorem isBlank_of_mem_newline (level : Nat) : ∀ c ∈ (newline level).toList, isBlank c = true := by
  intro c hc
  rw [toList_newline, List.mem_cons] at hc
  rcases hc with rfl | hc
  · rfl
  · rw [List.eq_of_mem_replicate hc]
    rfl

theorem hexDigit?_digitChar : ∀ n < 16, Unicode.hexDigit? (Nat.digitChar n) = some n := by
  decide

theorem codeUnit?_hexDigits {n : Nat} (h : n < 32) : ∃ a b c d, hexDigits n = [a, b, c, d] ∧ codeUnit? a b c d = some n := by
  have hdigit (k : Nat) : Unicode.hexDigit? (Nat.digitChar (k % 16)) = some (k % 16) :=
    hexDigit?_digitChar _ (Nat.mod_lt k (by decide))
  refine ⟨_, _, _, _, rfl, ?_⟩
  simp only [codeUnit?, hdigit]
  have hvalue : 4096 * (n / 4096 % 16) + 256 * (n / 256 % 16) + 16 * (n / 16 % 16) + n % 16 = n := by omega
  simp [hvalue]

theorem character?_toNat (c : Char) : Quoted.character? c.toNat = some c := by
  have hvalid : c.toNat.isValidChar := c.valid
  rw [Quoted.character?, if_pos hvalid, Char.ofNat_toNat]

theorem readText_control (h : c.toNat < 32) : readText ('\\' :: 'u' :: (hexDigits c.toNat ++ rest)) =
    (readText rest).map (withCharacter c) := by
  obtain ⟨x, y, z, w, hdigits, hunit⟩ := codeUnit?_hexDigits h
  have hplain : ¬(0xd800 ≤ c.toNat ∧ c.toNat < 0xdc00) := by omega
  rw [hdigits]
  simp only [List.cons_append, List.nil_append, readText, hunit, Option.bind_eq_bind, Option.bind_some, if_neg hplain,
    character?_toNat]

theorem readText_short {mark : Char} (hmark : escaped? mark = some c) :
    readText ('\\' :: mark :: rest) = (readText rest).map (withCharacter c) := by
  have hu : mark ≠ 'u' := by
    rintro rfl
    cases hmark
  rw [readText.eq_def]
  split
  · next heq => cases heq
  · next heq => cases heq
  · next heq => exact absurd (List.cons.inj (List.cons.inj heq).2).1 hu
  · next heq =>
    cases heq
    rw [hmark]
    rfl
  · next hbackslash heq => cases heq; exact absurd rfl (hbackslash _ _ rfl)

theorem readText_self (hquote : c ≠ '"') (hbackslash : c ≠ '\\') (h : ¬c.toNat < 32) :
    readText (c :: rest) = (readText rest).map (withCharacter c) := by
  rw [readText.eq_def]
  split
  · next heq => cases heq
  · next heq => exact absurd (List.cons.inj heq).1 hquote
  · next heq => exact absurd (List.cons.inj heq).1 hbackslash
  · next heq => exact absurd (List.cons.inj heq).1 hbackslash
  · next heq =>
    obtain ⟨rfl, rfl⟩ := List.cons.inj heq
    rw [if_neg h]

theorem eq_of_toNat {n : Nat} (h : (c.toNat == n) = true) : c = Char.ofNat n := by
  rw [← eq_of_beq h, Char.ofNat_toNat]

/-- An escaped character is read as the character. -/
theorem readText_escape (c : Char) (rest : List Char) :
    readText (escape c ++ rest) = (readText rest).map (withCharacter c) := by
  unfold escape
  split_ifs with hquote hbackslash hline hreturn htab hback hfeed hcontrol
  · rw [eq_of_beq hquote]
    exact readText_short rfl
  · rw [eq_of_beq hbackslash]
    exact readText_short rfl
  · rw [eq_of_beq hline]
    exact readText_short rfl
  · rw [eq_of_beq hreturn]
    exact readText_short rfl
  · rw [eq_of_beq htab]
    exact readText_short rfl
  · rw [eq_of_toNat hback]
    exact readText_short rfl
  · rw [eq_of_toNat hfeed]
    exact readText_short rfl
  · exact readText_control hcontrol
  · exact readText_self (by simpa using hquote) (by simpa using hbackslash) hcontrol

theorem readText_quote (text : String) (rest : List Char) :
    readText (text.toList.flatMap escape ++ '"' :: rest) = some (text.toList, rest) := by
  generalize text.toList = cs
  induction cs with
  | nil => rfl
  | cons c cs ih =>
    rw [List.flatMap_cons, List.append_assoc, readText_escape, ih]
    rfl

def StopsNumber (cs : List Char) : Prop :=
  ∀ c ∈ cs.head?, c.isDigit = false

theorem readNumber_toDigits (n : Nat) (h : StopsNumber rest) :
    readNumber (Nat.toDigits 10 n ++ rest) = some (.number n, rest) := by
  have hdigits : ∀ c ∈ Nat.toDigits 10 n, c.isDigit = true :=
    fun c hc => Nat.isDigit_of_mem_toDigits (by decide) (by decide) hc
  have hnone : rest.takeWhile Char.isDigit = [] := by
    cases rest with
    | nil => rfl
    | cons c rest => exact List.takeWhile_cons_of_neg (Bool.eq_false_iff.mp (h c rfl))
  have hrest : rest.dropWhile Char.isDigit = rest := by
    cases rest with
    | nil => rfl
    | cons c rest => exact List.dropWhile_cons_of_neg (Bool.eq_false_iff.mp (h c rfl))
  have htake : (Nat.toDigits 10 n ++ rest).takeWhile Char.isDigit = Nat.toDigits 10 n := by
    rw [List.takeWhile_append_of_pos hdigits, hnone, List.append_nil]
  have hdrop : (Nat.toDigits 10 n ++ rest).dropWhile Char.isDigit = rest := by
    rw [List.dropWhile_append_of_pos hdigits, hrest]
  simp only [readNumber, htake, hdrop, Nat.ofDigitChars_ten_toDigits, if_true]

/-- A text is read as a value wherever it stands: behind blanks, and in front of what is no part of it. -/
def ReadsAs (text : String) (d : Data) : Prop :=
  ∀ fuel before rest, text.toList.length ≤ fuel → (∀ c ∈ before, isBlank c = true) → StopsNumber rest →
    readValue fuel (before ++ (text.toList ++ rest)) = some (d, rest)

def ReadsAsField (line : String) (field : String × Data) : Prop :=
  ∃ text, line = quote field.1 ++ ": " ++ text ∧ ReadsAs text field.2

theorem stopsNumber_cons (h : c.isDigit = false) : StopsNumber (c :: cs) := by
  intro x hx
  obtain rfl : c = x := by simpa using hx
  exact h

theorem stopsNumber_newline : StopsNumber ((newline level).toList ++ cs) := by
  rw [toList_newline]
  exact stopsNumber_cons rfl

def joined (level : Nat) (lines : List String) : List Char :=
  (("," ++ newline level).intercalate lines).toList

theorem joined_cons_cons {line next : String} : joined level (line :: next :: lines) =
    line.toList ++ (',' :: ((newline level).toList ++ joined level (next :: lines))) := by
  rw [joined, joined, String.toList_intercalate, String.toList_intercalate, List.map_cons, List.map_cons,
    List.intercalate_cons_cons]
  simp

theorem joined_singleton {line : String} : joined level [line] = line.toList := by
  simp [joined]

theorem skipBlanks_newline (h : isBlank c = false) : skipBlanks ((newline level).toList ++ c :: cs) = c :: cs := by
  rw [skipBlanks_append (isBlank_of_mem_newline level), skipBlanks_cons h]

section Steps

variable {α : Type} {closing : Char} {more : Reader (List α)} {member : α} {members : List α} {item value : Data}
  {items : List Data} {name : String} {fields : List (String × Data)} {behind : List Char}

theorem readValue_succ (fuel : Nat) (cs : List Char) :
    readValue (fuel + 1) cs = valueFrom (readItems fuel) (readFields fuel) (skipBlanks cs) :=
  rfl

theorem readItems_succ (fuel : Nat) (cs : List Char) : readItems (fuel + 1) cs = (readValue fuel cs).bind fun (item, rest) =>
    membersFrom ']' (readItems fuel) item (skipBlanks rest) :=
  rfl

theorem readFields_succ (fuel : Nat) (cs : List Char) : readFields (fuel + 1) cs =
    (keyFrom (skipBlanks cs)).bind fun (name, rest) => (readValue fuel rest).bind fun (value, rest) =>
      membersFrom '\x7d' (readFields fuel) (name, value) (skipBlanks rest) :=
  rfl

theorem membersFrom_more (hmore : more rest = some (members, behind)) :
    membersFrom closing more member (skipBlanks (',' :: rest)) = some (member :: members, behind) := by
  rw [skipBlanks_cons rfl, membersFrom, if_pos rfl, hmore]
  rfl

theorem membersFrom_last (hblank : isBlank closing = false) (hcomma : closing ≠ ',') :
    membersFrom closing more member (skipBlanks ((newline level).toList ++ closing :: rest)) = some ([member], rest) := by
  rw [skipBlanks_newline hblank, membersFrom, if_neg hcomma, if_pos rfl]

theorem membersFrom_bracket :
    membersFrom ']' more member (skipBlanks ((newline level).toList ++ ']' :: rest)) = some ([member], rest) :=
  membersFrom_last rfl (by decide)

theorem membersFrom_brace :
    membersFrom '\x7d' more member (skipBlanks ((newline level).toList ++ '\x7d' :: rest)) = some ([member], rest) :=
  membersFrom_last rfl (by decide)

theorem keyFrom_cons_quote (cs : List Char) : keyFrom ('"' :: cs) =
    (readText cs).bind fun (name, rest) => colonFrom (String.ofList name) rest :=
  rfl

theorem colonFrom_colon (key : String) (cs : List Char) : colonFrom key (':' :: cs) = some (key, cs) := by
  have hcolon : skipBlanks (':' :: cs) = ':' :: cs := skipBlanks_cons rfl
  rw [colonFrom, hcolon]
  rfl

theorem keyFrom_quote (hbefore : ∀ c ∈ before, isBlank c = true) : keyFrom (skipBlanks
    (before ++ '"' :: (name.toList.flatMap escape ++ '"' :: ':' :: cs))) = some (name, cs) := by
  rw [skipBlanks_append hbefore, skipBlanks_cons rfl, keyFrom_cons_quote, readText_quote, Option.bind_some]
  simp only [colonFrom_colon, String.ofList_toList]

theorem readItems_more (hitem : readValue fuel cs = some (item, ',' :: rest))
    (hmore : readItems fuel rest = some (items, behind)) : readItems (fuel + 1) cs = some (item :: items, behind) := by
  simp only [readItems_succ, hitem, Option.bind_some, membersFrom_more hmore]

theorem readItems_last (hitem : readValue fuel cs = some (item, (newline level).toList ++ ']' :: rest)) :
    readItems (fuel + 1) cs = some ([item], rest) := by
  simp only [readItems_succ, hitem, Option.bind_some, membersFrom_bracket]

theorem readFields_more (hbefore : ∀ c ∈ before, isBlank c = true)
    (hvalue : readValue fuel (' ' :: cs) = some (value, ',' :: rest))
    (hmore : readFields fuel rest = some (fields, behind)) :
    readFields (fuel + 1) (before ++ '"' :: (name.toList.flatMap escape ++ '"' :: ':' :: ' ' :: cs)) =
      some ((name, value) :: fields, behind) := by
  simp only [readFields_succ, keyFrom_quote hbefore, Option.bind_some, hvalue, membersFrom_more hmore]

theorem readFields_last (hbefore : ∀ c ∈ before, isBlank c = true)
    (hvalue : readValue fuel (' ' :: cs) = some (value, (newline level).toList ++ '\x7d' :: rest)) :
    readFields (fuel + 1) (before ++ '"' :: (name.toList.flatMap escape ++ '"' :: ':' :: ' ' :: cs)) =
      some ([(name, value)], rest) := by
  simp only [readFields_succ, keyFrom_quote hbefore, Option.bind_some, hvalue, membersFrom_brace]

theorem readItems_bracket (h : skipBlanks cs = ']' :: rest) : readItems fuel cs = none := by
  have hnumber : readNumber (']' :: rest) = none := by simp [readNumber]
  have hvalue (fuel : Nat) : readValue fuel cs = none := by
    cases fuel with
    | zero => rfl
    | succ fuel =>
      rw [readValue_succ, h]
      exact hnumber
  cases fuel with
  | zero => rfl
  | succ fuel => rw [readItems_succ, hvalue, Option.bind_none]

theorem readFields_brace (h : skipBlanks cs = '\x7d' :: rest) : readFields fuel cs = none := by
  cases fuel with
  | zero => rfl
  | succ fuel =>
    have hkey : keyFrom ('\x7d' :: rest) = none := rfl
    rw [readFields_succ, h, hkey, Option.bind_none]

theorem readValue_list (hitems : readItems fuel cs = some (items, rest)) :
    readValue (fuel + 1) ('[' :: cs) = some (.list items, rest) := by
  have hlist : valueFrom (readItems fuel) (readFields fuel) ('[' :: cs) = listFrom (readItems fuel) cs := rfl
  rw [readValue_succ, skipBlanks_cons rfl, hlist, listFrom]
  split
  · next hclosing =>
    rw [readItems_bracket hclosing] at hitems
    cases hitems
  · rw [hitems]
    rfl

theorem readValue_record (hfields : readFields fuel cs = some (fields, rest)) (hdistinct : (fields.map (·.1)).Nodup) :
    readValue (fuel + 1) ('\x7b' :: cs) = some (.record fields, rest) := by
  have hrecord : valueFrom (readItems fuel) (readFields fuel) ('\x7b' :: cs) = recordFrom (readFields fuel) cs := rfl
  rw [readValue_succ, skipBlanks_cons rfl, hrecord, recordFrom]
  split
  · next hclosing =>
    rw [readFields_brace hclosing] at hfields
    cases hfields
  · rw [hfields]
    exact if_pos hdistinct

end Steps

theorem readItems_joined {items : List Data} (h : List.Forall₂ ReadsAs lines items) (hne : lines ≠ [])
    (hfuel : (joined level lines).length < fuel) (hbefore : ∀ c ∈ before, isBlank c = true) :
    readItems fuel (before ++ (joined level lines ++ ((newline outer).toList ++ ']' :: rest))) = some (items, rest) := by
  induction h generalizing fuel before with
  | nil => exact absurd rfl hne
  | @cons line item lines items hline hlines ih =>
    obtain ⟨fuel, rfl⟩ : ∃ k, fuel = k + 1 := ⟨fuel - 1, by omega⟩
    cases hlines with
    | nil =>
      rw [joined_singleton] at hfuel ⊢
      exact readItems_last (hline fuel before _ (by omega) hbefore stopsNumber_newline)
    | @cons next item' lines items hnext hlines =>
      rw [joined_cons_cons] at hfuel ⊢
      simp only [List.length_append, List.length_cons] at hfuel
      have hmore : readItems fuel ((newline level).toList ++ (joined level (next :: lines) ++
          ((newline outer).toList ++ ']' :: rest))) = some (item' :: items, rest) :=
        ih (List.cons_ne_nil _ _) (by omega) (isBlank_of_mem_newline level)
      simp only [List.append_assoc, List.cons_append]
      exact readItems_more (hline fuel before _ (by omega) hbefore (stopsNumber_cons rfl)) hmore

theorem readFields_joined {fields : List (String × Data)} (h : List.Forall₂ ReadsAsField lines fields) (hne : lines ≠ [])
    (hfuel : (joined level lines).length < fuel) (hbefore : ∀ c ∈ before, isBlank c = true) :
    readFields fuel (before ++ (joined level lines ++ ((newline outer).toList ++ '\x7d' :: rest))) =
      some (fields, rest) := by
  induction h generalizing fuel before with
  | nil => exact absurd rfl hne
  | @cons line field lines fields hline hlines ih =>
    obtain ⟨fuel, rfl⟩ : ∃ k, fuel = k + 1 := ⟨fuel - 1, by omega⟩
    obtain ⟨name, value⟩ := field
    obtain ⟨text, rfl, htext⟩ := hline
    have hline : (quote name ++ ": " ++ text).toList =
        '"' :: (name.toList.flatMap escape ++ '"' :: ':' :: ' ' :: text.toList) := by
      simp [quote]
    have hspace : ∀ c ∈ [' '], isBlank c = true := List.all_eq_true.mp rfl
    cases hlines with
    | nil =>
      rw [joined_singleton, hline] at hfuel ⊢
      simp only [List.length_append, List.length_cons] at hfuel
      simp only [List.append_assoc, List.cons_append]
      exact readFields_last hbefore (htext fuel [' '] _ (by omega) hspace stopsNumber_newline)
    | @cons next field lines fields hnext hlines =>
      rw [joined_cons_cons, hline] at hfuel ⊢
      simp only [List.length_append, List.length_cons] at hfuel
      have hmore : readFields fuel ((newline level).toList ++ (joined level (next :: lines) ++
          ((newline outer).toList ++ '\x7d' :: rest))) = some (field :: fields, rest) :=
        ih (List.cons_ne_nil _ _) (by omega) (isBlank_of_mem_newline level)
      simp only [List.append_assoc, List.cons_append]
      exact readFields_more hbefore (htext fuel [' '] _ (by omega) hspace (stopsNumber_cons rfl)) hmore

/-- A text that begins with a mark is read off the mark. -/
theorem readsAs_of_head {text : String} {mark : Char} {marks : List Char} (htext : text.toList = mark :: marks)
    (h : ∀ fuel rest, marks.length ≤ fuel → StopsNumber rest →
      readValue (fuel + 1) (mark :: (marks ++ rest)) = some (d, rest)) : ReadsAs text d := by
  intro fuel before rest hfuel hbefore hrest
  rw [htext] at hfuel ⊢
  rw [List.length_cons] at hfuel
  obtain ⟨fuel, rfl⟩ : ∃ k, fuel = k + 1 := ⟨fuel - 1, by omega⟩
  rw [readValue_succ, skipBlanks_append hbefore, List.cons_append, ← readValue_succ]
  exact h fuel rest (by omega) hrest

theorem toList_block {openBracket closeBracket : String} {opening closing : Char} (hopening : openBracket.toList = [opening])
    (hclosing : closeBracket.toList = [closing]) (hne : lines ≠ []) : (block openBracket closeBracket level lines).toList =
      opening :: ((newline (level + 1)).toList ++ (joined (level + 1) lines ++ ((newline level).toList ++ [closing]))) := by
  rw [block, if_neg (by simpa using hne)]
  simp [joined, hopening, hclosing]

/-- A list is read off its items. -/
theorem readsAs_list {items : List Data} (h : List.Forall₂ ReadsAs lines items) :
    ReadsAs (block "[" "]" level lines) (.list items) := by
  cases h with
  | nil =>
    have htext : (block "[" "]" level []).toList = ['[', ']'] := by simp [block]
    refine readsAs_of_head htext fun fuel rest _ _ => ?_
    rfl
  | cons hline hlines =>
    refine readsAs_of_head (toList_block rfl rfl (List.cons_ne_nil _ _)) fun fuel rest hfuel _ => readValue_list ?_
    simp only [List.length_append, List.length_cons, List.length_nil] at hfuel
    simp only [List.append_assoc, List.cons_append, List.nil_append]
    exact readItems_joined (.cons hline hlines) (List.cons_ne_nil _ _) (by omega) (isBlank_of_mem_newline _)

/-- A record is read off its fields. -/
theorem readsAs_record {fields : List (String × Data)} (h : List.Forall₂ ReadsAsField lines fields)
    (hdistinct : (fields.map (·.1)).Nodup) : ReadsAs (block "\x7b" "\x7d" level lines) (.record fields) := by
  cases h with
  | nil =>
    have htext : (block "\x7b" "\x7d" level []).toList = ['\x7b', '\x7d'] := by simp [block]
    refine readsAs_of_head htext fun fuel rest _ _ => ?_
    rfl
  | cons hline hlines =>
    refine readsAs_of_head (toList_block rfl rfl (List.cons_ne_nil _ _)) fun fuel rest hfuel _ => ?_
    refine readValue_record ?_ hdistinct
    simp only [List.length_append, List.length_cons, List.length_nil] at hfuel
    simp only [List.append_assoc, List.cons_append, List.nil_append]
    exact readFields_joined (.cons hline hlines) (List.cons_ne_nil _ _) (by omega) (isBlank_of_mem_newline _)

theorem readsAs_number (n : Nat) : ReadsAs (toString n) (.number n) := by
  have hchars : (toString n).toList = Nat.toDigits 10 n := by simp
  cases hdigits : Nat.toDigits 10 n with
  | nil => exact absurd hdigits (List.ne_nil_of_length_pos Nat.length_toDigits_pos)
  | cons digit digits =>
    have hdigit : digit.isDigit = true :=
      Nat.isDigit_of_mem_toDigits (by decide) (by decide) (hdigits ▸ List.mem_cons_self)
    have hne (mark : Char) (hmark : mark.isDigit = false) : digit ≠ mark := by
      rintro rfl
      rw [hdigit] at hmark
      cases hmark
    have hblank : isBlank digit = false := by
      simp [isBlank, hne ' ' rfl, hne '\n' rfl, hne '\r' rfl, hne '\t' rfl]
    refine readsAs_of_head (hchars.trans hdigits) fun fuel rest _ hrest => ?_
    have hread := readNumber_toDigits n hrest
    rw [hdigits] at hread
    rw [readValue_succ, skipBlanks_cons hblank]
    unfold valueFrom
    split
    · next heq => exact absurd (List.cons.inj heq).1 (hne _ rfl)
    · next heq => exact absurd (List.cons.inj heq).1 (hne _ rfl)
    · next heq => exact absurd (List.cons.inj heq).1 (hne _ rfl)
    · next heq => exact absurd (List.cons.inj heq).1 (hne _ rfl)
    · next heq => exact absurd (List.cons.inj heq).1 (hne _ rfl)
    · next heq => exact absurd (List.cons.inj heq).1 (hne _ rfl)
    · exact hread

theorem readsAs_string (text : String) : ReadsAs (quote text) (.string text) := by
  have hchars : (quote text).toList = '"' :: (text.toList.flatMap escape ++ ['"']) := by simp [quote]
  refine readsAs_of_head hchars fun fuel rest _ _ => ?_
  have hvalue (cs : List Char) : readValue (fuel + 1) ('"' :: cs) = stringFrom cs := rfl
  rw [List.append_assoc, hvalue, List.cons_append, List.nil_append, stringFrom, readText_quote]
  simp only [Option.map_some, String.ofList_toList]

theorem readsAs_null : ReadsAs "null" .null := by
  have hchars : "null".toList = ['n', 'u', 'l', 'l'] := rfl
  exact readsAs_of_head hchars fun fuel rest _ _ => rfl

theorem readsAs_bool (value : Bool) : ReadsAs (if value then "true" else "false") (.bool value) := by
  cases value with
  | false =>
    have hchars : "false".toList = ['f', 'a', 'l', 's', 'e'] := rfl
    exact readsAs_of_head hchars fun fuel rest _ _ => rfl
  | true =>
    have hchars : "true".toList = ['t', 'r', 'u', 'e'] := rfl
    exact readsAs_of_head hchars fun fuel rest _ _ => rfl

mutual

/-- The text of a value is read as the value. -/
theorem readsAs_render : ∀ (d : Data) (level : Nat), d.DistinctFields → ReadsAs (render level d) d.plain
  | .null, level, _ => by
    rw [render, plain]
    exact readsAs_null
  | .bool value, level, _ => by
    rw [render, plain]
    exact readsAs_bool value
  | .number n, level, _ => by
    rw [render, plain]
    exact readsAs_number n
  | .string text, level, _ => by
    rw [render, plain]
    exact readsAs_string text
  | .list items, level, h => by
    rw [render, plain]
    exact readsAs_list (readsAs_renderItems items (level + 1) h)
  | .record fields, level, h => by
    rw [render, plain]
    refine readsAs_record (readsAs_renderFields fields (level + 1) h.2) ?_
    rw [keys_plainFields]
    exact h.1
  | .variant name payload, level, h => by
    rw [render, plain]
    have hpayload := readsAs_render payload (level + 1) h
    exact readsAs_record (.cons ⟨_, rfl, hpayload⟩ .nil) (List.nodup_cons.mpr ⟨List.not_mem_nil, List.nodup_nil⟩)

theorem readsAs_renderItems : ∀ (items : List Data) (level : Nat), DistinctInItems items →
    List.Forall₂ ReadsAs (renderItems level items) (plainItems items)
  | [], level, _ => by
    rw [renderItems, plainItems]
    exact .nil
  | item :: rest, level, h => by
    rw [renderItems, plainItems]
    exact .cons (readsAs_render item level h.1) (readsAs_renderItems rest level h.2)

theorem readsAs_renderFields : ∀ (fields : List (String × Data)) (level : Nat), DistinctInFields fields →
    List.Forall₂ ReadsAsField (renderFields level fields) (plainFields fields)
  | [], level, _ => by
    rw [renderFields, plainFields]
    exact .nil
  | (name, value) :: rest, level, h => by
    rw [renderFields, plainFields]
    exact .cons ⟨_, rfl, readsAs_render value level h.1⟩ (readsAs_renderFields rest level h.2)

end

/-- The text of a value gives the value back. -/
theorem read?_render (level : Nat) (h : d.DistinctFields) : read? (render level d) = some d.plain := by
  have hread := readsAs_render d level h (render level d).toList.length [] [] (Nat.le_refl _) (by simp)
    (by simp [StopsNumber])
  rw [List.nil_append, List.append_nil, String.length_toList] at hread
  rw [read?, hread]
  rfl

end Json

end CommandBinding.Data

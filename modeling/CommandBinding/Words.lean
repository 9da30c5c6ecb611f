import CommandBinding.Unicode.Properties

/-!
Text cut into words at white space, and the small list functions on characters that the other modules share.
-/
namespace CommandBinding

/-- The maximal runs of non-blank characters, in order; `run` holds, reversed, the run that is being read. -/
def wordsFrom (run : List Char) : List Char → List (List Char)
  | [] => if run.isEmpty then [] else [run.reverse]
  | c :: rest =>
    if Unicode.isBlank c then
      if run.isEmpty then wordsFrom [] rest else run.reverse :: wordsFrom [] rest
    else wordsFrom (c :: run) rest

/-- The words of a text: its maximal runs of characters that are not white space. -/
def words (text : String) : List String :=
  (wordsFrom [] text.toList).map String.ofList

def trimBlanks (cs : List Char) : List Char :=
  ((cs.dropWhile Unicode.isBlank).reverse.dropWhile Unicode.isBlank).reverse

/-- Cuts `cs` around the first occurrence of `separator`. The empty separator occurs at the start of every text. -/
def cutAtFirst (separator : List Char) : List Char → Option (List Char × List Char)
  | [] => if separator.isEmpty then some ([], []) else none
  | c :: rest =>
    if separator.isPrefixOf (c :: rest) then some ([], (c :: rest).drop separator.length)
    else (cutAtFirst separator rest).map fun (head, tail) => (c :: head, tail)

/-- Nothing is lost when a text is cut: the pieces and the separator make it up. -/
theorem eq_append_of_cutAtFirst {separator cs head tail : List Char}
    (h : cutAtFirst separator cs = some (head, tail)) : cs = head ++ separator ++ tail := by
  induction cs generalizing head with
  | nil =>
    simp only [cutAtFirst, Option.ite_none_right_eq_some, Option.some.injEq, Prod.mk.injEq,
      List.isEmpty_iff] at h
    obtain ⟨rfl, rfl, rfl⟩ := h
    rfl
  | cons c rest ih =>
    simp only [cutAtFirst] at h
    split at h
    · next hp =>
      obtain ⟨t, ht⟩ := List.isPrefixOf_iff_prefix.mp hp
      simp only [Option.some.injEq, Prod.mk.injEq] at h
      obtain ⟨rfl, rfl⟩ := h
      simp [← ht]
    · obtain ⟨⟨head', tail'⟩, hr, he⟩ := Option.map_eq_some_iff.mp h
      simp only [Prod.mk.injEq] at he
      obtain ⟨rfl, rfl⟩ := he
      simp [ih hr]

/-- Puts `text` into a strictly ascending list, which stays strictly ascending: nothing changes if it is there. -/
def insertAscending (text : String) : List String → List String
  | [] => [text]
  | first :: rest =>
    if text = first then first :: rest
    else if text < first then text :: first :: rest
    else first :: insertAscending text rest

/-- The distinct members of a list in ascending code-point order. -/
def ascending (texts : List String) : List String :=
  texts.foldr insertAscending []

theorem mem_insertAscending {x text : String} {texts : List String} :
    x ∈ insertAscending text texts ↔ x = text ∨ x ∈ texts := by
  induction texts with
  | nil => simp [insertAscending]
  | cons first rest ih =>
    unfold insertAscending
    split
    · next h => subst h; simp
    · split
      · simp
      · simp only [List.mem_cons, ih]
        exact or_left_comm

theorem mem_ascending {x : String} {texts : List String} : x ∈ ascending texts ↔ x ∈ texts := by
  induction texts with
  | nil => simp [ascending]
  | cons text rest ih => simp [ascending, mem_insertAscending, ← ih]

end CommandBinding

import CommandBinding.Proofs.ParserRuns
import CommandBinding.Source.File

/-!
Runs of items. Items that are read one after another make up a file, the inside of a module, and the statements of a block,
and each of them is read as the same tree there.
-/
namespace CommandBinding.Source

open CommandBinding.Source.Parser

namespace Name

theorem ofWord?_text (name : Name) : ofWord? name.text = some name := by
  simp only [ofWord?, name.text_isName, dite_true]

theorem eq_text_of_ofWord? {word : String} {name : Name} (h : ofWord? word = some name) : word = name.text := by
  rw [ofWord?] at h
  split at h
  · exact congrArg Name.text (Option.some.inj h)
  · cases h

theorem isName_of_mem_reservedWords : ∀ word ∈ reservedWords, isName word = false := by
  decide +kernel

/-- No name is a reserved word. -/
theorem atWord_token (name : Name) (word : String) (hword : word ∈ reservedWords) (behind : List Token) :
    atWord word (name.token :: behind) = false := by
  rw [← Bool.not_eq_true]
  intro hat
  obtain ⟨rest, htokens⟩ := exists_of_atWord hat
  have htext : name.text = word := Token.word.inj (List.cons.inj htokens).1
  have hname := isName_of_mem_reservedWords word hword
  rw [← htext, name.text_isName] at hname
  cases hname

theorem atLiteral_token (name : Name) (behind : List Token) : atLiteral (name.token :: behind) = false := by
  have htrue := name.atWord_token "true" (by decide) behind
  have hfalse := name.atWord_token "false" (by decide) behind
  simp only [token, atWord] at htrue hfalse
  simp only [token, atLiteral, htrue, hfalse, Bool.or_self]

end Name

namespace Parser

variable {α : Type} {step : Parser (List α × Bool)} {found more : List α} {r s r' : Reading} {token : Token}
  {bound : List Token}

theorem run_bind {β : Type} {p : Parser α} {next : α → Parser β} {a : α} (h : p r = .ok (a, s)) :
    (p >>= next) r = next a s := by
  simp only [Bind.bind, StateT.bind, Except.bind, h]

theorem run_bind_error {β : Type} {p : Parser α} {next : α → Parser β} {e : ParseError} (h : p r = .error e) :
    (p >>= next) r = .error e := by
  simp only [Bind.bind, StateT.bind, Except.bind, h]

theorem run_pure (a : α) (r : Reading) : (pure a : Parser α) r = .ok (a, r) :=
  rfl

theorem run_remaining (r : Reading) : remaining r = .ok (r.tokens, r) :=
  rfl

theorem run_get (r : Reading) : (get : Parser Reading) r = .ok (r, r) :=
  rfl

theorem run_set (r s : Reading) : (set r : Parser PUnit) s = .ok (⟨⟩, r) :=
  rfl

theorem collectFrom_of_more (h : step r = .ok ((found, true), s)) (hmore : collectFrom step bound s = .ok (more, r')) :
    collectFrom step (token :: bound) r = .ok (found ++ more, r') := by
  rw [collectFrom, run_bind h]
  simp only [if_true]
  rw [run_bind hmore]
  rfl

theorem collectFrom_of_last (h : step r = .ok ((found, false), s)) : collectFrom step bound r = .ok (found, s) := by
  cases bound with
  | nil =>
    rw [collectFrom, run_bind h]
    rfl
  | cons token bound =>
    rw [collectFrom, run_bind h]
    rfl

/-- Nothing is read where the first test fails. -/
theorem collectWhile_of_not {goesOn : List Token → Bool} {p : Parser (List α)} (h : goesOn r.tokens = false) :
    collectWhile goesOn p r = .ok ([], r) := by
  refine collectFrom_of_last ?_
  rw [run_bind (run_remaining _), h]
  rfl

theorem run_operator_iff {text : String} {trees : Trees} : operator text r = .ok (trees, r') ↔
    ∃ rest, behindOperator? text.toList r.tokens = some rest ∧ Tree.operator text = trees ∧
      { r with tokens := rest } = r' := by
  rw [operator, run_remaining_bind_iff]
  cases behindOperator? text.toList r.tokens with
  | none =>
    constructor
    · nofun
    · rintro ⟨_, hbehind, -⟩
      cases hbehind
  | some rest =>
    have hrun : (do advance rest; return Tree.operator text : Parser Trees) r =
        .ok (Tree.operator text, { r with tokens := rest }) := rfl
    simp only [hrun, Except.ok.injEq, Prod.mk.injEq, Option.some.injEq, exists_eq_left']

/-- A group is read whatever stands behind it. -/
theorem run_within_iff {delimiter : Delimiter} {inside : Parser α} {value : α} :
    within delimiter inside r = .ok (value, r') ↔ ∃ inner s, r.tokens = .group delimiter inner :: r'.tokens ∧
      inside ⟨inner, r.leftover?⟩ = .ok (value, s) ∧
      r'.leftover? = s.leftover?.or (if s.tokens.isEmpty then none else some delimiter) := by
  obtain ⟨tokens, o⟩ := r
  constructor
  · intro hrun
    rw [within, run_bind (run_get _)] at hrun
    dsimp only at hrun
    split at hrun
    · next delimiter' inner rest =>
      split at hrun
      · next hdelimiter =>
        subst hdelimiter
        rw [run_bind (run_set _ _), run_bind_iff] at hrun
        obtain ⟨value', s, hinside, hrun⟩ := hrun
        rw [run_bind (run_get _), run_bind (run_set _ _)] at hrun
        obtain ⟨rfl, rfl⟩ := run_pure_iff.mp hrun
        exact ⟨inner, s, rfl, hinside, rfl⟩
      · exact absurd hrun run_misplaced_ne
    · exact absurd hrun run_misplaced_ne
  · rintro ⟨inner, s, htokens, hinside, hleftover⟩
    obtain ⟨rest, o'⟩ := r'
    dsimp only at htokens hinside hleftover
    subst htokens hleftover
    rw [within, run_bind (run_get _)]
    simp only [if_true]
    rw [run_bind (run_set _ _), run_bind hinside]
    rfl

/-- The inside of a group that is read to its end. -/
theorem run_within {inside : Parser α} {value : α} {delimiter : Delimiter} {inner rest : List Token}
    {leftover? leftover?' : Option Delimiter} (h : inside ⟨inner, leftover?⟩ = .ok (value, ⟨[], leftover?'⟩)) :
    within delimiter inside ⟨.group delimiter inner :: rest, leftover?⟩ = .ok (value, ⟨rest, leftover?'⟩) :=
  run_within_iff.mpr ⟨inner, _, rfl, h, by cases leftover?' <;> rfl⟩

theorem run_nameLeaf (name : Name) {behind : List Token} {leftover? : Option Delimiter} :
    nameLeaf ⟨name.token :: behind, leftover?⟩ = .ok ([.leaf name.token], ⟨behind, leftover?⟩) := by
  have hname : Parser.name ⟨name.token :: behind, leftover?⟩ = .ok (name, ⟨behind, leftover?⟩) := by
    rw [Parser.name, run_bind (run_remaining _)]
    simp only [Name.token, name.ofWord?_text]
    rfl
  rw [nameLeaf, run_bind hname]
  rfl

end Parser

theorem run_peekVisibility {r s : Reading} {trees : Trees} (h : visibility r = .ok (trees, s)) :
    peekVisibility r = .ok ((trees, s.tokens), r) := by
  rw [peekVisibility, run_bind (run_get _), run_bind h]
  rfl

variable {rec : Recur} {r s r' : Reading} {tree : Tree} {trees more : Trees}

theorem exists_mark_of_behindOperator? {c : Char} {tokens behind : List Token}
    (h : behindOperator? [c] tokens = some behind) : ∃ joint, tokens = .mark c joint :: behind := by
  cases tokens with
  | nil => cases h
  | cons token tokens =>
    cases token with
    | mark d joint =>
      obtain ⟨rfl, rfl⟩ : c = d ∧ tokens = behind := by simpa [behindOperator?] using h
      exact ⟨joint, rfl⟩
    | _ => cases h

theorem exists_mark_of_atOperator {c : Char} {text : String} {tokens : List Token} (htext : text.toList = [c])
    (h : atOperator text tokens = true) : ∃ joint behind, tokens = .mark c joint :: behind := by
  rw [atOperator, htext] at h
  obtain ⟨behind, h⟩ := Option.isSome_iff_exists.mp h
  obtain ⟨joint, htokens⟩ := exists_mark_of_behindOperator? h
  exact ⟨joint, behind, htokens⟩

namespace Recur

/-- An attribute of what encloses an item is not read as one of the item. -/
theorem not_inner_of_outerAttributes (h : rec.outerAttributes r = .ok (trees, s)) :
    (atOperator "#" r.tokens && atOperator "!" (r.tokens.drop 1)) = false := by
  rw [← Bool.not_eq_true, Bool.and_eq_true]
  rintro ⟨hsharp, hbang⟩
  obtain ⟨tokens, leftover?⟩ := r
  obtain ⟨joint, behind, rfl⟩ := exists_mark_of_atOperator rfl hsharp
  obtain ⟨joint', behind, rfl⟩ := exists_mark_of_atOperator rfl hbang
  cases h

theorem not_inner_of_item {depth : Nat} (h : grammar depth .item r = .ok (tree, s)) :
    (atOperator "#" r.tokens && atOperator "!" (r.tokens.drop 1)) = false := by
  cases depth with
  | zero => cases h
  | succ depth =>
    obtain ⟨attributes, s, hattributes, -⟩ := run_bind_iff.mp (run_remaining_bind_iff.mp h)
    exact not_inner_of_outerAttributes hattributes

/-- An item stands in front that is one in a block, too: the call of a macro that defines no name is a statement there. -/
def BeginsItem (rec : Recur) (r : Reading) : Prop :=
  ∃ attributes s found, rec.outerAttributes r = .ok (attributes, s) ∧ macroStart s = .ok (found, s) ∧
    (found = .item ∨ found = .none ∧ atItem s.tokens = true)

theorem BeginsItem.not_atSemicolon (h : rec.BeginsItem r) : atOperator ";" r.tokens = false := by
  obtain ⟨attributes, s, found, hattributes, hmacro, hfound⟩ := h
  rw [← Bool.not_eq_true]
  intro hsemicolon
  obtain ⟨tokens, leftover?⟩ := r
  have htext : ";".toList = [';'] := rfl
  obtain ⟨joint, behind, rfl⟩ := exists_mark_of_atOperator htext hsemicolon
  have hnone : rec.outerAttributes ⟨.mark ';' joint :: behind, leftover?⟩ =
      .ok ([], ⟨.mark ';' joint :: behind, leftover?⟩) := collectWhile_of_not rfl
  rw [hnone] at hattributes
  obtain ⟨-, rfl⟩ := Prod.mk.inj (Except.ok.inj hattributes)
  have hstart : macroStart ⟨.mark ';' joint :: behind, leftover?⟩ =
      .ok (.none, ⟨.mark ';' joint :: behind, leftover?⟩) := rfl
  rw [hstart] at hmacro
  obtain ⟨rfl, -⟩ := Prod.mk.inj (Except.ok.inj hmacro)
  simp [atItem, atOneOf, atWord] at hfound

end Recur

namespace Recur

/-- All of a module is read that stands in front of its braces. -/
def ReadsModuleHead (rec : Recur) (r : Reading) (front : Trees) (braces : Reading) : Prop :=
  ∃ (attributes : Trees) (s : Reading) (visible : Trees) (name : Name), rec.outerAttributes r = .ok (attributes, s) ∧
    visibility s = .ok (visible, ⟨.word "mod" :: name.token :: braces.tokens, braces.leftover?⟩) ∧
    front = attributes ++ (visible ++ [Tree.word "mod", .leaf name.token])

def ReadsFunctionHead (rec : Recur) (r : Reading) (f : FunctionItem) (front : Trees) (braces : Reading) : Prop :=
  ∃ (attributes : Trees) (s : Reading) (visible : Trees) (s' : Reading) (inside : Trees),
    rec.outerAttributes r = .ok (attributes, s) ∧ visibility s = .ok (visible, s') ∧ atSignature s'.tokens = true ∧
    rec.signature s' = .ok ((f.signature, inside), braces) ∧ f.attributes = Attribute.ofTrees attributes ∧
    f.visibility = Tree.tokensOf visible ∧ f.defaultness = [] ∧ front = attributes ++ inside

end Recur

/-- Items that are read one after another, from places where `begins` holds. Each of them takes a token at least. -/
inductive ReadsItems (rec : Recur) (begins : Reading → Prop) : Reading → Trees → Reading → Prop
  | nil (r : Reading) : ReadsItems rec begins r [] r
  | cons {r s r' : Reading} {tree : Tree} {trees : Trees} : begins r → rec .item r = .ok (tree, s) →
      s.tokens.length < r.tokens.length → ReadsItems rec begins s trees r' → ReadsItems rec begins r (tree :: trees) r'

namespace ReadsItems

variable {begins : Reading → Prop} {depth : Nat}

theorem append (h : ReadsItems rec begins r trees s) (hmore : ReadsItems rec begins s more r') :
    ReadsItems rec begins r (trees ++ more) r' := by
  induction h with
  | nil r => exact hmore
  | cons hbegins hitem hshorter _ ih => exact .cons hbegins hitem hshorter (ih hmore)

theorem eq_nil_of_no_tokens (h : ReadsItems rec begins r trees r') (htokens : r.tokens = []) : trees = [] ∧ r = r' := by
  cases h with
  | nil => exact ⟨rfl, rfl⟩
  | cons _ _ hshorter _ =>
    rw [htokens] at hshorter
    exact absurd hshorter (Nat.not_lt_zero _)

theorem innerAttributes (h : ReadsItems (grammar depth) begins r trees r') (hend : r'.tokens = []) (outside : Recur) :
    outside.innerAttributes r = .ok ([], r) := by
  refine collectWhile_of_not ?_
  cases h with
  | nil =>
    rw [hend]
    rfl
  | cons _ hitem => exact Recur.not_inner_of_item hitem

/-- A step that reads one item, and stops at the end at the latest, collects all of them. -/
theorem collect {step : Parser (Trees × Bool)} (h : ReadsItems rec begins r trees r') (hend : r'.tokens = [])
    (hstop : ∀ r : Reading, r.tokens = [] → step r = .ok (([], false), r))
    (hstep : ∀ (r s : Reading) (tree : Tree), begins r → rec .item r = .ok (tree, s) → r.tokens ≠ [] →
      ∃ goesOn, step r = .ok (([tree], goesOn), s) ∧ (goesOn = false → s.tokens = [])) :
    Parser.collect step r = .ok (trees, r') := by
  have hfrom : ∀ bound : List Token, r.tokens.length ≤ bound.length → collectFrom step bound r = .ok (trees, r') := by
    induction h with
    | nil r => exact fun bound _ => collectFrom_of_last (hstop r hend)
    | @cons r s r' tree trees hbegins hitem hshorter hrest ih =>
      intro bound hbound
      have hne : r.tokens ≠ [] := by
        intro hnil
        rw [hnil] at hshorter
        exact Nat.not_lt_zero _ hshorter
      obtain ⟨goesOn, hrun, hlast⟩ := hstep r s tree hbegins hitem hne
      cases goesOn with
      | false =>
        obtain ⟨rfl, rfl⟩ := hrest.eq_nil_of_no_tokens (hlast rfl)
        exact collectFrom_of_last hrun
      | true =>
        cases bound with
        | nil =>
          rw [List.length_nil] at hbound
          omega
        | cons token bound =>
          have hmore := ih hend bound (by rw [List.length_cons] at hbound; omega)
          rw [collectFrom_of_more hrun hmore]
          rfl
  exact hfrom r.tokens (Nat.le_refl _)

theorem items (h : ReadsItems rec begins r trees r') (hend : r'.tokens = []) :
    toEnd (do return [← rec .item]) r = .ok (trees, r') := by
  refine h.collect hend (fun r hnil => ?_) fun r s tree _ hitem hne => ⟨true, ?_, fun h => by cases h⟩
  · rw [run_bind (run_remaining r), hnil]
    rfl
  · have hread : (do return [← rec .item] : Parser Trees) r = .ok ([tree], s) := by
      rw [run_bind hitem]
      rfl
    rw [run_bind (run_remaining r), if_pos (by simpa using hne), run_bind hread]
    rfl

/-- The items of a file. -/
theorem file (h : ReadsItems (grammar depth) begins r trees r') (hend : r'.tokens = []) :
    (grammar depth).file r = .ok (trees, r') := by
  rw [Recur.file, run_bind (h.innerAttributes hend _), run_bind (h.items hend)]
  rfl

end ReadsItems

/-- An item is read as a statement as it stands, and needs no semicolon behind it. -/
theorem Recur.BeginsItem.statement (h : rec.BeginsItem r) (hitem : rec .item r = .ok (tree, s)) :
    rec.statement r = .ok ((tree, false), s) := by
  obtain ⟨attributes, s', found, hattributes, hmacro, hfound⟩ := h
  have hbehind : (do set r; return (← rec .item, false) : Parser (Tree × Bool)) s' = .ok ((tree, false), s) := by
    rw [run_bind (run_set _ _), run_bind hitem]
    rfl
  rw [Recur.statement, run_bind (run_get _), run_bind hattributes, run_bind (run_remaining _), run_bind hmacro]
  have hlet : atWord "let" s'.tokens = false := by
    rw [← Bool.not_eq_true]
    intro hlet
    obtain ⟨tokens, leftover?⟩ := s'
    obtain ⟨behind, rfl⟩ := exists_of_atWord hlet
    have hstart : macroStart ⟨.word "let" :: behind, leftover?⟩ = .ok (.none, ⟨.word "let" :: behind, leftover?⟩) := rfl
    rw [hstart] at hmacro
    obtain ⟨rfl, -⟩ := Prod.mk.inj (Except.ok.inj hmacro)
    simp [atItem, atOneOf, atWord] at hfound
  obtain rfl | ⟨rfl, hat⟩ := hfound
  · simpa only [hlet, Bool.or_true, if_true, Bool.false_eq_true, if_false] using hbehind
  · simpa only [hlet, hat, Bool.true_or, if_true, Bool.false_eq_true, if_false] using hbehind

namespace ReadsItems

variable {begins : Reading → Prop} {depth : Nat} {inner rest : List Token} {l l' : Option Delimiter} {items : Trees}

/-- The statements of a block. -/
theorem statements (h : ReadsItems rec rec.BeginsItem r trees r') (hend : r'.tokens = []) :
    rec.statements r = .ok (Tree.part trees, r') := by
  rw [Recur.statements, run_bind (h.collect hend (fun r hnil => ?_) fun r s tree hbegins hitem hne => ?_)]
  · rfl
  · have hempty : collectWhile (atOperator ";") (operator ";") r = .ok ([], r) :=
      collectWhile_of_not (by rw [hnil]; rfl)
    rw [run_bind hempty, run_bind (run_remaining r), hnil]
    rfl
  · have hempty : collectWhile (atOperator ";") (operator ";") r = .ok ([], r) :=
      collectWhile_of_not hbegins.not_atSemicolon
    rw [run_bind hempty, run_bind (run_remaining r), List.isEmpty_eq_false_iff.mpr hne]
    simp only [Bool.false_eq_true, if_false]
    rw [run_bind (hbegins.statement hitem), run_bind (run_remaining s)]
    cases htokens : s.tokens with
    | nil => exact ⟨false, rfl, fun _ => rfl⟩
    | cons token tokens => exact ⟨true, rfl, fun h => by cases h⟩

/-- A module is read as its head and its items. -/
theorem module {front : Trees} (h : ReadsItems (grammar depth) begins ⟨inner, l⟩ items ⟨[], l'⟩)
    (hhead : (grammar depth).ReadsModuleHead r front ⟨.group .brace inner :: rest, l⟩) :
    (grammar depth).item r = .ok (.node .item (front ++ [.group .brace items]), ⟨rest, l'⟩) := by
  obtain ⟨attributes, s, visible, name, houter, hvisible, rfl⟩ := hhead
  have hunsafe : optionalWord "unsafe" ⟨.word "mod" :: name.token :: .group .brace inner :: rest, l⟩ =
      .ok ([], ⟨.word "mod" :: name.token :: .group .brace inner :: rest, l⟩) := rfl
  have hword : word "mod" ⟨.word "mod" :: name.token :: .group .brace inner :: rest, l⟩ =
      .ok ([Tree.word "mod"], ⟨name.token :: .group .brace inner :: rest, l⟩) := rfl
  have hsemicolon : atOperator ";" (.group .brace inner :: rest) = false := rfl
  have hbraced : (grammar depth).bracedItems (grammar depth .item) ⟨.group .brace inner :: rest, l⟩ =
      .ok (([], items), ⟨rest, l'⟩) := by
    refine run_within ?_
    rw [run_bind (h.innerAttributes rfl _), run_bind (h.items rfl)]
    rfl
  have hmodule : (grammar depth).module s =
      .ok (visible ++ [Tree.word "mod", .leaf name.token] ++ [.group .brace items], ⟨rest, l'⟩) := by
    rw [Recur.module, run_bind hvisible, run_bind hunsafe, run_bind hword, run_bind (run_remaining _),
      name.atWord_token "try" (by decide)]
    simp only [Bool.false_eq_true, if_false]
    rw [run_bind (run_nameLeaf name), run_bind (run_remaining _), hsemicolon]
    simp only [Bool.false_eq_true, if_false]
    rw [run_bind hbraced, run_pure]
    simp
  have hbehind : (grammar depth).itemBehind r.tokens attributes (!visible.isEmpty)
      (.word "mod" :: name.token :: .group .brace inner :: rest) =
        (do return .node .item (attributes ++ (← (grammar depth).module))) := by
    simp [Recur.itemBehind, atSignature, dropWord, atWord]
  rw [Recur.item, run_bind (run_remaining r), run_bind houter, run_bind (run_peekVisibility hvisible)]
  simp only [hbehind]
  rw [run_bind hmodule, List.append_assoc attributes]
  rfl

/-- A function is read as its head and the items in its body. -/
theorem function {f : FunctionItem} {front : Trees}
    (h : ReadsItems (grammar depth) (grammar depth).BeginsItem ⟨inner, l⟩ items ⟨[], l'⟩)
    (hhead : (grammar (depth + 1)).ReadsFunctionHead r f front ⟨.group .brace inner :: rest, l⟩) :
    (grammar (depth + 1)).item r =
      .ok (.function { f with body := Tree.tokensOf items } (front ++ [Tree.part items]), ⟨rest, l'⟩) := by
  obtain ⟨attributes, s, visible, s', inside, houter, hvisible, hat, hsignature, hattributes, hvisibility, hdefaultness,
    rfl⟩ := hhead
  have hsemicolon : atOperator ";" (.group .brace inner :: rest) = false := rfl
  have hstatements : grammar (depth + 1) .statements ⟨inner, l⟩ = .ok (Tree.part items, ⟨[], l'⟩) := h.statements rfl
  have hblock : (grammar (depth + 1)).blockInside ⟨.group .brace inner :: rest, l⟩ =
      .ok (([], Tree.part items), ⟨rest, l'⟩) := by
    refine run_within ?_
    rw [run_bind (h.innerAttributes rfl _), run_bind hstatements]
    rfl
  have hrest : (grammar (depth + 1)).restOfFunction attributes visible [] f.signature inside
      ⟨.group .brace inner :: rest, l⟩ = .ok (({ f with body := Tree.tokensOf items },
        attributes ++ inside ++ [Tree.part items]), ⟨rest, l'⟩) := by
    rw [Recur.restOfFunction, run_bind hblock]
    simp only [run_pure]
    simp [Tree.part, Tree.tokens, Tree.tokensOf, hattributes, hvisibility, hdefaultness]
  have hbehind : (grammar (depth + 1)).itemBehind r.tokens attributes (!visible.isEmpty) s'.tokens =
      (do (grammar (depth + 1)).functionOrSignature r.tokens attributes (← visibility) []) := by
    rw [Recur.itemBehind]
    simp only [hat, if_true]
  rw [Recur.item, run_bind (run_remaining r), run_bind houter, run_bind (run_peekVisibility hvisible)]
  simp only [hbehind]
  rw [run_bind hvisible, Recur.functionOrSignature, run_bind hsignature]
  simp only
  rw [run_bind (run_remaining _), hsemicolon]
  simp only [Bool.false_eq_true, if_false]
  rw [run_bind hrest]
  rfl

end ReadsItems

end CommandBinding.Source

import CommandBinding.Code
import CommandBinding.Proofs.DeclaredInputs
import CommandBinding.Proofs.GluedLexemes
import CommandBinding.Proofs.LexemeReading
import CommandBinding.Source.Declaration

/-!
Default expressions are kept as texts and read again where a peer is generated. The text is the one spacing of the
tokens of the expression. Reading it gives the same lexemes exactly if it spells them; and where the literals among
the tokens end for the one spacing where they end for the reader of tokens, the text is the characters of the tokens
with a space between two of them exactly where two word characters face each other.
-/
namespace CommandBinding

open Lexeme

theorem count_withoutByteOrder (cs : List Char) : (Token.withoutByteOrder cs).count '/' = cs.count '/' := by
  unfold Token.withoutByteOrder
  split
  · simp
  · rfl

namespace Source

/-- A default is kept as the text of its tokens. -/
theorem declared_default? (name : Name) (type : List Token) {options : ParameterOptions} {tree : Tree}
    (h : options.default? = some tree) : (TypedInput.declared name type options).default? =
      some (CodeText.tight (CodeText.tight (Token.textOf tree.tokens))) := by
  have htokens : Tree.textOf [tree] = Token.textOf tree.tokens := by simp [Tree.textOf, Tree.tokensOf]
  rw [TypedInput.declared_default?, h, Option.map_some, htokens]

theorem slashes_default (tokens : List Token) :
    (Token.withoutByteOrder (CodeText.tight (CodeText.tight (Token.textOf tokens))).toList).count '/' =
      Piece.slashes (Token.pieces tokens) := by
  have hblank : Unicode.isBlank '/' = false := by decide
  rw [count_withoutByteOrder, CodeText.count_tight _ hblank, CodeText.count_tight _ hblank, Token.count_textOf]

/-- The kept text of a default all of whose pieces are chunks of its text. -/
theorem toList_default {tokens : List Token} (h : Piece.AreCopied (Token.pieces tokens)) :
    (CodeText.tight (CodeText.tight (Token.textOf tokens))).toList =
      CodeText.glued ((Token.pieces tokens).map Piece.chars) := by
  have hglued := Token.toList_tight_textOf h.1
  rw [CodeText.tight_of_glued (Piece.copiesGlued_chars h) hglued, hglued]

/-- A default is read again as the lexemes of its expression exactly if the kept text spells them; and where the one
spacing takes every piece of the expression for a chunk, exactly if the lexemes stand apart when they are glued. -/
theorem declared_default_is_read_iff {input : TypedInput} {name : Name} {options : ParameterOptions} {tree : Tree}
    (hname : input.name? = some name) (hoptions : ParameterOptions.ofAttributes input.attributes = .ok options)
    (hdefault : options.default? = some tree) :
    ∃ p text, input.declare = .ok p ∧ p.default? = some text ∧
      text = CodeText.tight (CodeText.tight (Token.textOf tree.tokens)) ∧
      (Token.IsReadAs text tree.tokens ↔
        Spells (ofTokens tree.tokens) (Token.withoutByteOrder text.toList)) ∧
      (Piece.AreCopied (Token.pieces tree.tokens) →
        (Token.IsReadAs text tree.tokens ↔ StandApart (ofTokens tree.tokens))) := by
  have hdeclare : input.declare = .ok (TypedInput.declared name input.type options) := by
    rw [TypedInput.declare, hname, hoptions]
  have hread := Token.isReadAs_iff_spells (slashes_default tree.tokens)
  refine ⟨_, _, hdeclare, declared_default? name input.type hdefault, rfl, hread, fun hcopied => hread.trans ?_⟩
  rw [toList_default hcopied]
  exact spells_glued_iff hcopied.1

def withDefaultCode (tokens : List Token) : TypedInput where
  attributes := [⟨false, [.word "arg"], .arguments .parenthesis (code "default =" ++ tokens)⟩]
  pattern := [.word "x"]
  name? := some ⟨"x", by decide +kernel⟩
  type := [.word "bool"]

/-- The default `a & &b` is kept as `a&&b`, which is read again as another operation. -/
theorem default_of_repeated_sign_is_not_read : ∃ p, (withDefaultCode (code "a & & b")).declare = .ok p ∧
    p.default? = some "a&&b" ∧ ¬Token.IsReadAs "a&&b" (code "a & & b") ∧ ¬StandApart (ofTokens (code "a & & b")) := by
  have htree : ((ParameterOptions.ofAttributes (withDefaultCode (code "a & & b")).attributes).toOption.bind
      (·.default?)).map Tree.tokens = some (code "a & & b") := by decide +kernel
  have htext : ((withDefaultCode (code "a & & b")).declare.toOption.bind (·.default?)) = some "a&&b" := by
    decide +kernel
  obtain ⟨tree, hdefault, htokens⟩ := Option.map_eq_some_iff.mp htree
  obtain ⟨options, hoptions, hdefault⟩ := Option.bind_eq_some_iff.mp hdefault
  have hoptions : ParameterOptions.ofAttributes (withDefaultCode (code "a & & b")).attributes = .ok options := by
    cases h : ParameterOptions.ofAttributes (withDefaultCode (code "a & & b")).attributes with
    | error e => simp [h, Except.toOption] at hoptions
    | ok found => simpa [h, Except.toOption] using hoptions
  obtain ⟨p, text, hp, hkept, -, -, hapart⟩ := declared_default_is_read_iff rfl hoptions hdefault
  rw [htokens] at hapart
  have htext : text = "a&&b" := by
    rw [hp] at htext
    exact Option.some.inj (hkept.symm.trans htext)
  have hcopied : Piece.AreCopied (Token.pieces (code "a & & b")) := by
    have hpieces : Token.pieces (code "a & & b") =
        [.other (.word "a"), .mark '&' false, .mark '&' false, .other (.word "b")] := by decide +kernel
    rw [hpieces]
    exact ⟨by decide +kernel, by simp [Piece.MayFollow]⟩
  have hother : ¬Token.IsReadAs "a&&b" (code "a & & b") := by
    rintro ⟨us, hread, hlexemes⟩
    have hus : Token.ofText? "a&&b" = some [.word "a", .mark '&' true, .mark '&' false, .word "b"] := by decide +kernel
    obtain rfl := Option.some.inj (hus.symm.trans hread)
    exact absurd hlexemes (by decide +kernel)
  subst htext
  exact ⟨p, hp, hkept, hother, fun h => hother ((hapart hcopied).mpr h)⟩

end Source

end CommandBinding

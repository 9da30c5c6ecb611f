import CommandBinding.Source.Parser
import Mathlib.Tactic.Common

/-!
Runs of parsers. A run of a sequence is a run of its first step and then one of the rest, so what a parser has read is found
by going through its steps; each basic parser says what it takes from the front of the tokens.
-/
namespace CommandBinding.Source.Parser

variable {α β : Type} {p : Parser α} {step : α → Parser β} {r r' : Reading} {a a' : α} {b : β} {trees : Trees}

theorem exists_of_atWord {word : String} {tokens : List Token} (h : atWord word tokens = true) :
    ∃ behind, tokens = .word word :: behind := by
  cases tokens with
  | nil => cases h
  | cons token behind =>
    cases token with
    | word other =>
      obtain rfl : other = word := by simpa [atWord] using h
      exact ⟨behind, rfl⟩
    | _ => cases h

theorem run_bind_iff : (p >>= step) r = .ok (b, r') ↔ ∃ a s, p r = .ok (a, s) ∧ step a s = .ok (b, r') := by
  simp only [Bind.bind, StateT.bind, Except.bind]
  cases hp : p r with
  | error e => simp
  | ok result =>
    obtain ⟨a, s⟩ := result
    simp

theorem run_pure_iff : (pure a : Parser α) r = .ok (a', r') ↔ a = a' ∧ r = r' := by
  have hrun : (pure a : Parser α) r = .ok (a, r) := rfl
  rw [hrun, Except.ok.injEq, Prod.mk.injEq]

theorem run_remaining_iff {tokens : List Token} : remaining r = .ok (tokens, r') ↔ r.tokens = tokens ∧ r = r' := by
  have hrun : remaining r = .ok (r.tokens, r) := rfl
  rw [hrun, Except.ok.injEq, Prod.mk.injEq]

theorem run_remaining_bind_iff {step : List Token → Parser β} :
    (remaining >>= step) r = .ok (b, r') ↔ step r.tokens r = .ok (b, r') := by
  simp only [run_bind_iff, run_remaining_iff]
  constructor
  · rintro ⟨_, _, ⟨rfl, rfl⟩, h⟩
    exact h
  · exact fun h => ⟨_, _, ⟨rfl, rfl⟩, h⟩

theorem run_misplaced_ne {text : String} : (misplaced text : Parser α) r ≠ .ok (a, r') := by
  have hrun : (misplaced text : Parser α) r = .error (.misplaced text r.tokens.isEmpty) := rfl
  rw [hrun]
  exact fun h => by cases h

theorem run_anyToken_iff : anyToken r = .ok (trees, r') ↔
    ∃ token rest, r.tokens = token :: rest ∧ [.leaf token] = trees ∧ { r with tokens := rest } = r' := by
  obtain ⟨tokens, leftover?⟩ := r
  cases tokens with
  | nil =>
    have hrun : anyToken ⟨[], leftover?⟩ = .error (.misplaced "expected token" true) := rfl
    simp [hrun]
  | cons token rest =>
    have hrun : anyToken ⟨token :: rest, leftover?⟩ = .ok ([.leaf token], ⟨rest, leftover?⟩) := rfl
    simp [hrun]

theorem eq_word_of_run_anyToken {word : String} (hat : atWord word r.tokens = true) (h : anyToken r = .ok (trees, r')) :
    trees = [.leaf (.word word)] := by
  obtain ⟨token, rest, htokens, rfl, -⟩ := run_anyToken_iff.mp h
  obtain ⟨behind, hword⟩ := exists_of_atWord hat
  rw [htokens] at hword
  rw [(List.cons.inj hword).1]

theorem eq_literal_of_run_anyToken (hat : atString r.tokens = true) (h : anyToken r = .ok (trees, r')) :
    ∃ text, trees = [.leaf (.literal text)] := by
  obtain ⟨token, rest, htokens, rfl, -⟩ := run_anyToken_iff.mp h
  rw [htokens] at hat
  cases token with
  | literal text => exact ⟨text, rfl⟩
  | _ => cases hat

theorem eq_group_of_run {delimiter : Delimiter} {inside : Parser Trees} (h : group delimiter inside r = .ok (trees, r')) :
    ∃ inner, trees = [.group delimiter inner] := by
  rw [group, run_bind_iff] at h
  obtain ⟨inner, s, -, h⟩ := h
  exact ⟨inner, (run_pure_iff.mp h).1.symm⟩

theorem eq_group_of_run_anyGroup (h : anyGroup r = .ok (trees, r')) :
    ∃ delimiter inner, trees = [.leaf (.group delimiter inner)] := by
  rw [anyGroup, run_remaining_bind_iff] at h
  split at h
  · next hat =>
    obtain ⟨token, rest, htokens, rfl, -⟩ := run_anyToken_iff.mp h
    rw [htokens] at hat
    cases token with
    | group delimiter inner => exact ⟨delimiter, inner, rfl⟩
    | _ => cases hat
  · exact absurd h run_misplaced_ne

end CommandBinding.Source.Parser

import CommandBinding.Peer.Code
import CommandBinding.Source.Name
import Mathlib.Data.List.Nodup
import Mathlib.Tactic.Common

/-!
The statements of a peer in front of its call of the work function, and its parameters. The statements are those that
set up the reading of the arguments, and then one for each local; all of them bind a name for what stands behind. Names
are compared as identifiers, so the raw form of a name is that name.
-/
namespace CommandBinding

open Source (Name unraw)

/-- A statement `let name: type = value;`; the type goes with its colon, and may be missing. -/
structure LetStatement where
  name : String
  type : List Token
  value : List Token

namespace LetStatement

def tokens (s : LetStatement) : List Token :=
  code "let" ++ .word s.name :: s.type ++ code "=" ++ s.value ++ code ";"

def binds (s : LetStatement) (identifier : String) : Bool :=
  identifier == unraw s.name

/-- What an identifier stands for behind some statements: what the last of them that binds it gives. -/
def last? (before : List LetStatement) (identifier : String) : Option LetStatement :=
  (before.filter (·.binds identifier)).getLast?

end LetStatement

def Local.statement (l : Local) : LetStatement :=
  ⟨l.name.text, [], l.source.tokens⟩

theorem Local.tokens_eq_statement (l : Local) : l.tokens = l.statement.tokens := by
  simp only [tokens, LetStatement.tokens, statement, Name.token, List.append_assoc, List.cons_append, List.nil_append]

theorem Local.binds_statement (l : Local) (identifier : String) :
    l.statement.binds identifier = (identifier == l.name.plain) := rfl

namespace ArgumentReading

def configurationStatement (frame : PeerFrame) (r : ArgumentReading) : LetStatement :=
  ⟨"__config", [], configurationCode frame r.configuration⟩

def valuesStatement (frame : PeerFrame) (r : ArgumentReading) : LetStatement :=
  ⟨"__values", [], frame.inRuntime "parse_arguments" ++ inParentheses (code "& __config , :: std :: vec !" ++
    inBrackets (withCommas (r.labels.map (labelCode frame))) ++ code ", __args") ++ code "?"⟩

/-- The statements of a reading. -/
def statements (frame : PeerFrame) (r : ArgumentReading) : List LetStatement :=
  [r.configurationStatement frame, r.valuesStatement frame] ++ r.locals.map Local.statement

theorem tokens_eq_statements (frame : PeerFrame) (r : ArgumentReading) :
    r.tokens frame = (r.statements frame).flatMap LetStatement.tokens := by
  have hlocals : r.locals.flatMap Local.tokens = (r.locals.map Local.statement).flatMap LetStatement.tokens := by
    rw [List.flatMap_map]
    exact List.flatMap_congr fun l _ => l.tokens_eq_statement
  have hconfig : code "let __config =" = code "let" ++ .word "__config" :: code "=" := by decide +kernel
  have hvalues : code "let __values =" = code "let" ++ .word "__values" :: code "=" := by decide +kernel
  have hend : code "? ;" = code "?" ++ code ";" := by decide +kernel
  simp only [tokens, statements, hlocals, hconfig, hvalues, hend, configurationStatement, valuesStatement,
    LetStatement.tokens, List.flatMap_cons, List.append_assoc, List.cons_append, List.nil_append]

end ArgumentReading

structure PeerParameter where
  name : String
  type : List Token

namespace PeerParameter

def tokens (p : PeerParameter) : List Token :=
  .word p.name :: code ":" ++ p.type ++ code ","

end PeerParameter

namespace Peer

/-- The statements in which a program takes its arguments from its environment. -/
def environmentStatements : List LetStatement :=
  [⟨"__args", code ": :: std :: vec :: Vec < :: std :: string :: String >", code ":: std :: env :: args" ++
      inParentheses [] ++ code ". skip" ++ inParentheses (code "1") ++ code ". collect" ++ inParentheses []⟩,
    ⟨"__args", [], code "__args . as_slice" ++ inParentheses []⟩]

/-- The statements in front of the call of the work function, in the order in which they run. -/
def statements (p : Peer) : List LetStatement :=
  match p.role with
  | .main reading _ => environmentStatements ++ reading.statements p.frame
  | .call reading _ _ | .action reading _ _ => reading.statements p.frame
  | .configuration _ => []

def argumentsParameter : PeerParameter :=
  ⟨"__args", code "&" ++ inBrackets (code ":: std :: string :: String")⟩

theorem argumentsCode_eq : argumentsCode = argumentsParameter.tokens := by decide +kernel

def parameters (p : Peer) : List PeerParameter :=
  let sequence := code ":: std :: vec :: Vec <"
  match p.role with
  | .main _ _ | .configuration _ => []
  | .call _ _ _ => [argumentsParameter]
  | .action _ _ state => [argumentsParameter,
      ⟨nodePathName, sequence ++ p.frame.runtime ++ code "::" ++ state.chainNode.token ::
        code "<" ++ state.elementType ++ code ">>"⟩,
      ⟨stateName, sequence ++ state.elementType ++ code ">"⟩]

variable (frame : PeerFrame) (reading : ArgumentReading) (call : WorkCall)

/-- A program runs its statements: those that take its arguments, and behind them, in a block, those that read them. -/
theorem tokens_main : tokens ⟨frame, .main reading call⟩ =
    frame.head false "main" [] ++ inParentheses [] ++ inBraces (environmentStatements.flatMap LetStatement.tokens ++
      code "if let :: std :: result :: Result :: Err" ++ inParentheses (code "__error") ++ code "=" ++
      runCode frame reading call ++
      inBraces (frame.inRuntime "exit_with_error" ++ inParentheses (code "__error") ++ code ";")) := by
  have htyped : code "let __args : :: std :: vec :: Vec < :: std :: string :: String > = :: std :: env :: args" =
      code "let" ++ .word "__args" :: code ": :: std :: vec :: Vec < :: std :: string :: String >" ++ code "=" ++
        code ":: std :: env :: args" := by decide +kernel
  have hslice : code "let __args = __args . as_slice" =
      code "let" ++ .word "__args" :: code "=" ++ code "__args . as_slice" := by decide +kernel
  simp only [tokens, mainCode, environmentStatements, htyped, hslice, LetStatement.tokens, List.flatMap_cons,
    List.flatMap_nil, List.append_assoc, List.cons_append, List.nil_append, List.append_nil]

theorem tokens_call (successType : List Token) : tokens ⟨frame, .call reading call successType⟩ =
    frame.head frame.isAsync "call" frame.generics ++
      inParentheses ((parameters ⟨frame, .call reading call successType⟩).flatMap PeerParameter.tokens) ++
      code "-> :: std :: result :: Result <" ++ successType ++ code "," ++ frame.errorType ++ code ">" ++ frame.bounds ++
      inBraces ((statements ⟨frame, .call reading call successType⟩).flatMap LetStatement.tokens ++
        code ":: std :: result :: Result :: Ok" ++ inParentheses (call.tokens frame)) := by
  simp only [tokens, callCode, parameters, statements, argumentsCode_eq, ArgumentReading.tokens_eq_statements,
    List.flatMap_cons, List.flatMap_nil, List.append_nil]

theorem tokens_action (state : ActionState) : tokens ⟨frame, .action reading call state⟩ =
    code "#" ++ inBrackets (code "allow" ++ inParentheses (code "unused_variables")) ++
      frame.head frame.isAsync "action" frame.generics ++
      inParentheses ((parameters ⟨frame, .action reading call state⟩).flatMap PeerParameter.tokens) ++
      code "-> :: std :: result :: Result < :: std :: option :: Option <" ++ code ":: std :: vec :: Vec <" ++
      state.elementType ++ code ">> ," ++ frame.errorType ++ code ", >" ++ frame.bounds ++
      inBraces ((statements ⟨frame, .action reading call state⟩).flatMap LetStatement.tokens ++
        outcomeCode frame call state.isReturned) := by
  have hnode : code ">> ," = code ">>" ++ code "," := by decide +kernel
  have hstate : code "> ," = code ">" ++ code "," := by decide +kernel
  have hnodePath : code nodePathName = [.word nodePathName] := by decide +kernel
  have hstateName : code stateName = [.word stateName] := by decide +kernel
  simp only [tokens, actionCode, parameters, statements, argumentsCode_eq, ArgumentReading.tokens_eq_statements, hnode,
    hstate, hnodePath, hstateName, PeerParameter.tokens, List.flatMap_cons, List.flatMap_nil, List.append_assoc,
    List.cons_append, List.nil_append, List.append_nil]

/-- Whether some statements stand in tokens one behind another, and a call behind them; what follows may be in brackets. -/
inductive Runs (call : List Token) : List LetStatement → List Token → Prop
  | call (before : List Token) : Runs call [] (before ++ call)
  | statement {rest : List LetStatement} {tokens : List Token} (s : LetStatement) :
    Runs call rest tokens → Runs call (s :: rest) (s.tokens ++ tokens)
  | inside {delimiter : Delimiter} {statements : List LetStatement} {inner : List Token} (before : List Token) :
    Runs call statements inner → Runs call statements (before ++ [.group delimiter inner])
  | behind {statements : List LetStatement} {tokens : List Token} (more : List Token) :
    Runs call statements tokens → Runs call statements (tokens ++ more)

theorem Runs.statements {call : List Token} {more : List LetStatement} {tokens : List Token} (h : Runs call more tokens)
    (statements : List LetStatement) : Runs call (statements ++ more) (statements.flatMap LetStatement.tokens ++ tokens) := by
  induction statements with
  | nil => exact h
  | cons s rest ih =>
    rw [List.flatMap_cons, List.append_assoc]
    exact .statement s ih

theorem Runs.all {call tokens : List Token} (h : Runs call [] tokens) (statements : List LetStatement) :
    Runs call statements (statements.flatMap LetStatement.tokens ++ tokens) := by
  have hruns := h.statements statements
  rwa [List.append_nil] at hruns

variable {frame reading call}

/-- The block of a program reads the arguments and then calls the work function. -/
theorem runs_runCode (before : List Token) :
    Runs (call.tokens frame) (reading.statements frame) (before ++ runCode frame reading call) := by
  have hsteps : ∀ more : List Token, Runs (call.tokens frame) (reading.statements frame)
      (reading.tokens frame ++ (call.tokens frame ++ more)) := by
    intro more
    have hcall : Runs (call.tokens frame) [] (call.tokens frame ++ more) := .behind more (.call [])
    rw [ArgumentReading.tokens_eq_statements]
    exact hcall.all (reading.statements frame)
  unfold runCode
  -- An asynchronous block is run by the runtime, any other one is called where it stands.
  split
  · rw [← List.append_assoc]
    refine .inside _ (.inside _ ?_)
    simp only [List.append_assoc]
    exact hsteps _
  · rw [← List.append_assoc]
    refine .behind _ (.inside _ (.inside _ ?_))
    simp only [List.append_assoc]
    exact hsteps _

/-- A peer that calls the work function runs its statements first. -/
theorem runs_tokens {peer : Peer} (h : peer.role.workCall? = some call) :
    Runs (call.tokens peer.frame) peer.statements peer.tokens := by
  obtain ⟨frame, role⟩ := peer
  cases role with
  | main reading work =>
    obtain rfl : work = call := Option.some.inj h
    rw [tokens_main]
    refine .inside _ ?_
    simp only [List.append_assoc]
    refine Runs.statements ?_ environmentStatements
    simp only [← List.append_assoc]
    exact .behind _ (runs_runCode _)
  | call reading work successType =>
    obtain rfl : work = call := Option.some.inj h
    rw [tokens_call]
    refine .inside _ ?_
    rw [List.append_assoc]
    have hcall : Runs (work.tokens frame) [] (code ":: std :: result :: Result :: Ok" ++ inParentheses (work.tokens frame)) :=
      .inside _ (.call [])
    exact hcall.all _
  | configuration configuration => cases h
  | action reading work state =>
    obtain rfl : work = call := Option.some.inj h
    rw [tokens_action]
    have hcall : Runs (work.tokens frame) [] (outcomeCode frame work state.isReturned) := by
      unfold outcomeCode
      split
      · exact .behind _ (.behind _ (.call _))
      · exact .behind _ (.behind _ (.call []))
    exact .inside _ (hcall.all _)

/-- The parameters of a peer that calls the work function stand in its head. -/
theorem exists_tokens_eq_parameters {peer : Peer} (h : peer.role.workCall? = some call) :
    ∃ before behind, peer.tokens = before ++ inParentheses (peer.parameters.flatMap PeerParameter.tokens) ++ behind := by
  obtain ⟨frame, role⟩ := peer
  cases role with
  | main reading work =>
    rw [tokens_main]
    exact ⟨_, _, rfl⟩
  | call reading work successType =>
    rw [tokens_call]
    simp only [List.append_assoc]
    exact ⟨_, _, rfl⟩
  | configuration configuration => cases h
  | action reading work state =>
    rw [tokens_action]
    refine ⟨code "#" ++ inBrackets (code "allow" ++ inParentheses (code "unused_variables")) ++
      frame.head frame.isAsync "action" frame.generics, ?_⟩
    simp only [List.append_assoc]
    exact ⟨_, rfl⟩

/-- What the code of a peer says: its head has the parameters, and its statements run before the call. -/
structure Calls (peer : Peer) (call : WorkCall) : Prop where
  head : ∃ before behind, peer.tokens = before ++ inParentheses (peer.parameters.flatMap PeerParameter.tokens) ++ behind
  body : Runs (call.tokens peer.frame) peer.statements peer.tokens

theorem calls_of_workCall {peer : Peer} (h : peer.role.workCall? = some call) : peer.Calls call :=
  ⟨exists_tokens_eq_parameters h, runs_tokens h⟩

end Peer

end CommandBinding

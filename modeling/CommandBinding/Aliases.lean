import CommandBinding.Category

/-!
Command-line aliases. A label is cut at its first separator, of which it may have none: with the separator `__`,
`q__quiet` has the head `q` and the long alias `quiet`. A head of one character is a short alias, any other a legacy
alias; without a separator a legacy alias serves as the long one as well. The label `_` gives no alias.
`AliasTable.build` lists the aliases of all parameters and finds every alias that more than one of them claims.
-/
namespace CommandBinding

/-- The aliases of one parameter, without dashes. -/
structure Aliases where
  /-- One character, typed behind one dash. -/
  short : Option String := none
  /-- Several characters, typed behind one dash. -/
  legacy : Option String := none
  /-- Typed behind two dashes. -/
  long : Option String := none
deriving DecidableEq, Repr, Inhabited

namespace Aliases

def isEmpty (a : Aliases) : Bool :=
  a.short.isNone && a.legacy.isNone && a.long.isNone

/-- The aliases that are present, in the order short, legacy, long. -/
def present (a : Aliases) : List String :=
  [a.short, a.legacy, a.long].filterMap id

theorem isEmpty_iff {a : Aliases} : a.isEmpty = true ↔ a.present = [] := by
  obtain ⟨_ | _, _ | _, _ | _⟩ := a <;> simp [isEmpty, present]

/-- The distinct alias texts, in order of first appearance. -/
def texts (a : Aliases) : List String :=
  a.present.eraseDups

def spellings (a : Aliases) : List String :=
  [a.short.map ("-" ++ ·), a.legacy.map ("-" ++ ·), a.long.map ("--" ++ ·)].filterMap id

/-- The text as an alias, unless it is empty. -/
def nonEmpty (cs : List Char) : Option String :=
  if cs.isEmpty then none else some (String.ofList cs)

/-- What the part of a label before the separator gives: one character is short, several are legacy. -/
def ofHead (head : List Char) : Aliases :=
  match head with
  | [] => {}
  | [c] => { short := some (String.ofList [c]) }
  | _ => { legacy := some (String.ofList head) }

/-- The aliases of a label. Without a separator the legacy alias doubles as the long one. -/
def ofLabel (label separator : String) : Aliases :=
  if label = positionalLabel then {}
  else match cutAtFirst separator.toList label.toList with
    | some (head, tail) => { ofHead head with long := nonEmpty tail }
    | none => { ofHead label.toList with long := (ofHead label.toList).legacy }

end Aliases

/-- Whether a label holds ASCII letters, digits and underscores only. The empty label does. -/
def isValidLabel (label : String) : Bool :=
  label.toList.all CodeText.continuesName

/-- The aliases of the parameter of that name. -/
structure AliasRow where
  parameter : String
  aliases : Aliases
deriving DecidableEq, Repr

/-- The aliases of several parameters, in the order of the parameters. -/
abbrev AliasTable := List AliasRow

namespace AliasTable

def get? (table : AliasTable) (parameter : String) : Option Aliases :=
  (table.find? (·.parameter == parameter)).map (·.aliases)

def row (separator : String) (p : BoundParameter) : AliasRow :=
  ⟨p.name, Aliases.ofLabel p.label separator⟩

/-- One row for each parameter with a valid label. -/
def ofParameters (ps : List BoundParameter) (separator : String) : AliasTable :=
  (ps.filter fun p => isValidLabel p.label).map (row separator)

/-- The parameters whose rows claim an alias, in order. -/
def claimants (table : AliasTable) (text : String) : List String :=
  (table.filter fun r => r.aliases.texts.contains text).map (·.parameter)

/-- All claimed aliases, ascending and without repetition. -/
def claimed (table : AliasTable) : List String :=
  ascending (table.flatMap fun r => r.aliases.texts)

/-- One finding for each alias with several claimants, ascending by alias. -/
def conflicts (table : AliasTable) : List Finding :=
  table.claimed.filterMap fun text =>
    let names := table.claimants text
    if 1 < names.length then some (.onFunction (.duplicateAlias text names)) else none

def labelFindings (ps : List BoundParameter) : List Finding :=
  (ps.filter fun p => !isValidLabel p.label).map fun p =>
    .onParameter p.name (.invalidLabel p.name p.label)

/-- The table of the parameters with a valid label, and the findings about labels and shared aliases. -/
def build (ps : List BoundParameter) (separator : String) : AliasTable × List Finding :=
  let table := ofParameters ps separator
  (table, labelFindings ps ++ table.conflicts)

end AliasTable

end CommandBinding

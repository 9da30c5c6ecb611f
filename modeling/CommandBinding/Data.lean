/-!
Data values: what reports are written as and requests are read from. A value is built of records, lists and
scalars; `variant` marks the named alternative of a choice, which some formats write in a way of their own.
-/
namespace CommandBinding

/-- A data value. The fields of a record are in the order in which they are written. -/
inductive Data where
  | null
  | bool (value : Bool)
  | number (value : Nat)
  | string (value : String)
  | list (items : List Data)
  | record (fields : List (String × Data))
  /-- The alternative `name` of a choice, with its payload. -/
  | variant (name : String) (payload : Data)
deriving Inhabited

namespace Data

def optional : Option String → Data
  | some text => string text
  | none => null

def strings (texts : List String) : Data :=
  list (texts.map string)

/-- The field of that name in a record; a missing field reads as `null`. -/
def field : Data → String → Data
  | record fields, name => ((fields.find? (·.1 == name)).map (·.2)).getD null
  | _, _ => null

/-- Whether the record has a field of that name, whatever its value. -/
def hasField : Data → String → Bool
  | record fields, name => fields.any (·.1 == name)
  | _, _ => false

def string? : Data → Option String
  | string text => some text
  | _ => none

def bool? : Data → Option Bool
  | bool value => some value
  | _ => none

def list? : Data → Option (List Data)
  | list items => some items
  | _ => none

def record? : Data → Option (List (String × Data))
  | record fields => some fields
  | _ => none

/-- A text, or nothing for `null`. -/
def optional? : Data → Option (Option String)
  | string text => some (some text)
  | null => some none
  | _ => none

def strings? (d : Data) : Option (List String) := do
  (← d.list?).mapM string?

/-- The field of that name, read by `read`, or `absent` where the record has none. A field that is there must be
readable, also when it is `null`. -/
def fieldOr {α : Type} (d : Data) (name : String) (read : Data → Option α) (absent : α) : Option α :=
  if d.hasField name then read (d.field name) else some absent

end Data

end CommandBinding

/-!
Comma-separated lists in which lifetimes are written first, whatever their order in the source.
-/
namespace CommandBinding.Source

/-- A member of a comma-separated list, and the comma behind it if there is one. -/
structure ListItem (α : Type) where
  isLifetime : Bool
  item : List α
  comma : List α
deriving DecidableEq, Repr

namespace ListItem

variable {α : Type}

def written (items : List (ListItem α)) : List α :=
  items.flatMap fun i => i.item ++ i.comma

/-- The members with the lifetimes in front. Where no comma stands behind the last lifetime and others follow, one
is put there. -/
def lifetimesFirst (comma : List α) (items : List (ListItem α)) : List α :=
  let lifetimes := items.filter (·.isLifetime)
  let others := items.filter (!·.isLifetime)
  let needsComma := !others.isEmpty && lifetimes.getLast?.any (·.comma.isEmpty)
  written lifetimes ++ (if needsComma then comma else []) ++ written others

end ListItem

end CommandBinding.Source

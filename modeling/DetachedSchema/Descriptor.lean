/-!
# Descriptors

Small descriptions that are copied as they are from a source into a snapshot: the kind and options
of a table, the direction of an index column, and check constraints.
-/

namespace DetachedSchema

/-- What kind of relation a table stands for. -/
inductive TableKind
  | table
  | view
  | materializedView
  | temporary
  | function
  | expression
  | unknown
deriving DecidableEq, Inhabited

/-- The options of a table. -/
structure TableOptions where
  kind : TableKind := .table
  /-- The text of a view or function, when the source knows it. -/
  source : Option String := none
deriving DecidableEq

/-- The options of a view with the given text. -/
def TableOptions.view (text : String) : TableOptions := { kind := .view, source := some text }

/-- The direction in which an index sorts a column. -/
inductive SortOrder
  | ascending
  | descending
deriving DecidableEq, Inhabited

/-- A check constraint. -/
structure Check where
  name : String
  condition : String
  enforced : Bool := true
deriving DecidableEq

end DetachedSchema

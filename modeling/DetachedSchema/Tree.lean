/-!
# Trees

What a document holds, whatever the format it is written in: nothing, truth values, whole numbers
and texts, put together in lists and in records whose members have names.
-/

namespace DetachedSchema

/-- The content of a document. -/
inductive Tree
  | null
  | bool (value : Bool)
  | number (value : Int)
  | text (value : String)
  | list (items : List Tree)
  | record (members : List (String × Tree))
deriving Inhabited

mutual

/-- The tree with the members of every record in the order of their names. -/
def Tree.sorted : Tree → Tree
  | .list items => .list (sortedItems items)
  | .record members => .record ((sortedMembers members).mergeSort fun m n => m.1 ≤ n.1)
  | t => t

/-- The items of a list with sorted records. -/
def Tree.sortedItems : List Tree → List Tree
  | [] => []
  | t :: ts => t.sorted :: sortedItems ts

/-- The members of a record with sorted records in them. -/
def Tree.sortedMembers : List (String × Tree) → List (String × Tree)
  | [] => []
  | (name, t) :: ms => (name, t.sorted) :: sortedMembers ms

end

end DetachedSchema

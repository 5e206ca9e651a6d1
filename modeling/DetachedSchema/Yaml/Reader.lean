import DetachedSchema.Yaml.Node
import DetachedSchema.Yaml.Plain

/-!
# Reading YAML

A reader takes a node and gives what it stands for.  What a scalar stands for depends on what is
asked for: as a text every scalar is itself.
-/

namespace DetachedSchema.Yaml

/-- A reader of a node, given the root of the document and the number of aliases that may still be
followed. -/
abbrev Reader (α : Type) := Node → ReaderT Node (StateT Nat Option) α

namespace Reader

/-- The node itself, or the one that an alias stands for. -/
def resolve : Reader Node
  | .alias number => do
    guard (0 < (← getThe Nat))
    modifyThe Nat (· - 1)
    match (← read).find? number with
    | some node => return node
    | none => failure
  | node => return node

/-- The text of a scalar. -/
def text : Reader String := fun node => do
  match ← resolve node with
  | .scalar _ _ s => return s
  | _ => failure

/-- The text of a scalar that is plain, or that is a block and has the given tag. -/
def word (tag : Tag) : Reader String := fun node => do
  match ← resolve node with
  | .scalar _ .plain s => return s
  | .scalar m .literal s => if m.tag = some tag then return s else failure
  | _ => failure

/-- A truth value. -/
def bool : Reader Bool := fun node => do
  match Plain.bool? (← word .bool node) with
  | some b => return b
  | none => failure

/-- A whole number that is not negative and stays below a bound. -/
def natural (bound : Nat) : Reader Nat := fun node => do
  match Plain.unsigned? (← word .int node).toList with
  | some n => if n < bound then return n else failure
  | none => failure

/-- A whole number within bounds. -/
def integer (low high : Int) : Reader Int := fun node => do
  match Plain.signed? (← word .int node).toList with
  | some n => if low ≤ n ∧ n ≤ high then return n else failure
  | none => failure

/-- Whether a node stands for nothing where a value may be left out.  A scalar with the tag of
nothing has to be a word for it. -/
def isAbsent : Node → Option Bool
  | .scalar m .plain s =>
    match m.tag with
    | some tag =>
      if tag = .null then if Plain.isNull s then some true else none else some false
    | none => some (s = "" || Plain.isNull s)
  | .nothing => some true
  | _ => some false

/-- A value that may be left out. -/
def optional {α : Type} (value : Reader α) : Reader (Option α) := fun node => do
  let node ← resolve node
  match isAbsent node with
  | some true => return none
  | some false => return some (← value node)
  | none => failure

/-- The items of a list.  What is left empty is an empty list. -/
def items : Node → Option (List Node)
  | .list _ items => some items
  | .scalar _ .plain "" | .nothing => some []
  | _ => none

/-- A list of values. -/
def listOf {α : Type} (value : Reader α) : Reader (List α) := fun node => do
  match items (← resolve node) with
  | some nodes => nodes.mapM value
  | none => failure

/-- The entries of a map.  What is left empty is an empty map. -/
def entries : Node → Option (List (Node × Node))
  | .map _ entries => some entries
  | .scalar _ .plain "" | .nothing => some []
  | _ => none

/-- One of several names: the name in the tag of nothing, or else a scalar. -/
def oneOf {α : Type} (variants : List (String × α)) : Reader α := fun node => do
  let find (name : String) : ReaderT Node (StateT Nat Option) α :=
    match variants.lookup name with
    | some a => return a
    | none => failure
  match ← resolve node with
  | .scalar m style s =>
    match m.tag.bind Tag.name? with
    | some name =>
      guard (style = .plain && (s = "" || Plain.isNull s))
      find name
    | none => find s
  | _ => failure

/-- What the single document of a text stands for.  An alias may be followed a hundred times for
every event of the document, a list or map having two of them. -/
def run {α : Type} (value : Reader α) (text : String) : Option α := do
  let root ← Node.ofText? text.toList
  let nodes := root.all
  let events := nodes.length + nodes.countP fun
    | .list .. | .map .. => true
    | _ => false
  let (a, _) ← value root root (100 * events)
  return a

end Reader

end DetachedSchema.Yaml

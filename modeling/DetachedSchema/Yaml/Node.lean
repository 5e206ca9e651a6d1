import DetachedSchema.Yaml.Token

/-!
# Nodes

A YAML document as a tree of nodes.  Aliases are left in place: a node with an anchor has a number,
and an alias holds the number of the node it stands for.
-/

namespace DetachedSchema.Yaml

/-- The number of a node's anchor and the node's tag. -/
structure Mark where
  anchor : Option Nat := none
  tag : Option Tag := none
deriving DecidableEq, Inhabited

/-- A node of a document. -/
inductive Node
  | scalar (mark : Mark) (style : Style) (text : String)
  | list (mark : Mark) (items : List Node)
  | map (mark : Mark) (entries : List (Node × Node))
  | alias (number : Nat)
  /-- The document of a text that holds none. -/
  | nothing
deriving Inhabited

namespace Node

/-! ### Anchors -/

/-- The mark of a node, if it can have one. -/
def mark? : Node → Option Mark
  | .scalar m _ _ | .list m _ | .map m _ => some m
  | .alias _ | .nothing => none

mutual

/-- A node and all nodes inside of it, in the order of the text. -/
def all : Node → List Node
  | .list m items => .list m items :: allItems items
  | .map m entries => .map m entries :: allEntries entries
  | node => [node]

/-- The items of a list and all nodes inside of them. -/
def allItems : List Node → List Node
  | [] => []
  | item :: items => all item ++ allItems items

/-- The keys and values of a map and all nodes inside of them. -/
def allEntries : List (Node × Node) → List Node
  | [] => []
  | (key, value) :: entries => all key ++ (all value ++ allEntries entries)

end

/-- The last node with an anchor of the given number. -/
def find? (root : Node) (number : Nat) : Option Node :=
  root.all.reverse.find? fun node => node.mark?.any (·.anchor = some number)

/-! ### From tokens to nodes -/

/-- What is left of the tokens, the numbers of the anchors that have been defined, and the meanings
of the tag handles. -/
structure State where
  rest : List Token
  /-- A number that is greater than that of the tokens, so that no loop over them takes more
  steps. -/
  limit : Nat
  anchors : List (String × Nat) := []
  handles : List (String × Tag) := []

/-- A step of composing nodes from tokens. -/
abbrev Compose := StateT State Option

/-- The next token, which is not taken. -/
def peek : Compose Token := do return (← get).rest.headD .textEnd

/-- Takes a token. -/
def take : Compose Unit := modify fun s => { s with rest := s.rest.tail }

/-- Takes a token that has to be the given one. -/
def expect (t : Token) : Compose Unit := do
  guard ((← peek) = t)
  take

/-- Runs a step as long as it gives results; `limit` bounds their number. -/
def collect {α : Type} (step : Compose (Option α)) : Nat → Compose (List α)
  | 0 => failure
  | limit + 1 => do
    match ← step with
    | some a => return a :: (← collect step limit)
    | none => return []

/-- The same, as long as there are tokens. -/
def collectAll {α : Type} (step : Compose (Option α)) : Compose (List α) := do
  collect step (← get).limit

/-- Numbers an anchor.  The number is that of the names defined before it; a name that is defined
again stands for the new node from there on. -/
def defineAnchor (name : String) : Compose Nat := do
  let s ← get
  let number := s.anchors.length
  set { s with anchors := (name, number) :: s.anchors.filter (·.1 ≠ name) }
  return number

/-- A tag whose handle is written out. -/
def expand (handle : String) (suffix : Tag) : Compose Tag := do
  if handle = "" then return suffix
  match (← get).handles.lookup handle with
  | some expansion => return expansion.append suffix
  | none => failure

/-- The anchor in front of a node, if there is one. -/
def anchor? : Compose (Option String) := do
  match ← peek with
  | .anchor name => take; return some name
  | _ => return none

/-- The tag in front of a node, if there is one. -/
def tag? : Compose (Option (String × Tag)) := do
  match ← peek with
  | .tag handle suffix => take; return some (handle, suffix)
  | _ => return none

/-- The anchor and the tag in front of a node, in either order. -/
def properties : Compose (Option String × Option Tag) := do
  let first ← anchor?
  let tag ← tag?
  let anchor ← if first.isNone ∧ tag.isSome then anchor? else pure first
  let tag ← tag.mapM fun (handle, suffix) => expand handle suffix
  return (anchor, tag)

/-- A scalar with nothing in it, which stands for a node that is left out. -/
def empty : Node := .scalar {} .plain ""

/-- A node, or an empty one where the next token shows that it is left out. -/
def orEmpty (node : Compose Node) (missing : Token → Bool) : Compose Node := do
  if missing (← peek) then return empty else node

/-- The items of a list in block notation, each after its mark, up to a token that is no mark. -/
def blockItems (node : Compose Node) (missing : Token → Bool) : Compose (List Node) :=
  collectAll do
    match ← peek with
    | .blockEntry => take; return some (← orEmpty node missing)
    | _ => return none

/-- Whether a key or value of a block is left out. -/
def missingInMap : Token → Bool
  | .key | .value | .blockEnd => true
  | _ => false

/-- The entries of a map in block notation. -/
def blockEntries (node : Compose Node) : Compose (List (Node × Node)) :=
  collectAll do
    match ← peek with
    | .key =>
      take
      let key ← orEmpty node missingInMap
      match ← peek with
      | .value => take; return some (key, ← orEmpty node missingInMap)
      | _ => return some (key, empty)
    | _ => return none

/-- Moves to the next entry in brackets and says whether there is one.  The closing bracket is
left. -/
def nextInFlow (close : Token) (isFirst : Bool) : Compose Bool := do
  if (← peek) = close then return false
  unless isFirst do expect .flowEntry
  return (← peek) ≠ close

/-- The value after a key in brackets, `missing` telling what shows that there is none. -/
def flowValue (node : Compose Node) (missing : Token → Bool) : Compose Node := do
  match ← peek with
  | .value => take; orEmpty node missing
  | _ => return empty

/-- Whether a value in a list in brackets is left out. -/
def missingInFlowList : Token → Bool
  | .flowEntry | .flowListEnd => true
  | _ => false

/-- Whether a value in a map in brackets is left out. -/
def missingInFlowMap : Token → Bool
  | .flowEntry | .flowMapEnd => true
  | _ => false

/-- A single entry that stands as a map among the items of a list in brackets, after its mark.  When
the key is left out the token that shows it is taken. -/
def singleEntry (node : Compose Node) : Compose Node := do
  let t ← peek
  let key ← if t = .value || missingInFlowList t then do take; pure empty else node
  return .map {} [(key, ← flowValue node missingInFlowList)]

/-- The items of a list in brackets after the opening one. -/
def flowItems (node : Compose Node) (isFirst : Bool) : Compose (Option Node) := do
  if ← nextInFlow .flowListEnd isFirst then
    match ← peek with
    | .key => take; return some (← singleEntry node)
    | _ => return some (← node)
  else return none

/-- An entry of a map in brackets. -/
def flowEntries (node : Compose Node) (isFirst : Bool) : Compose (Option (Node × Node)) := do
  if ← nextInFlow .flowMapEnd isFirst then
    match ← peek with
    | .key =>
      take
      let key ← orEmpty node fun t => t = .value || missingInFlowMap t
      return some (key, ← flowValue node missingInFlowMap)
    | _ => return some (← node, empty)
  else return none

/-- All entries in brackets after the opening one, and the closing one. -/
def inBrackets {α : Type} (entry : Bool → Compose (Option α)) (close : Token) :
    Compose (List α) := do
  let first ← entry true
  let all ← match first with
    | some a => do pure (a :: (← collectAll (entry false)))
    | none => pure []
  expect close
  return all

/-- Where a node stands: whether it may be in block notation, and whether a list in that notation
may be without indentation. -/
structure Place where
  block : Bool
  unindented : Bool

/-- A node at a place; `depth` bounds how deep nodes may lie in it. -/
def node : Nat → Place → Compose Node
  | 0, _ => failure
  | depth + 1, place => do
    match ← peek with
    | .alias name =>
      take
      match (← get).anchors.lookup name with
      | some number => return .alias number
      | none => failure
    | _ =>
      let (anchor, tag) ← properties
      let anchor ← anchor.mapM defineAnchor
      let mark : Mark := ⟨anchor, tag⟩
      match ← peek with
      | .scalar style text =>
        take
        return .scalar mark style text
      | .flowListStart =>
        take
        return .list mark (← inBrackets (flowItems (node depth ⟨false, false⟩)) .flowListEnd)
      | .flowMapStart =>
        take
        return .map mark (← inBrackets (flowEntries (node depth ⟨false, false⟩)) .flowMapEnd)
      | .blockEntry =>
        if place.unindented then
          return .list mark (← blockItems (node depth ⟨true, false⟩) fun t =>
            t = .blockEntry || missingInMap t)
        else omitted mark
      | .blockListStart =>
        if place.block then
          take
          let items ← blockItems (node depth ⟨true, false⟩) fun t =>
            t = .blockEntry || t = .blockEnd
          expect .blockEnd
          return .list mark items
        else omitted mark
      | .blockMapStart =>
        if place.block then
          take
          let entries ← blockEntries (node depth ⟨true, true⟩)
          expect .blockEnd
          return .map mark entries
        else omitted mark
      | _ => omitted mark
where
  /-- The node after an anchor or a tag that nothing follows. -/
  omitted (mark : Mark) : Compose Node := do
    guard (mark.anchor.isSome || mark.tag.isSome)
    return .scalar mark .plain ""

/-! ### Documents -/

/-- The declarations in front of a document: at most one version, which has to be 1.1 or 1.2, and at
most one meaning for each handle. -/
def declarations : Nat → Bool → Compose Bool
  | 0, _ => failure
  | limit + 1, versioned => do
    match ← peek with
    | .version major minor =>
      guard (!versioned && major = 1 && (minor = 1 || minor = 2))
      take
      declarations limit true
    | .handle name expansion =>
      guard ((← get).handles.lookup name).isNone
      modify fun s => { s with handles := (name, expansion) :: s.handles }
      take
      discard (declarations limit versioned)
      return true
    | _ => return versioned

/-- The meanings that handles have unless declared otherwise. -/
def usualHandles : List (String × Tag) :=
  [("!", .ofText "!"), ("!!", .ofText "tag:yaml.org,2002:")]

/-- The single document of a text, nothing when the text holds none. -/
def document : Compose Node := do
  let limit := (← get).limit
  if (← peek) = .textEnd then return .nothing
  let declared ← declarations limit false
  modify fun s => { s with handles := s.handles ++ usualHandles }
  let root ←
    if declared || (← peek) = .documentStart then do
      expect .documentStart
      orEmpty (node limit ⟨true, false⟩) fun t => t = .documentStart || isEnd t
    else node limit ⟨true, false⟩
  discard (collectAll do if (← peek) = .documentEnd then do take; return some () else return none)
  expect .textEnd
  return root
where
  /-- Whether the token ends a document, or declares something for the next one. -/
  isEnd : Token → Bool
    | .documentEnd | .textEnd | .version .. | .handle .. => true
    | _ => false

/-- The node at the root of a text. -/
def ofText? (text : List Char) : Option Node := do
  let tokens ← Token.ofText? text
  let (root, _) ← document { rest := tokens, limit := tokens.length + 1 }
  return root

end Node

end DetachedSchema.Yaml

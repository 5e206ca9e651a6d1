import DetachedSchema.Json.Printer
import DetachedSchema.Json.Reader
import DetachedSchema.Yaml.Printer
import DetachedSchema.Yaml.Reader

/-!
# Codecs

How the values of a type are written in documents and read back, from JSON and from YAML.  A record
is described once, field by field, and the description gives all three.
-/

namespace DetachedSchema

/-- How a type is written and read. -/
structure Codec (α : Type) where
  encode : α → Tree
  json : Json.Reader α
  yaml : Yaml.Reader α

namespace Codec

/-! ### Simple values -/

/-- A text, called `expected` in faults. -/
def textAs (expected : String) : Codec String where
  encode := .text
  json := Json.Reader.textValue expected
  yaml := Yaml.Reader.text

/-- A text. -/
def text : Codec String := textAs "a string"

/-- A truth value. -/
def bool : Codec Bool where
  encode := .bool
  json := Json.Reader.boolValue
  yaml := Yaml.Reader.bool

/-- A count, which has to fit 64 bits. -/
def count : Codec Nat where
  encode n := .number n
  json := Int.toNat <$> Json.Reader.integerValue 0 (UInt64.size - 1) "usize"
  yaml := Yaml.Reader.natural UInt64.size

/-- An unsigned number of 32 bits. -/
def word32 : Codec UInt32 where
  encode n := .number n.toNat
  json := (fun n => UInt32.ofNat n.toNat) <$> Json.Reader.integerValue 0 (UInt32.size - 1) "u32"
  yaml node := UInt32.ofNat <$> Yaml.Reader.natural UInt32.size node

/-- A signed number of 64 bits. -/
def int64 : Codec Int64 where
  encode n := .number n.toInt
  json := Int64.ofInt <$> Json.Reader.integerValue Int64.minValue.toInt Int64.maxValue.toInt "i64"
  yaml node := Int64.ofInt <$> Yaml.Reader.integer Int64.minValue.toInt Int64.maxValue.toInt node

/-- A value that is written as a text in a notation of its own. -/
def notated {α : Type} (expected : String) (write : α → String) (read : String → Except String α) :
    Codec α where
  encode a := .text (write a)
  json := do
    match read (← Json.Reader.textValue expected) with
    | .ok a => return a
    | .error message => throw (.mismatch (.stated message))
  yaml node := do
    match read (← Yaml.Reader.text node) with
    | .ok a => return a
    | .error _ => failure

/-- One of several values, written by its name. -/
def oneOf {α : Type} (values : List α) (name : α → String) : Codec α where
  encode a := .text (name a)
  json := Json.Reader.oneOf (values.map fun a => (name a, a))
  yaml := Yaml.Reader.oneOf (values.map fun a => (name a, a))

/-- A value or nothing. -/
def option {α : Type} (c : Codec α) : Codec (Option α) where
  encode
    | none => .null
    | some a => c.encode a
  json := Json.Reader.optional c.json
  yaml := Yaml.Reader.optional c.yaml

/-- A list of values. -/
def list {α : Type} (c : Codec α) : Codec (List α) where
  encode as := .list (as.map c.encode)
  json := Json.Reader.listOf c.json
  yaml := Yaml.Reader.listOf c.yaml

/-- The same notation for another type. -/
def map {α β : Type} (c : Codec α) (make : α → β) (parts : β → α) : Codec β where
  encode b := c.encode (parts b)
  json := make <$> c.json
  yaml node := make <$> c.yaml node

/-! ### Records -/

/-- What happens to a field that is not written. -/
structure Rule (α : Type) where
  /-- The value of a field that a record does not have. -/
  absent : Option α := none
  /-- The value of a field behind the end of a record that is written as a list. -/
  short : Option α := none
  /-- The values that are not written. -/
  omits : α → Bool := fun _ => false

namespace Rule

/-- The field is always written. -/
def required {α : Type} : Rule α := {}

/-- The field is always written, but a record may be without it. -/
def optional {α : Type} : Rule (Option α) := { absent := some none }

/-- A field that is left out has the given value. -/
def default {α : Type} (a : α) : Rule α := { absent := some a, short := some a }

/-- The field is left out when it has no value. -/
def omitted {α : Type} : Rule (Option α) :=
  { absent := some none, short := some none, omits := Option.isNone }

end Rule

/-- The fields of a record in the order in which they are written.  The values of the fields are
nested pairs of type `β`, and what is known of them while a record is being read is of type `σ`. -/
inductive Fields : (β σ : Type) → Type 1
  | nil : Fields Unit Unit
  | more {α β σ : Type} (name : String) (codec : Codec α) (rule : Rule α) (rest : Fields β σ) :
    Fields (α × β) (Option α × σ)

namespace Fields

/-- The number of fields. -/
def size {β σ : Type} : Fields β σ → Nat
  | .nil => 0
  | .more _ _ _ rest => rest.size + 1

/-- The members of the written record. -/
def members {β σ : Type} : Fields β σ → β → List (String × Tree)
  | .nil, _ => []
  | .more name codec rule rest, (a, b) =>
    if rule.omits a then rest.members b else (name, codec.encode a) :: rest.members b

/-- No fields have been read. -/
def vacant {β σ : Type} : Fields β σ → σ
  | .nil => ()
  | .more _ _ _ rest => (none, rest.vacant)

/-- The value of the record, or the name of the first field that is missing. -/
def filled {β σ : Type} : Fields β σ → σ → Except String β
  | .nil, _ => .ok ()
  | .more name _ rule rest, (slot, slots) =>
    match slot <|> rule.absent with
    | some a => do return (a, ← rest.filled slots)
    | none => .error name

/-- Reads the rest of a member whose name has been read.  A field may not be given twice, and a
member of another name is skipped. -/
def jsonMember {β σ : Type} : Fields β σ → σ → String → Json.Reader σ
  | .nil, slots, _ => do
    Json.Reader.colon
    Json.Reader.skip
    return slots
  | .more name codec _ rest, (slot, slots), key => do
    if key = name then
      if slot.isSome then throw (.mismatch (.duplicateField name))
      Json.Reader.colon
      return (some (← codec.json), slots)
    else return (slot, ← rest.jsonMember slots key)

/-- Reads the members of a record up to its end. -/
def jsonMembers {β σ : Type} (fields : Fields β σ) : Json.Reader β := do
  let slots ← Json.Reader.loop (fun (isFirst, slots) => do
    if ← Json.Reader.nextMember isFirst then
      return .inl (false, ← fields.jsonMember slots (← Json.Reader.text))
    else return .inr slots) (true, fields.vacant)
  match fields.filled slots with
  | .ok b => Json.Reader.take; return b
  | .error name => throw (.mismatch (.missingField name))

/-- Reads the fields of a record that is written as a list, the first one having the given place.
`tooShort` is the fault of a list with so many items. -/
def jsonItems {β σ : Type} (tooShort : Nat → Json.Fault) : Fields β σ → Nat → Json.Reader β
  | .nil, _ => do
    match ← Json.Reader.peek with
    | some ']' => Json.Reader.take
    | some _ => throw .malformed
    | none => throw .truncated
  | .more _ codec rule rest, place => do
    let a ←
      if ← Json.Reader.nextItem (place = 0) then codec.json
      else match rule.short with
        | some a => pure a
        | none => throw (tooShort place)
    return (a, ← rest.jsonItems tooShort (place + 1))

/-- Reads the value of an entry with the given key. -/
def yamlEntry {β σ : Type} :
    Fields β σ → σ → String → Yaml.Node → ReaderT Yaml.Node (StateT Nat Option) σ
  | .nil, slots, _, _ => return slots
  | .more name codec _ rest, (slot, slots), key, node => do
    if key = name then
      guard slot.isNone
      return (some (← codec.yaml node), slots)
    else return (slot, ← rest.yamlEntry slots key node)

/-- Reads a record. -/
def yaml {β σ : Type} (fields : Fields β σ) : Yaml.Reader β := fun node => do
  match Yaml.Reader.entries (← Yaml.Reader.resolve node) with
  | none => failure
  | some entries =>
    let slots ← entries.foldlM (fun slots (key, value) => do
      fields.yamlEntry slots (← Yaml.Reader.text key) value) fields.vacant
    match fields.filled slots with
    | .ok b => return b
    | .error _ => failure

end Fields

/-- A record with the given name and fields. -/
def record {α β σ : Type} (name : String) (fields : Fields β σ) (make : β → α) (parts : α → β) :
    Codec α where
  encode a := .record (fields.members (parts a))
  json := do
    match ← Json.Reader.peek with
    | some '{' => Json.Reader.take; make <$> fields.jsonMembers
    | some '[' =>
      Json.Reader.take
      let elements := if fields.size = 1 then "element" else "elements"
      make <$> fields.jsonItems (fun length =>
        .mismatch (.wrongLength length s!"struct {name} with {fields.size} {elements}")) 0
    | _ => Json.Reader.mismatch s!"struct {name}"
  yaml node := make <$> fields.yaml node

/-! ### Whole documents -/

/-- Reads a JSON document. -/
def ofJson {α : Type} (c : Codec α) (text : String) : Except Json.Fault α :=
  Json.Reader.run c.json text

/-- Reads a YAML document. -/
def ofYaml {α : Type} (c : Codec α) (text : String) : Option α := Yaml.Reader.run c.yaml text

/-- Writes a JSON document, without blanks or with one member a line. -/
def toJson {α : Type} (c : Codec α) (isPretty : Bool) (a : α) : String :=
  Json.print isPretty (c.encode a)

/-- Writes a YAML document. -/
def toYaml {α : Type} (c : Codec α) (a : α) : String := Yaml.print (c.encode a)

end Codec

end DetachedSchema

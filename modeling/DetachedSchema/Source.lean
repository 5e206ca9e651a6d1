import DetachedSchema.Entry
import DetachedSchema.Event
import DetachedSchema.Fault

/-!
# Sources

A source answers questions about the metadata of a database.  It may change while it is read, so
that the same question has another answer the second time, and it may tell events.
-/

namespace DetachedSchema

/-- A question to a source. -/
inductive Query
  | catalogs
  | schemas (catalog : String)
  | domains (schema : SchemaPath)
  | tables (schema : SchemaPath)
  | sequences (schema : SchemaPath)
  | userTypes (schema : SchemaPath)
  | columns (table : TablePath)
  | indexes (table : TablePath)
  | uniqueKeys (table : TablePath)
  | primaryKey (table : TablePath)
  | foreignKeys (table : TablePath)
  | checks (table : TablePath)
deriving DecidableEq

/-- What answers a question. -/
abbrev Query.Answer : Query → Type
  | .catalogs => List CatalogEntry
  | .schemas _ => List SchemaEntry
  | .domains _ => List DomainEntry
  | .tables _ => List TableEntry
  | .sequences _ => List SequenceEntry
  | .userTypes _ => List UserTypeEntry
  | .columns _ => List ColumnEntry
  | .indexes _ => List IndexEntry
  | .uniqueKeys _ => List KeyEntry
  | .primaryKey _ => Option KeyEntry
  | .foreignKeys _ => List ForeignKeyEntry
  | .checks _ => List Check

instance : (q : Query) → DecidableEq q.Answer
  | .catalogs => inferInstanceAs (DecidableEq (List CatalogEntry))
  | .schemas _ => inferInstanceAs (DecidableEq (List SchemaEntry))
  | .domains _ => inferInstanceAs (DecidableEq (List DomainEntry))
  | .tables _ => inferInstanceAs (DecidableEq (List TableEntry))
  | .sequences _ => inferInstanceAs (DecidableEq (List SequenceEntry))
  | .userTypes _ => inferInstanceAs (DecidableEq (List UserTypeEntry))
  | .columns _ => inferInstanceAs (DecidableEq (List ColumnEntry))
  | .indexes _ => inferInstanceAs (DecidableEq (List IndexEntry))
  | .uniqueKeys _ => inferInstanceAs (DecidableEq (List KeyEntry))
  | .primaryKey _ => inferInstanceAs (DecidableEq (Option KeyEntry))
  | .foreignKeys _ => inferInstanceAs (DecidableEq (List ForeignKeyEntry))
  | .checks _ => inferInstanceAs (DecidableEq (List Check))

/-- An answer or the reason why there is none, and the events on the way to it. -/
structure Reply (α : Type) where
  result : Except Fault α
  events : List Event := []

/-- A source of metadata with states of type `σ`. -/
structure Source (σ : Type) where
  name : String
  reply : (q : Query) → StateM σ (Reply q.Answer)

/-- The fault of a source that does not know a catalog. -/
def Fault.unknownCatalog (name place : String) : Fault :=
  .sourceAccess s!"reading catalog {Text.quoted name}" s!"catalog not found in {place}"

/-- The fault of a source that does not know a schema. -/
def Fault.unknownSchema (path : SchemaPath) (place : String) : Fault :=
  .sourceAccess s!"reading schema {path.text}" s!"schema not found in {place}"

/-- The fault of a source that does not know a table. -/
def Fault.unknownTable (path : TablePath) (place : String) : Fault :=
  .sourceAccess s!"reading table {path.text}" s!"table not found in {place}"

namespace Source

/-- The source whose answer to each question is always the same. -/
def ofAnswers (name : String) (answer : (q : Query) → Except Fault q.Answer) : Source Unit where
  name := name
  reply q := pure { result := answer q }

/-- The source under another name. -/
def named {σ : Type} (source : Source σ) (name : String) : Source σ := { source with name }

/-- The source that fails where `fault` says so and is not asked then. -/
def failingWhere {σ : Type} (source : Source σ) (fault : Query → Option Fault) : Source σ :=
  { source with
    reply := fun q => match fault q with
      | some f => pure { result := .error f }
      | none => source.reply q }

end Source

end DetachedSchema

import DetachedSchema.Listing.Basic
import DetachedSchema.Source

/-!
# Listings as sources

A listing answers a question about a path by the first entries of its names.
-/

namespace DetachedSchema

namespace Listing

/-- The first catalog with a name. -/
def catalogNamed (l : Listing) (name : String) : Except Fault CatalogListing :=
  match l.catalogs.find? (·.name = name) with
  | some c => .ok c
  | none => .error (.unknownCatalog name "document")

/-- The schema with a path. -/
def schemaAt (l : Listing) (path : SchemaPath) : Except Fault SchemaListing := do
  match (← l.catalogNamed path.catalog).schemas.find? (·.name = path.schema) with
  | some s => return s
  | none => throw (.unknownSchema path "document")

/-- The table with a path. -/
def tableAt (l : Listing) (path : TablePath) : Except Fault TableListing := do
  match (← l.schemaAt path.schemaPath).tables.find? (·.name = path.table) with
  | some t => return t
  | none => throw (.unknownTable path "document")

/-- The answer of the listing to a question. -/
def answer (l : Listing) : (q : Query) → Except Fault q.Answer
  | .catalogs => return l.catalogs.map CatalogListing.entry
  | .schemas catalog => return (← l.catalogNamed catalog).schemas.map SchemaListing.entry
  | .domains schema => return (← l.schemaAt schema).domains
  | .tables schema => return (← l.schemaAt schema).tables.map TableListing.entry
  | .sequences schema => return (← l.schemaAt schema).sequences
  | .userTypes schema => return (← l.schemaAt schema).userTypes
  | .columns table => return (← l.tableAt table).columns
  | .indexes table => return (← l.tableAt table).indexes
  | .uniqueKeys table => return (← l.tableAt table).uniqueKeys
  | .primaryKey table => return (← l.tableAt table).primaryKey
  | .foreignKeys table => return (← l.tableAt table).foreignKeys
  | .checks table => return (← l.tableAt table).checks

/-- The listing as a source. -/
def source (l : Listing) : Source Unit := .ofAnswers "metadata document" l.answer

end Listing

end DetachedSchema

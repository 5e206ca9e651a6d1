import DetachedSchema.Entry

/-!
# Listings

The metadata of a database written out in full: catalogs with their schemas, schemas with their
tables, and tables with all that they own.  Names need not be distinct, and nothing is checked.
-/

namespace DetachedSchema

/-- A table with all that it owns. -/
structure TableListing where
  name : String
  comment : String := ""
  options : TableOptions := {}
  columns : List ColumnEntry := []
  indexes : List IndexEntry := []
  /-- The unique keys with the primary key among them. -/
  uniqueKeys : List KeyEntry := []
  primaryKey : Option KeyEntry := none
  foreignKeys : List ForeignKeyEntry := []
  checks : List Check := []
deriving DecidableEq

/-- A schema with all that it owns. -/
structure SchemaListing where
  name : String
  comment : String := ""
  domains : List DomainEntry := []
  tables : List TableListing := []
  sequences : List SequenceEntry := []
  userTypes : List UserTypeEntry := []
deriving DecidableEq

/-- A catalog with its schemas.  Databases without catalogs have a single one without a name. -/
structure CatalogListing where
  name : String := ""
  comment : String := ""
  schemas : List SchemaListing := []
deriving DecidableEq

/-- The metadata of a database. -/
structure Listing where
  catalogs : List CatalogListing := []
deriving DecidableEq

/-- The entry of a table. -/
def TableListing.entry (t : TableListing) : TableEntry := ⟨t.name, t.comment, t.options⟩

/-- The entry of a schema. -/
def SchemaListing.entry (s : SchemaListing) : SchemaEntry := ⟨s.name, s.comment⟩

/-- The entry of a catalog. -/
def CatalogListing.entry (c : CatalogListing) : CatalogEntry := ⟨c.name, c.comment⟩

namespace Listing

/-- A listing of schemas in a catalog without a name. -/
def ofSchemas (schemas : List SchemaListing) : Listing := ⟨[{ schemas }]⟩

/-- A listing of tables in a schema, in a catalog without a name. -/
def ofTables (schema : String) (tables : List TableListing) : Listing :=
  .ofSchemas [{ name := schema, tables }]

end Listing

end DetachedSchema

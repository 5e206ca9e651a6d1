import DetachedSchema.Codec
import DetachedSchema.Source

/-!
# Filters

A filter tells which catalogs, schemas and tables are kept.  A filtered source hides all others, and
with a table the foreign keys that refer to it, which could never be resolved.
-/

namespace DetachedSchema

/-- Which catalogs, schemas and tables are kept.  A list without entries keeps everything; an entry
for tables is a name, or the names of a schema and a table with a dot between them. -/
structure Filter where
  catalogs : List String := []
  schemas : List String := []
  tables : List String := []
  excludedTables : List String := []
deriving DecidableEq

namespace Filter

/-- How a filter is written. -/
def codec : Codec Filter :=
  .record "MetaFilter"
    (.more "catalogs" (.list .text) (.default []) <|
     .more "schemas" (.list .text) (.default []) <|
     .more "tables" (.list .text) (.default []) <|
     .more "exclude_tables" (.list .text) (.default []) .nil)
    (fun (catalogs, schemas, tables, excludedTables, _) =>
      ⟨catalogs, schemas, tables, excludedTables⟩)
    (fun f => (f.catalogs, f.schemas, f.tables, f.excludedTables, ()))

/-- Whether the filter has no entries, so that it keeps everything. -/
def isEmpty (f : Filter) : Bool :=
  f.catalogs.isEmpty && f.schemas.isEmpty && f.tables.isEmpty && f.excludedTables.isEmpty

/-- Whether an entry names a table.  What is before the first dot is the name of the schema. -/
def names (entry : String) (path : TablePath) : Bool :=
  match entry.toList.span (· ≠ '.') with
  | (schema, _ :: table) =>
    String.ofList schema = path.schema && String.ofList table = path.table
  | (table, []) => String.ofList table = path.table

/-- Whether a catalog is kept. -/
def keepsCatalog (f : Filter) (name : String) : Bool :=
  f.catalogs.isEmpty || f.catalogs.contains name

/-- Whether a schema is kept. -/
def keepsSchema (f : Filter) (path : SchemaPath) : Bool :=
  f.keepsCatalog path.catalog && (f.schemas.isEmpty || f.schemas.contains path.schema)

/-- Whether a table is kept. -/
def keepsTable (f : Filter) (path : TablePath) : Bool :=
  f.keepsSchema path.schemaPath && (f.tables.isEmpty || f.tables.any (names · path))
    && !f.excludedTables.any (names · path)

/-- What is left of the answer to a question. -/
def restrict (f : Filter) : (q : Query) → q.Answer → q.Answer
  | .catalogs, entries => entries.filter fun e => f.keepsCatalog e.name
  | .schemas catalog, entries => entries.filter fun e => f.keepsSchema ⟨catalog, e.name⟩
  | .tables schema, entries => entries.filter fun e => f.keepsTable (schema.table e.name)
  | .foreignKeys _, entries => entries.filter fun e => f.keepsTable e.references.table
  | .domains _, answer | .sequences _, answer | .userTypes _, answer | .columns _, answer
  | .indexes _, answer | .uniqueKeys _, answer | .primaryKey _, answer | .checks _, answer => answer

/-- The events that tell what is hidden of an answer. -/
def hidden (f : Filter) : (q : Query) → q.Answer → List Event
  | .tables schema, entries =>
    (entries.filter fun e => !f.keepsTable (schema.table e.name)).map fun e =>
      .hiddenTable schema e.name
  | .foreignKeys table, entries =>
    (entries.filter fun e => !f.keepsTable e.references.table).map fun e =>
      .hiddenForeignKey e.name table e.references.table
  | _, _ => []

/-- The reply that is left of a reply to a question. -/
def reply (f : Filter) (q : Query) (r : Reply q.Answer) : Reply q.Answer :=
  match r.result with
  | .ok answer => ⟨.ok (f.restrict q answer), r.events ++ f.hidden q answer⟩
  | .error fault => ⟨.error fault, r.events⟩

end Filter

/-- The source without what a filter hides. -/
def Source.filtered {σ : Type} (source : Source σ) (f : Filter) : Source σ where
  name := source.name
  reply q := do return f.reply q (← source.reply q)

/-- The source behind several filters, the first of them being the innermost. -/
def Source.filteredAll {σ : Type} (source : Source σ) (filters : List Filter) : Source σ :=
  filters.foldl Source.filtered source

end DetachedSchema

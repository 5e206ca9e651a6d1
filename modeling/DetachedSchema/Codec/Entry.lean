import DetachedSchema.Codec
import DetachedSchema.Entry
import DetachedSchema.Ident

/-!
# Codecs of entries

How paths, ids, data types, descriptors and the entries of a source are written.
-/

namespace DetachedSchema

/-! ### Paths and ids -/

/-- How the path of a schema is written. -/
def SchemaPath.codec : Codec SchemaPath :=
  .record "SchemaPath"
    (.more "catalog" .text (.default "") <|
     .more "schema" .text .required .nil)
    (fun (catalog, schema, _) => ⟨catalog, schema⟩)
    (fun p => (p.catalog, p.schema, ()))

/-- How the path of a table is written. -/
def TablePath.codec : Codec TablePath :=
  .record "TablePath"
    (.more "catalog" .text (.default "") <|
     .more "schema" .text .required <|
     .more "table" .text .required .nil)
    (fun (catalog, schema, table, _) => ⟨catalog, schema, table⟩)
    (fun p => (p.catalog, p.schema, p.table, ()))

/-- How the id of a catalog is written: as its place alone. -/
def CatalogId.codec : Codec CatalogId := .map .count CatalogId.mk CatalogId.index

/-- How the id of a schema is written. -/
def SchemaId.codec : Codec SchemaId :=
  .record "SchemaId"
    (.more "catalog" .count .required <|
     .more "schema" .count .required .nil)
    (fun (catalog, schema, _) => ⟨catalog, schema⟩)
    (fun i => (i.catalog, i.schema, ()))

/-- How the id of a table is written. -/
def TableId.codec : Codec TableId :=
  .record "TableId"
    (.more "catalog" .count .required <|
     .more "schema" .count .required <|
     .more "table" .count .required .nil)
    (fun (catalog, schema, table, _) => ⟨catalog, schema, table⟩)
    (fun i => (i.catalog, i.schema, i.table, ()))

/-- How the id of a unique key is written. -/
def KeyId.codec : Codec KeyId :=
  .record "KeyId"
    (.more "table" TableId.codec .required <|
     .more "key" .count .required .nil)
    (fun (table, key, _) => ⟨table, key⟩)
    (fun i => (i.table, i.key, ()))

/-! ### Data types and descriptors -/

/-- How a data type is written. -/
def DataType.codec : Codec DataType :=
  .record "DataType"
    (.more "name" .text .required <|
     .more "length" (.option .word32) .omitted <|
     .more "precision" (.option .word32) .omitted <|
     .more "scale" (.option .word32) .omitted <|
     .more "nullable" .bool (.default true) <|
     .more "identity" .bool (.default false) <|
     .more "default" (.option .text) .omitted .nil)
    (fun (name, length, precision, scale, nullable, identity, defaultValue, _) =>
      ⟨name, length, precision, scale, nullable, identity, defaultValue⟩)
    (fun t => (t.name, t.length, t.precision, t.scale, t.nullable, t.identity, t.defaultValue, ()))

/-- The name of a table kind in documents. -/
def TableKind.name : TableKind → String
  | .table => "table"
  | .view => "view"
  | .materializedView => "materialized_view"
  | .temporary => "temporary"
  | .function => "function"
  | .expression => "expression"
  | .unknown => "unknown"

/-- How a table kind is written. -/
def TableKind.codec : Codec TableKind :=
  .oneOf [.table, .view, .materializedView, .temporary, .function, .expression, .unknown] name

/-- How table options are written. -/
def TableOptions.codec : Codec TableOptions :=
  .record "TableOptions"
    (.more "kind" TableKind.codec (.default .table) <|
     .more "source" (.option .text) .omitted .nil)
    (fun (kind, source, _) => ⟨kind, source⟩)
    (fun o => (o.kind, o.source, ()))

/-- The name of a direction in documents. -/
def SortOrder.name : SortOrder → String
  | .ascending => "asc"
  | .descending => "desc"

/-- How a direction is written. -/
def SortOrder.codec : Codec SortOrder := .oneOf [.ascending, .descending] name

/-- How a check constraint is written. -/
def Check.codec : Codec Check :=
  .record "Check"
    (.more "name" .text .required <|
     .more "condition" .text .required <|
     .more "enforced" .bool (.default true) .nil)
    (fun (name, condition, enforced, _) => ⟨name, condition, enforced⟩)
    (fun c => (c.name, c.condition, c.enforced, ()))

/-! ### Entries -/

/-- How the entry of a catalog is written. -/
def CatalogEntry.codec : Codec CatalogEntry :=
  .record "CatalogMeta"
    (.more "name" .text .required <|
     .more "comment" .text (.default "") .nil)
    (fun (name, comment, _) => ⟨name, comment⟩)
    (fun e => (e.name, e.comment, ()))

/-- How the entry of a schema is written. -/
def SchemaEntry.codec : Codec SchemaEntry :=
  .record "SchemaMeta"
    (.more "name" .text .required <|
     .more "comment" .text (.default "") .nil)
    (fun (name, comment, _) => ⟨name, comment⟩)
    (fun e => (e.name, e.comment, ()))

/-- How the entry of a domain is written. -/
def DomainEntry.codec : Codec DomainEntry :=
  .record "DomainMeta"
    (.more "name" .text .required <|
     .more "data_type" DataType.codec .required <|
     .more "checks" (.list Check.codec) (.default []) .nil)
    (fun (name, dataType, checks, _) => ⟨name, dataType, checks⟩)
    (fun e => (e.name, e.dataType, e.checks, ()))

/-- How the entry of a table is written. -/
def TableEntry.codec : Codec TableEntry :=
  .record "TableMeta"
    (.more "name" .text .required <|
     .more "comment" .text (.default "") <|
     .more "options" TableOptions.codec (.default {}) .nil)
    (fun (name, comment, options, _) => ⟨name, comment, options⟩)
    (fun e => (e.name, e.comment, e.options, ()))

/-- How the entry of a column is written. -/
def ColumnEntry.codec : Codec ColumnEntry :=
  .record "FieldMeta"
    (.more "name" .text .required <|
     .more "data_type" DataType.codec .required <|
     .more "comment" .text (.default "") .nil)
    (fun (name, dataType, comment, _) => ⟨name, dataType, comment⟩)
    (fun e => (e.name, e.dataType, e.comment, ()))

/-- How a column of an index is written. -/
def SortedColumnEntry.codec : Codec SortedColumnEntry :=
  .record "SortFieldMeta"
    (.more "name" .text .required <|
     .more "order" SortOrder.codec (.default .ascending) .nil)
    (fun (name, order, _) => ⟨name, order⟩)
    (fun e => (e.name, e.order, ()))

/-- How the entry of an index is written. -/
def IndexEntry.codec : Codec IndexEntry :=
  .record "IndexMeta"
    (.more "name" .text .required <|
     .more "fields" (.list SortedColumnEntry.codec) .required <|
     .more "unique" .bool (.default false) .nil)
    (fun (name, columns, unique, _) => ⟨name, columns, unique⟩)
    (fun e => (e.name, e.columns, e.unique, ()))

/-- How the entry of a unique key is written. -/
def KeyEntry.codec : Codec KeyEntry :=
  .record "KeyMeta"
    (.more "name" .text .required <|
     .more "fields" (.list .text) .required <|
     .more "enforced" .bool (.default true) .nil)
    (fun (name, columns, enforced, _) => ⟨name, columns, enforced⟩)
    (fun e => (e.name, e.columns, e.enforced, ()))

/-- How a reference to a unique key is written. -/
def KeyReference.codec : Codec KeyReference :=
  .record "KeyReference"
    (.more "table" TablePath.codec .required <|
     .more "fields" (.list .text) .required .nil)
    (fun (table, columns, _) => ⟨table, columns⟩)
    (fun r => (r.table, r.columns, ()))

/-- How the entry of a foreign key is written. -/
def ForeignKeyEntry.codec : Codec ForeignKeyEntry :=
  .record "ForeignKeyMeta"
    (.more "name" .text .required <|
     .more "fields" (.list .text) .required <|
     .more "enforced" .bool (.default true) <|
     .more "references" KeyReference.codec .required .nil)
    (fun (name, columns, enforced, references, _) => ⟨name, columns, enforced, references⟩)
    (fun e => (e.name, e.columns, e.enforced, e.references, ()))

/-- How the entry of a sequence is written. -/
def SequenceEntry.codec : Codec SequenceEntry :=
  .record "SequenceMeta"
    (.more "name" .text .required <|
     .more "data_type" DataType.codec .required <|
     .more "start_with" (.option .int64) (.default none) <|
     .more "increment_by" (.option .int64) (.default none) <|
     .more "min_value" (.option .int64) (.default none) <|
     .more "max_value" (.option .int64) (.default none) <|
     .more "cycle" .bool (.default false) <|
     .more "cache" (.option .int64) (.default none) <|
     .more "live" .bool (.default false) .nil)
    (fun (name, dataType, startWith, incrementBy, minValue, maxValue, cycle, cache, live, _) =>
      ⟨name, dataType, startWith, incrementBy, minValue, maxValue, cycle, cache, live⟩)
    (fun e => (e.name, e.dataType, e.startWith, e.incrementBy, e.minValue, e.maxValue, e.cycle,
      e.cache, e.live, ()))

/-- How the entry of a user-defined type is written. -/
def UserTypeEntry.codec : Codec UserTypeEntry :=
  .record "UdtMeta"
    (.more "name" .text .required <|
     .more "package" (.option .text) (.default none) <|
     .more "synthetic" .bool (.default false) <|
     .more "attributes" (.list ColumnEntry.codec) (.default []) .nil)
    (fun (name, package, synthetic, attributes, _) => ⟨name, package, synthetic, attributes⟩)
    (fun e => (e.name, e.package, e.synthetic, e.attributes, ()))

end DetachedSchema

import DetachedSchema.Codec.Entry
import DetachedSchema.Snapshot.Stats

/-!
# Codecs of snapshots

How the entities of a snapshot and their counts are written.
-/

namespace DetachedSchema

/-- How a domain is written. -/
def Domain.codec : Codec Domain :=
  .record "Domain"
    (.more "schema" SchemaId.codec .required <|
     .more "name" .text .required <|
     .more "data_type" DataType.codec .required <|
     .more "checks" (.list Check.codec) .required .nil)
    (fun (schema, name, dataType, checks, _) => ⟨schema, name, dataType, checks⟩)
    (fun d => (d.schema, d.name, d.dataType, d.checks, ()))

/-- How a sequence is written. -/
def Sequence.codec : Codec Sequence :=
  .record "Sequence"
    (.more "schema" SchemaId.codec .required <|
     .more "name" .text .required <|
     .more "data_type" DataType.codec .required <|
     .more "start_with" (.option .int64) .optional <|
     .more "increment_by" (.option .int64) .optional <|
     .more "min_value" (.option .int64) .optional <|
     .more "max_value" (.option .int64) .optional <|
     .more "cycle" .bool .required <|
     .more "cache" (.option .int64) .optional .nil)
    (fun (schema, name, dataType, startWith, incrementBy, minValue, maxValue, cycle, cache, _) =>
      ⟨schema, name, dataType, startWith, incrementBy, minValue, maxValue, cycle, cache⟩)
    (fun q => (q.schema, q.name, q.dataType, q.startWith, q.incrementBy, q.minValue, q.maxValue,
      q.cycle, q.cache, ()))

/-- How an attribute is written. -/
def Attribute.codec : Codec Attribute :=
  .record "Attribute"
    (.more "name" .text .required <|
     .more "data_type" DataType.codec .required <|
     .more "comment" .text .required .nil)
    (fun (name, dataType, comment, _) => ⟨name, dataType, comment⟩)
    (fun a => (a.name, a.dataType, a.comment, ()))

/-- How a user-defined type is written. -/
def UserType.codec : Codec UserType :=
  .record "Udt"
    (.more "schema" SchemaId.codec .required <|
     .more "name" .text .required <|
     .more "package" (.option .text) .optional <|
     .more "synthetic" .bool .required <|
     .more "attributes" (.list Attribute.codec) .required .nil)
    (fun (schema, name, package, synthetic, attributes, _) =>
      ⟨schema, name, package, synthetic, attributes⟩)
    (fun u => (u.schema, u.name, u.package, u.synthetic, u.attributes, ()))

/-- How a column is written. -/
def Column.codec : Codec Column :=
  .record "Field"
    (.more "table" TableId.codec .required <|
     .more "position" .count .required <|
     .more "name" .text .required <|
     .more "data_type" DataType.codec .required <|
     .more "comment" .text .required .nil)
    (fun (table, position, name, dataType, comment, _) =>
      ⟨table, position, name, dataType, comment⟩)
    (fun c => (c.table, c.position, c.name, c.dataType, c.comment, ()))

/-- How a column of an index is written. -/
def IndexColumn.codec : Codec IndexColumn :=
  .record "IndexField"
    (.more "field" .count .required <|
     .more "order" SortOrder.codec .required .nil)
    (fun (column, order, _) => ⟨column, order⟩)
    (fun c => (c.column, c.order, ()))

/-- How an index is written. -/
def Index.codec : Codec Index :=
  .record "Index"
    (.more "table" TableId.codec .required <|
     .more "name" .text .required <|
     .more "fields" (.list IndexColumn.codec) .required <|
     .more "unique" .bool .required .nil)
    (fun (table, name, columns, unique, _) => ⟨table, name, columns, unique⟩)
    (fun i => (i.table, i.name, i.columns, i.unique, ()))

/-- How a unique key is written. -/
def UniqueKey.codec : Codec UniqueKey :=
  .record "UniqueKey"
    (.more "id" KeyId.codec .required <|
     .more "name" .text .required <|
     .more "fields" (.list .count) .required <|
     .more "enforced" .bool .required .nil)
    (fun (id, name, columns, enforced, _) => ⟨id, name, columns, enforced⟩)
    (fun k => (k.id, k.name, k.columns, k.enforced, ()))

/-- How a foreign key is written. -/
def ForeignKey.codec : Codec ForeignKey :=
  .record "ForeignKey"
    (.more "table" TableId.codec .required <|
     .more "name" .text .required <|
     .more "fields" (.list .count) .required <|
     .more "enforced" .bool .required <|
     .more "key" KeyId.codec .required .nil)
    (fun (table, name, columns, enforced, key, _) => ⟨table, name, columns, enforced, key⟩)
    (fun k => (k.table, k.name, k.columns, k.enforced, k.key, ()))

/-- How the identity of a table is written. -/
def Identity.codec : Codec Identity :=
  .record "Identity"
    (.more "table" TableId.codec .required <|
     .more "field" .count .required .nil)
    (fun (table, column, _) => ⟨table, column⟩)
    (fun i => (i.table, i.column, ()))

/-- How a table is written. -/
def Table.codec : Codec Table :=
  .record "Table"
    (.more "id" TableId.codec .required <|
     .more "path" TablePath.codec .required <|
     .more "comment" .text .required <|
     .more "options" TableOptions.codec .required <|
     .more "fields" (.list Column.codec) .required <|
     .more "indexes" (.list Index.codec) .required <|
     .more "unique_keys" (.list UniqueKey.codec) .required <|
     .more "primary_key" (.option .count) .optional <|
     .more "foreign_keys" (.list ForeignKey.codec) .required <|
     .more "checks" (.list Check.codec) .required <|
     .more "identity" (.option Identity.codec) .optional .nil)
    (fun (id, path, comment, options, columns, indexes, uniqueKeys, primaryKeyPlace, foreignKeys,
        checks, identity, _) =>
      ⟨id, path, comment, options, columns, indexes, uniqueKeys, primaryKeyPlace, foreignKeys,
        checks, identity⟩)
    (fun t => (t.id, t.path, t.comment, t.options, t.columns, t.indexes, t.uniqueKeys,
      t.primaryKeyPlace, t.foreignKeys, t.checks, t.identity, ()))

/-- How a schema is written. -/
def Schema.codec : Codec Schema :=
  .record "Schema"
    (.more "id" SchemaId.codec .required <|
     .more "name" .text .required <|
     .more "comment" .text .required <|
     .more "domains" (.list Domain.codec) .required <|
     .more "tables" (.list Table.codec) .required <|
     .more "sequences" (.list Sequence.codec) .required <|
     .more "udts" (.list UserType.codec) .required .nil)
    (fun (id, name, comment, domains, tables, sequences, userTypes, _) =>
      ⟨id, name, comment, domains, tables, sequences, userTypes⟩)
    (fun s => (s.id, s.name, s.comment, s.domains, s.tables, s.sequences, s.userTypes, ()))

/-- How a catalog is written. -/
def Catalog.codec : Codec Catalog :=
  .record "Catalog"
    (.more "id" CatalogId.codec .required <|
     .more "name" .text .required <|
     .more "comment" .text .required <|
     .more "schemas" (.list Schema.codec) .required .nil)
    (fun (id, name, comment, schemas, _) => ⟨id, name, comment, schemas⟩)
    (fun c => (c.id, c.name, c.comment, c.schemas, ()))

/-- How a snapshot is written. -/
def Snapshot.codec : Codec Snapshot :=
  .record "Snapshot"
    (.more "catalogs" (.list Catalog.codec) .required .nil)
    (fun (catalogs, _) => ⟨catalogs⟩)
    (fun s => (s.catalogs, ()))

/-- How counts are written. -/
def Stats.codec : Codec Stats :=
  .record "SnapshotStats"
    (.more "catalogs" .count .required <|
     .more "schemas" .count .required <|
     .more "domains" .count .required <|
     .more "tables" .count .required <|
     .more "fields" .count .required <|
     .more "indexes" .count .required <|
     .more "unique_keys" .count .required <|
     .more "primary_keys" .count .required <|
     .more "foreign_keys" .count .required <|
     .more "checks" .count .required <|
     .more "sequences" .count .required <|
     .more "udts" .count .required .nil)
    (fun (catalogs, schemas, domains, tables, columns, indexes, uniqueKeys, primaryKeys,
        foreignKeys, checks, sequences, userTypes, _) =>
      ⟨catalogs, schemas, domains, tables, columns, indexes, uniqueKeys, primaryKeys, foreignKeys,
        checks, sequences, userTypes⟩)
    (fun s => (s.catalogs, s.schemas, s.domains, s.tables, s.columns, s.indexes, s.uniqueKeys,
      s.primaryKeys, s.foreignKeys, s.checks, s.sequences, s.userTypes, ()))

end DetachedSchema

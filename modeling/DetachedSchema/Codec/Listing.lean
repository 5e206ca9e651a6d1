import DetachedSchema.Codec.Entry
import DetachedSchema.Listing.Basic

/-!
# Codecs of listings

How listings are written.
-/

namespace DetachedSchema

/-- How a table with all that it owns is written. -/
def TableListing.codec : Codec TableListing :=
  .record "TableDef"
    (.more "name" .text .required <|
     .more "comment" .text (.default "") <|
     .more "options" TableOptions.codec (.default {}) <|
     .more "fields" (.list ColumnEntry.codec) (.default []) <|
     .more "indexes" (.list IndexEntry.codec) (.default []) <|
     .more "unique_keys" (.list KeyEntry.codec) (.default []) <|
     .more "primary_key" (.option KeyEntry.codec) (.default none) <|
     .more "foreign_keys" (.list ForeignKeyEntry.codec) (.default []) <|
     .more "checks" (.list Check.codec) (.default []) .nil)
    (fun (name, comment, options, columns, indexes, uniqueKeys, primaryKey, foreignKeys, checks,
        _) =>
      ⟨name, comment, options, columns, indexes, uniqueKeys, primaryKey, foreignKeys, checks⟩)
    (fun t => (t.name, t.comment, t.options, t.columns, t.indexes, t.uniqueKeys, t.primaryKey,
      t.foreignKeys, t.checks, ()))

/-- How a schema with all that it owns is written. -/
def SchemaListing.codec : Codec SchemaListing :=
  .record "SchemaDef"
    (.more "name" .text .required <|
     .more "comment" .text (.default "") <|
     .more "domains" (.list DomainEntry.codec) (.default []) <|
     .more "tables" (.list TableListing.codec) (.default []) <|
     .more "sequences" (.list SequenceEntry.codec) (.default []) <|
     .more "udts" (.list UserTypeEntry.codec) (.default []) .nil)
    (fun (name, comment, domains, tables, sequences, userTypes, _) =>
      ⟨name, comment, domains, tables, sequences, userTypes⟩)
    (fun s => (s.name, s.comment, s.domains, s.tables, s.sequences, s.userTypes, ()))

/-- How a catalog with its schemas is written. -/
def CatalogListing.codec : Codec CatalogListing :=
  .record "CatalogDef"
    (.more "name" .text (.default "") <|
     .more "comment" .text (.default "") <|
     .more "schemas" (.list SchemaListing.codec) (.default []) .nil)
    (fun (name, comment, schemas, _) => ⟨name, comment, schemas⟩)
    (fun c => (c.name, c.comment, c.schemas, ()))

/-- How a listing is written. -/
def Listing.codec : Codec Listing :=
  .record "MetaDocument"
    (.more "catalogs" (.list CatalogListing.codec) (.default []) .nil)
    (fun (catalogs, _) => ⟨catalogs⟩)
    (fun l => (l.catalogs, ()))

end DetachedSchema

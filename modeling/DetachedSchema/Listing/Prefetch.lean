import DetachedSchema.Detach
import DetachedSchema.Listing.Source

/-!
# Prefetching

A source that cannot be walked while a snapshot is built is read into a listing first.  Prefetching
asks for every node once, in the order in which detaching would.
-/

namespace DetachedSchema

namespace Prefetch

/-- Reads a table. -/
def table (path : TablePath) (e : TableEntry) : Script TableListing := do
  let columns ← Script.query (.columns path)
  let indexes ← Script.query (.indexes path)
  let uniqueKeys ← Script.query (.uniqueKeys path)
  let primaryKey ← Script.query (.primaryKey path)
  let foreignKeys ← Script.query (.foreignKeys path)
  let checks ← Script.query (.checks path)
  return ⟨e.name, e.comment, e.options, columns, indexes, uniqueKeys, primaryKey, foreignKeys,
    checks⟩

/-- Reads a schema with its tables. -/
def schema (path : SchemaPath) (e : SchemaEntry) : Script SchemaListing := do
  Script.log (.prefetchingSchema path)
  let domains ← Script.query (.domains path)
  let tables ← Script.query (.tables path)
  let tables ← tables.mapM fun t => table (path.table t.name) t
  let sequences ← Script.query (.sequences path)
  let userTypes ← Script.query (.userTypes path)
  return ⟨e.name, e.comment, domains, tables, sequences, userTypes⟩

/-- Reads a catalog with its schemas. -/
def catalog (e : CatalogEntry) : Script CatalogListing := do
  let schemas ← Script.query (.schemas e.name)
  let schemas ← schemas.mapM fun s => schema ⟨e.name, s.name⟩ s
  return ⟨e.name, e.comment, schemas⟩

/-- Reads everything; `name` is the name of the source. -/
def script (name : String) : Script Listing := do
  Script.log (.prefetching name)
  let catalogs ← Script.query .catalogs
  return ⟨← catalogs.mapM catalog⟩

end Prefetch

/-- Reads a source into a listing. -/
def prefetch {σ : Type} (source : Source σ) : StateM σ (Script.Run Listing) :=
  (Prefetch.script source.name).run source

/-- Reads a source into a listing and detaches that. -/
def detachPrefetched {σ : Type} (source : Source σ) : StateM σ (Script.Run Snapshot) := do
  let fetched ← prefetch source
  match fetched.result with
  | .error fault => return { fetched with result := .error fault }
  | .ok listing =>
    let detached := (detach listing.source ()).1
    return { detached with
      calls := fetched.calls
      events := fetched.events ++ detached.events }

end DetachedSchema

import DetachedSchema.Detach.KeyIndex
import DetachedSchema.Detach.Walk
import DetachedSchema.Snapshot.Stats

/-!
# Detaching

Detaching turns the metadata that a source lists into a snapshot that stands on its own.  The first
phase walks the source; the second, which asks nothing, resolves the foreign keys that were put
aside against the unique keys that were copied.  Either everything is copied and resolved, or there
is a fault.
-/

namespace DetachedSchema

namespace Detach

/-- The fault of a foreign key that refers to no copied key. -/
def unresolved (k : PendingKey) : Fault :=
  .unresolvedReference k.name k.path.text k.references.table.text
    (", ".intercalate k.references.columns)

/-- Resolves a foreign key.  It needs as many columns as the key that it refers to. -/
def resolve (index : KeyIndex) (k : PendingKey) : Script ForeignKey :=
  match index.find? k.references with
  | some key =>
    if k.columns.length = k.references.columns.length then do
      Script.log (.resolvedKey k.path k.name k.references.table)
      return k.resolve key
    else Script.throw (unresolved k)
  | none => Script.throw (unresolved k)

/-- Gives a table the foreign keys that are its own. -/
def attachTable (keys : List ForeignKey) (t : Table) : Table :=
  { t with foreignKeys := t.foreignKeys ++ keys.filter (·.table = t.id) }

/-- Gives every table of a catalog the foreign keys that are its own. -/
def attach (keys : List ForeignKey) (c : Catalog) : Catalog :=
  { c with
    schemas := c.schemas.map fun s => { s with tables := s.tables.map (attachTable keys) } }

/-- The second phase: resolves the foreign keys that were put aside. -/
def resolveAll (draft : Draft (List Catalog)) : Script Snapshot := do
  let index := KeyIndex.ofTables (Snapshot.tables ⟨draft.content⟩)
  Script.log (.indexedKeys index.size)
  let keys ← draft.pending.mapM (resolve index)
  return ⟨draft.content.map (attach keys)⟩

/-- Both phases; `name` is the name of the source. -/
def script (name : String) : Script Snapshot := do
  Script.log (.copying name)
  let draft ← Walk.copyAll
  Script.log (.resolving draft.pending.length)
  let s ← resolveAll draft
  let counts := s.stats
  Script.log (.detached counts.catalogs counts.schemas counts.tables counts.foreignKeys name)
  return s

end Detach

/-- Detaches what a source lists. -/
def detach {σ : Type} (source : Source σ) : StateM σ (Script.Run Snapshot) :=
  (Detach.script source.name).run source

/-- The snapshot of a source that has no states. -/
def Source.snapshot (source : Source Unit) : Except Fault Snapshot := (detach source ()).1.result

end DetachedSchema

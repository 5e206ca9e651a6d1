import DetachedSchema.Format
import DetachedSchema.Snapshot.Consistency
import DetachedSchema.Snapshot.Fingerprint
import DetachedSchema.Timestamp

/-!
# Envelopes

A snapshot is stored in an envelope that tells what is needed to trust it when it is read back: the
version of its layout, when and from what it was taken, its fingerprint and its counts.
-/

namespace DetachedSchema

/-- How a moment is written. -/
def Timestamp.codec : Codec Timestamp :=
  .notated "an RFC 3339 formatted date and time string" text fun s =>
    (read s).mapError Fault.message

/-- A snapshot with what is needed to trust it. -/
structure Envelope where
  /-- The version of the layout. -/
  version : UInt32
  created : Timestamp
  /-- What the metadata was read from. -/
  source : String
  fingerprint : String
  stats : Stats
  snapshot : Snapshot
deriving DecidableEq

namespace Envelope

/-- How an envelope is written. -/
def codec : Codec Envelope :=
  .record "SnapshotDocument"
    (.more "format_version" .word32 .required <|
     .more "created_at" Timestamp.codec .required <|
     .more "source" .text .required <|
     .more "fingerprint" .text .required <|
     .more "stats" Stats.codec .required <|
     .more "snapshot" Snapshot.codec .required .nil)
    (fun (version, created, source, fingerprint, stats, snapshot, _) =>
      ⟨version, created, source, fingerprint, stats, snapshot⟩)
    (fun e => (e.version, e.created, e.source, e.fingerprint, e.stats, e.snapshot, ()))

/-- The version of the layout that is written here. -/
def currentVersion : UInt32 := 1

/-- The envelope of a snapshot. -/
def wrap (snapshot : Snapshot) (source : String) (created : Timestamp) : Envelope where
  version := currentVersion
  created := created
  source := source
  fingerprint := snapshot.fingerprint
  stats := snapshot.stats
  snapshot := snapshot

/-- Finds the first thing that is wrong with an envelope. -/
def check (e : Envelope) : Except Defect Unit := do
  unless e.version = currentVersion do
    throw (.version e.version.toNat currentVersion.toNat)
  e.snapshot.check
  unless e.snapshot.fingerprint = e.fingerprint do
    throw (.fingerprint e.fingerprint e.snapshot.fingerprint)
  unless e.snapshot.stats = e.stats do throw .stats

/-- Refuses an envelope that does not describe its snapshot. -/
def verify (e : Envelope) : Except Fault Unit := e.check.mapError .invalidSnapshot

/-- Reads an envelope and verifies it. -/
def read (format : Format) (text : String) : Except Fault Envelope := do
  let e ← format.read codec text
  e.verify
  return e

/-- Writes an envelope. -/
def write (e : Envelope) (format : Format) (isPretty : Bool) : String :=
  format.write codec isPretty e

end Envelope

/-- Reads a snapshot without envelope from JSON and validates it. -/
def Snapshot.ofJson (text : String) : Except Fault Snapshot := do
  let s ← Format.json.read Snapshot.codec text
  s.validate
  return s

end DetachedSchema

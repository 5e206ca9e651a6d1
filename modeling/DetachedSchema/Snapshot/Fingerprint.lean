import DetachedSchema.Codec.Snapshot
import DetachedSchema.Digest.Sha256

/-!
# Fingerprints

The fingerprint of a snapshot is the SHA-256 digest of its JSON form without blanks, so equal
snapshots have equal fingerprints whatever format they were stored in.
-/

namespace DetachedSchema

/-- The digest of the snapshot in base sixteen. -/
def Snapshot.fingerprint (s : Snapshot) : String :=
  Digest.Sha256.text (Snapshot.codec.toJson false s).toUTF8.toList

end DetachedSchema

import DetachedSchema.Proofs.Codec.Records
import DetachedSchema.Proofs.Digest
import DetachedSchema.Proofs.Envelope.Verification
import DetachedSchema.Proofs.Json.Injective

/-!
# Tampering

An envelope that has been verified is refused when one of its parts is replaced by another.  For the
snapshot this needs that different snapshots have different bytes, so that equal fingerprints would
be a collision of the digest.
-/

namespace DetachedSchema

/-! ### The bytes of a snapshot -/

theorem toList_loop_eq (bytes : ByteArray) (i : Nat) (done : List UInt8) :
  ByteArray.toList.loop bytes i done = done.reverse ++ bytes.data.toList.drop i
  := by
  fun_induction ByteArray.toList.loop bytes i done with
  | case1 i done h ih =>
    have hi : i < bytes.data.toList.length := h
    rw [ih, List.drop_eq_getElem_cons hi, List.reverse_cons, List.append_assoc]
    have hbyte : bytes.get! i = bytes.data.toList[i] := getElem!_pos bytes.data i h
    rw [hbyte]
    rfl
  | case2 i done h =>
    have hi : bytes.data.toList.length ≤ i := Nat.le_of_not_lt h
    rw [List.drop_eq_nil_of_le hi, List.append_nil]

theorem toList_eq_data (bytes : ByteArray) :
  bytes.toList = bytes.data.toList
  := by
  rw [ByteArray.toList, toList_loop_eq, List.reverse_nil, List.nil_append, List.drop_zero]

theorem toList_toUTF8_injective :
  Function.Injective fun s : String => s.toUTF8.toList
  := by
  intro s s' h
  simp only [toList_eq_data] at h
  apply String.toByteArray_inj.mp
  exact ByteArray.ext (Array.toList_inj.mp h)

/-- The bytes whose digest is the fingerprint of a snapshot. -/
def Snapshot.bytes (s : Snapshot) : List UInt8 := (Snapshot.codec.toJson false s).toUTF8.toList

/-- The bytes are those of the characters of the compact document, one after the other. -/
theorem Snapshot.bytes_eq (s : Snapshot) :
  s.bytes = (Json.compact (Snapshot.codec.encode s)).flatMap String.utf8EncodeChar
  := by
  rw [bytes, toList_eq_data]
  exact List.toList_data_toByteArray

theorem Snapshot.bytes_injective :
  Function.Injective bytes
  := by
  intro s s' h
  exact Codec.Lawful.injective (Json.print_injective (toList_toUTF8_injective h))

/-! ### Replaced parts -/

namespace Envelope

open Digest.Sha256 (digest)

/-- A verified envelope with another version, fingerprint, counts or snapshot is refused, for a
snapshot as long as its bytes do not collide with those of the one that was replaced. -/
theorem verify_replaced {e : Envelope} (he : e.verify = .ok ()) :
  (∀ v ≠ e.version, { e with version := v }.verify
    = .error (.invalidSnapshot (.version v.toNat currentVersion.toNat)))
  ∧ (∀ f ≠ e.fingerprint, { e with fingerprint := f }.verify
    = .error (.invalidSnapshot (.fingerprint f e.snapshot.fingerprint)))
  ∧ (∀ counts ≠ e.stats, { e with stats := counts }.verify = .error (.invalidSnapshot .stats))
  ∧ (∀ s ≠ e.snapshot,
    (digest s.bytes = digest e.snapshot.bytes → s.bytes = e.snapshot.bytes) →
      ∃ defect, { e with snapshot := s }.verify = .error (.invalidSnapshot defect))
  ∧ Function.Injective Snapshot.bytes
  := by
  obtain ⟨hversion, hcheck, hfingerprint, hstats⟩ := check_eq_ok.mp (verify_eq_ok.mp he)
  refine ⟨?_, ?_, ?_, ?_, Snapshot.bytes_injective⟩
  · intro v hv
    have hne : v ≠ currentVersion := hversion ▸ hv
    exact verify_of_version_ne hne
  · intro f hf
    have hne : e.snapshot.fingerprint ≠ f := hfingerprint ▸ hf.symm
    exact verify_of_fingerprint_ne hversion hcheck hne
  · intro counts hcounts
    have hne : e.snapshot.stats ≠ counts := hstats ▸ hcounts.symm
    exact verify_of_stats_ne hversion hcheck hfingerprint hne
  · intro s hs hcollide
    have hne : s.fingerprint ≠ e.fingerprint := by
      intro heq
      rw [← hfingerprint] at heq
      exact hs (Snapshot.bytes_injective (hcollide (Digest.Sha256.digest_eq_of_text_eq heq)))
    apply exists_verify_eq_error
    intro hok
    exact hne (check_eq_ok.mp hok).2.2.1

/-- An envelope of a schema with a single relation, which is of the given kind. -/
def ofRelation (kind : TableKind) : Envelope :=
  let t : Table :=
    { id := ⟨0, 0, 0⟩
      path := ⟨"", "s", "t"⟩
      comment := ""
      options := { kind }
      columns := []
      indexes := []
      uniqueKeys := []
      primaryKeyPlace := none
      foreignKeys := []
      checks := []
      identity := none }
  wrap ⟨[⟨⟨0⟩, "", "", [⟨⟨0, 0⟩, "s", "", [], [t], [], []⟩]⟩]⟩ "db" ⟨2024, 1, 1, 0, 0, 0, 0⟩

/-- A table does not pass for a view, nor does it pass with the version, the fingerprint or the
counts of something else. -/
theorem verify_replaced_relation :
  let e := ofRelation .table
  let other := ofRelation .view
  e.verify = .ok ()
  ∧ { e with version := 2 }.verify = .error (.invalidSnapshot (.version 2 1))
  ∧ { e with fingerprint := other.fingerprint }.verify
    = .error (.invalidSnapshot (.fingerprint other.fingerprint e.fingerprint))
  ∧ { e with stats := Snapshot.empty.stats }.verify = .error (.invalidSnapshot .stats)
  ∧ ∃ defect, { e with snapshot := other.snapshot }.verify = .error (.invalidSnapshot defect)
  := by
  have hverify : (ofRelation .table).verify = .ok () := verify_wrap (by decide +kernel) _ _
  have hdigest : digest (ofRelation .view).snapshot.bytes
      ≠ digest (ofRelation .table).snapshot.bytes := by
    rw [Snapshot.bytes_eq, Snapshot.bytes_eq]
    decide +kernel
  have hfingerprint : (ofRelation .view).fingerprint ≠ (ofRelation .table).fingerprint :=
    fun heq => hdigest (Digest.Sha256.digest_eq_of_text_eq heq)
  obtain ⟨hversion', hfingerprint', hstats', hsnapshot', -⟩ := verify_replaced hverify
  use hverify, hversion' 2 (by decide), hfingerprint' _ hfingerprint
  use hstats' _ (by decide +kernel)
  exact hsnapshot' _ (by decide +kernel) fun heq => absurd heq hdigest

end Envelope

end DetachedSchema

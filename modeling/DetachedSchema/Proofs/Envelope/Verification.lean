import DetachedSchema.Envelope
import DetachedSchema.Proofs.Snapshot.Consistency

/-!
# Verified envelopes

An envelope is verified when its version is the current one, its snapshot is consistent, and its
fingerprint and its counts are those of the snapshot.
-/

namespace DetachedSchema.Envelope

/-- A check that fails unless a condition holds is a requirement. -/
theorem unless_eq_require {p q r : Prop} [Decidable p] [Decidable q] [Decidable r]
    {x : Except Defect Unit} {d d' d'' : Defect} :
  (do
    unless p do throw d
    x
    unless q do throw d'
    unless r do throw d'')
  = (do
    require p d
    x
    require q d'
    require r d'')
  := by
  by_cases hp : p
  · cases x with
    | error defect =>
      simp [hp, require]
      rfl
    | ok u =>
      by_cases hq : q
      · by_cases hr : r
        · simp [hp, hq, hr, require]
          rfl
        · simp [hp, hq, hr, require]
          rfl
      · simp [hp, hq, require]
        rfl
  · simp [hp, require]
    rfl

/-- The verification is a sequence of requirements. -/
theorem check_eq (e : Envelope) :
  e.check = (do
    require (e.version = currentVersion) (.version e.version.toNat currentVersion.toNat)
    e.snapshot.check
    require (e.snapshot.fingerprint = e.fingerprint)
      (.fingerprint e.fingerprint e.snapshot.fingerprint)
    require (e.snapshot.stats = e.stats) .stats)
  := by rw [check, unless_eq_require]

/-- An envelope passes when its version is the current one, its snapshot is consistent, and its
fingerprint and counts are those of the snapshot. -/
theorem check_eq_ok {e : Envelope} :
  e.check = .ok () ↔ e.version = currentVersion ∧ e.snapshot.check = .ok ()
    ∧ e.snapshot.fingerprint = e.fingerprint ∧ e.snapshot.stats = e.stats
  := by simp only [check_eq, then_eq_ok, require_eq_ok, decide_eq_true_eq]

theorem verify_eq_ok {e : Envelope} :
  e.verify = .ok () ↔ e.check = .ok ()
  := by
  rw [verify]
  cases e.check with
  | ok u => simp [Except.mapError]
  | error defect => simp [Except.mapError]

theorem exists_verify_eq_error {e : Envelope} (h : e.check ≠ .ok ()) :
  ∃ defect, e.verify = .error (.invalidSnapshot defect)
  := by
  rw [verify]
  cases hcheck : e.check with
  | ok u => cases h hcheck
  | error defect => exact ⟨defect, rfl⟩

/-! ### What is found first -/

/-- Another version is found before everything else. -/
theorem verify_of_version_ne {e : Envelope} (hversion : e.version ≠ currentVersion) :
  e.verify = .error (.invalidSnapshot (.version e.version.toNat currentVersion.toNat))
  := by
  rw [verify, check_eq, require_false hversion]
  rfl

/-- Another fingerprint is found after a version and a snapshot that pass. -/
theorem verify_of_fingerprint_ne {e : Envelope} (hversion : e.version = currentVersion)
    (hcheck : e.snapshot.check = .ok ())
    (hfingerprint : e.snapshot.fingerprint ≠ e.fingerprint) :
  e.verify = .error (.invalidSnapshot (.fingerprint e.fingerprint e.snapshot.fingerprint))
  := by
  rw [verify, check_eq, require_true hversion, hcheck, require_false hfingerprint]
  rfl

/-- Other counts are found when all else passes. -/
theorem verify_of_stats_ne {e : Envelope} (hversion : e.version = currentVersion)
    (hcheck : e.snapshot.check = .ok ()) (hfingerprint : e.snapshot.fingerprint = e.fingerprint)
    (hstats : e.snapshot.stats ≠ e.stats) :
  e.verify = .error (.invalidSnapshot .stats)
  := by
  rw [verify, check_eq, require_true hversion, hcheck, require_true hfingerprint,
    require_false hstats]
  rfl

/-! ### New envelopes -/

/-- An envelope describes the snapshot that was put in it. -/
theorem verify_wrap {s : Snapshot} (hs : s.validate = .ok ()) (source : String)
    (created : Timestamp) :
  (wrap s source created).verify = .ok ()
  := by
  have hcheck : s.check = .ok () := Snapshot.check_eq_ok.mpr (Snapshot.validate_eq_ok.mp hs)
  exact verify_eq_ok.mpr (check_eq_ok.mpr ⟨rfl, hcheck, rfl, rfl⟩)

end DetachedSchema.Envelope

import DetachedSchema.Proofs.Command
import DetachedSchema.Proofs.Detach.Normal

/-!
# Files that pass the check

A snapshot file is checked by detaching its snapshot once more.  When siblings have names of their
own, just the files with a normal snapshot pass; the others are refused, though they were verified.
-/

namespace DetachedSchema

open DetachedSchema.Action (Yields)

variable {time : Timestamp} {files files' : Files} {printed : String}

/-- An envelope that was read has a snapshot that passes its own check. -/
theorem Envelope.validate_of_read {f : Format} {text : String} {e : Envelope}
    (h : read f text = .ok e) :
  e.snapshot.validate = .ok ()
  := by
  obtain ⟨e', -, hread⟩ := bind_eq_ok.mp h
  obtain ⟨⟨⟩, hverify, he⟩ := bind_eq_ok.mp hread
  obtain rfl := Except.ok.inj he
  obtain ⟨-, hcheck, -⟩ := Envelope.check_eq_ok.mp (Envelope.verify_eq_ok.mp hverify)
  exact Snapshot.validate_eq_ok.mpr (Snapshot.check_eq_ok.mp hcheck)

/-- An envelope is loaded without a change to the files and without printing, and its snapshot
passes its own check. -/
theorem Envelope.exists_of_load {path : String} {e : Envelope}
    (h : Yields time files (load path) e files' printed) :
  files = files' ∧ printed = "" ∧ e.snapshot.validate = .ok ()
  := by
  simp only [load, Action.yields_bind_eq, Action.yields_ofExcept, Action.yields_readFile] at h
  obtain ⟨f, _, _, _, ⟨-, rfl, rfl⟩, ⟨text, _, _, _, ⟨-, rfl, rfl⟩, ⟨hread, rfl, rfl⟩, rfl⟩,
    rfl⟩ := h
  exact ⟨rfl, rfl, validate_of_read hread⟩

namespace Command

/-- The check goes by what the snapshot is detached to. -/
theorem result_checkFile {path : String} {asJson : Bool} {e : Envelope} {s : Snapshot}
    (hload : Yields time files (Envelope.load path) e files "")
    (hs : (DetachedSchema.detach e.snapshot.source ()).1.result = .ok s) :
  ((checkFile path asJson).perform time files).result
    = if s = e.snapshot then .ok () else .error (.invalidSnapshot .unstable)
  := by
  have hlog : Yields time files (Action.log (.loadedSnapshot e.fingerprint path)) () files "" :=
    Action.yields_log.mpr ⟨rfl, rfl⟩
  have hrun : Yields time files (Action.ofRun (DetachedSchema.detach e.snapshot.source ()).1) s
      files "" := Action.yields_ofRun.mpr ⟨hs, rfl, rfl⟩
  rw [checkFile, hload.result_bind, hlog.result_bind, hrun.result_bind]
  by_cases heq : s = e.snapshot
  · rw [if_neg (not_not_intro heq), if_pos heq]
    exact (yields_report.mpr ⟨rfl, rfl⟩).result_eq
  · rw [if_pos heq, if_neg heq]
    rfl

end Command

/-- A snapshot that passes its check, and whose siblings have names of their own, can be detached,
and it is detached to itself when it is normal.  So a file with such a snapshot passes the check
when the snapshot is normal, and else it is refused as unstable. -/
theorem detach_normal :
  (∀ s : Snapshot, s.validate = .ok () → s.DistinctNames →
    ∃ s', (detach s.source ()).1.result = .ok s' ∧ (s' = s ↔ s.IsNormal))
  ∧ ∀ (time : Timestamp) (files : Files) (settingsPath : Option String) (asJson : Bool)
      (path : String) (e : Envelope),
    ((Envelope.load path).perform time files).result = .ok e → e.snapshot.DistinctNames →
    ((Command.run settingsPath asJson (.check path)).perform time files).result
      = if e.snapshot.IsNormal then .ok () else .error (.invalidSnapshot .unstable)
  := by
  constructor
  · intro s hs hdistinct
    have hconsistent := Snapshot.validate_eq_ok.mp hs
    use s.listing.snapshot, hconsistent.detach_eq_ok hdistinct
    exact hconsistent.snapshot_listing_iff hdistinct
  · intro time files settingsPath asJson path e hload hdistinct
    have hyields : Yields time files (Envelope.load path) e _ _ := ⟨hload, rfl, rfl⟩
    obtain ⟨hfiles, hprinted, hs⟩ := Envelope.exists_of_load hyields
    rw [← hfiles, hprinted] at hyields
    have hconsistent := Snapshot.validate_eq_ok.mp hs
    have hresult := hconsistent.detach_eq_ok hdistinct
    apply (Command.result_checkFile hyields hresult).trans
    simp only [hconsistent.snapshot_listing_iff hdistinct]

/-- A table with two keys over one column, and with a foreign key that refers to one of them. -/
def Snapshot.selfReference (place : Nat) : Snapshot :=
  let id : TableId := ⟨0, 0, 0⟩
  let t : Table :=
    { id
      path := ⟨"", "s", "t"⟩
      comment := ""
      options := {}
      columns := [⟨id, 0, "id", { name := "int" }, ""⟩]
      indexes := []
      uniqueKeys := [⟨⟨id, 0⟩, "pk", [0], true⟩, ⟨⟨id, 1⟩, "uk", [0], true⟩]
      primaryKeyPlace := some 0
      foreignKeys := [⟨id, "fk", [0], true, ⟨id, place⟩⟩]
      checks := []
      identity := none }
  ⟨[⟨⟨0⟩, "", "", [⟨⟨0, 0⟩, "s", "", [], [t], [], []⟩]⟩]⟩

/-- A reference to the first key is found again, and one to the second key is not, so a file with
the latter is refused, though it was verified. -/
theorem detach_normal_selfReference :
  (∃ s, (detach (Snapshot.selfReference 0).source ()).1.result = .ok s
    ∧ s = Snapshot.selfReference 0)
  ∧ (∃ s, (detach (Snapshot.selfReference 1).source ()).1.result = .ok s
    ∧ s ≠ Snapshot.selfReference 1)
  ∧ ∃ files e, ((Envelope.load "out.json").perform ⟨2024, 1, 1, 0, 0, 0, 0⟩ files).result = .ok e
    ∧ e.snapshot = Snapshot.selfReference 1
    ∧ ((Command.run none false (.check "out.json")).perform ⟨2024, 1, 1, 0, 0, 0, 0⟩ files).result
      = .error (.invalidSnapshot .unstable)
  := by
  obtain ⟨hdetach, hcheck⟩ := detach_normal
  have hdistinct : ∀ place, (Snapshot.selfReference place).DistinctNames := by
    intro place
    constructor
    case catalogs => apply List.nodup_singleton
    case schemas => simp [Snapshot.selfReference]
    case tables => simp [Snapshot.selfReference]
  have hvalid : (Snapshot.selfReference 1).validate = .ok () := by decide +kernel
  have hnormal : ¬ (Snapshot.selfReference 1).IsNormal := by decide +kernel
  constructor
  · obtain ⟨s, hs, hself⟩ := hdetach (Snapshot.selfReference 0) (by decide +kernel) (hdistinct 0)
    exact ⟨s, hs, hself.mpr (by decide +kernel)⟩
  constructor
  · obtain ⟨s, hs, hself⟩ := hdetach (Snapshot.selfReference 1) hvalid (hdistinct 1)
    exact ⟨s, hs, hself.not.mpr hnormal⟩
  · let e := Envelope.wrap (Snapshot.selfReference 1) "" ⟨2024, 1, 1, 0, 0, 0, 0⟩
    obtain ⟨files, hfiles⟩ : ∃ files, Files.write {} "out.json" (e.write .json false) = .ok files :=
      isOk_iff.mp (by decide +kernel)
    have hfits : (Snapshot.selfReference 1).stats.Fits := by constructor <;> decide
    have htime : (⟨2024, 1, 1, 0, 0, 0, 0⟩ : Timestamp).Valid := by constructor <;> decide
    have hread : Envelope.read .json (e.write .json false) = .ok e :=
      Envelope.read_write_wrap hvalid hfits "" htime .json false
    have hload : Yields ⟨2024, 1, 1, 0, 0, 0, 0⟩ files (Envelope.load "out.json") e files "" :=
      Command.yields_loadEnvelope (by decide +kernel) (Files.read_write hfiles) hread
    use files, e, hload.result_eq, rfl
    rw [hcheck _ _ none false _ e hload.result_eq (hdistinct 1)]
    exact if_neg hnormal

end DetachedSchema

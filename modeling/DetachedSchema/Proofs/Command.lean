import DetachedSchema.Command
import DetachedSchema.Proofs.Action
import DetachedSchema.Proofs.Detach.Consistency
import DetachedSchema.Proofs.Detach.Filtered
import DetachedSchema.Proofs.Detach.FixedPoint
import DetachedSchema.Proofs.Envelope.RoundTrip
import DetachedSchema.Proofs.Files

/-!
# Commands that follow one another

A snapshot file that was written by detaching is accepted by the commands that read one: the check
passes, and the counts that are printed are those that were told when the file was written.
-/

namespace DetachedSchema

/-! ### Detaching -/

/-- What is detached from a source passes the check and detaches to itself. -/
theorem Source.AnswersAs.validate_and_detach {source : Source Unit} {a : Answers}
    (h : source.AnswersAs a) {s : Snapshot} (hs : source.snapshot = .ok s) :
  s.validate = .ok () ∧ s.source.snapshot = .ok s
  := by
  rw [Source.snapshot, detach, Script.result_run h] at hs
  obtain ⟨l, hrecords, hnames, hresolves, rfl⟩ :=
    Detach.canEnd_script.mp (Script.canEnd_given.mpr hs)
  exact ⟨Snapshot.validate_eq_ok.mpr (Listing.snapshot_consistent hnames hresolves),
    hrecords.detach_snapshot hnames hresolves⟩

namespace Command

open DetachedSchema.Action (Yields)

variable {time : Timestamp} {files files' : Files} {printed : String} {s : Settings}

/-! ### Reports -/

/-- The text of some lines. -/
def lines (l : List String) : String := String.join (l.map (· ++ "\n"))

/-- What is told when a snapshot has been written. -/
def writtenReport (asJson : Bool) (path fingerprint : String) (counts : Stats) : String :=
  if asJson then
    Json.print true (.record
      [("fingerprint", .text fingerprint), ("output", .text path),
       ("stats", (Stats.codec.encode counts).sorted)]) ++ "\n"
  else
    lines (["\nSnapshot written to " ++ path, "  Fingerprint: " ++ fingerprint] ++
      statsLines counts)

/-- What is told about the counts of a snapshot. -/
def statsReport (asJson : Bool) (fingerprint : String) (counts : Stats) : String :=
  if asJson then Json.print true (Stats.codec.encode counts) ++ "\n"
  else lines (("Snapshot " ++ fingerprint) :: statsLines counts)

/-- What is told about a file that passes the check. -/
def checkReport (asJson : Bool) (e : Envelope) : String :=
  if asJson then
    Json.print true (.record
      [("fingerprint", .text e.fingerprint), ("stats", (Stats.codec.encode e.stats).sorted),
       ("valid", .bool true)]) ++ "\n"
  else
    lines ["Snapshot is valid", "  Fingerprint: " ++ e.fingerprint, "  Source: " ++ e.source,
      "  Created: " ++ e.created.offsetText]

theorem yields_report {asJson : Bool} {t : Tree} {l : List String} {u : Unit} :
  Yields time files (if asJson then printTree t else printLines l) u files' printed
    ↔ files = files' ∧ (if asJson then Json.print true t ++ "\n" else lines l) = printed
  := by
  cases asJson with
  | true => exact Action.yields_printLine
  | false => exact Action.yields_forM_printLine

/-! ### Settings -/

/-- The settings that a detaching run goes by. -/
def effective (time : Timestamp) (files : Files) (settingsPath source output : Option String)
    (format : Option Format) : Except Fault Settings :=
  ((settings settingsPath source).perform time files).result.map (override · output format)

/-- Settings are found without a change to the files and without printing. -/
theorem yields_settings {settingsPath source : Option String} :
  Yields time files (settings settingsPath source) s files' printed
    ↔ ((settings settingsPath source).perform time files).result = .ok s
      ∧ files = files' ∧ "" = printed
  := by
  apply Action.yields_of_quiet
  intro s files' printed h
  cases settingsPath with
  | none =>
    cases source with
    | none => simp [settings] at h
    | some source => exact (Action.yields_pure.mp h).2
  | some path =>
    simp only [settings, Settings.loadUnchecked, Action.yields_bind_eq, Action.yields_readFile,
      Action.yields_ofExcept, Action.yields_log, Action.yields_pure, bind_assoc] at h
    obtain ⟨_, _, _, _, ⟨-, rfl, rfl⟩, ⟨_, _, _, _, ⟨-, rfl, rfl⟩,
      ⟨_, _, _, _, ⟨rfl, rfl⟩, ⟨-, rfl, rfl⟩, rfl⟩, rfl⟩, rfl⟩ := h
    exact ⟨rfl, rfl⟩

/-! ### Detaching -/

/-- A listing is loaded without a change to the files and without printing. -/
theorem yields_loadListing {path : String} {format : Option Format} {l : Listing} :
  Yields time files (Listing.load path format) l files' printed
    ↔ ((Listing.load path format).perform time files).result = .ok l
      ∧ files = files' ∧ "" = printed
  := by
  apply Action.yields_of_quiet
  intro l files' printed h
  cases format with
  | none =>
    simp only [Listing.load, Action.yields_bind_eq, Action.yields_readFile,
      Action.yields_ofExcept] at h
    obtain ⟨_, _, _, _, ⟨-, rfl, rfl⟩, ⟨_, _, _, _, ⟨-, rfl, rfl⟩, ⟨-, rfl, rfl⟩, rfl⟩, rfl⟩ := h
    exact ⟨rfl, rfl⟩
  | some f =>
    simp only [Listing.load, pure_bind, Action.yields_bind_eq, Action.yields_readFile,
      Action.yields_ofExcept] at h
    obtain ⟨_, _, _, _, ⟨-, rfl, rfl⟩, ⟨-, rfl, rfl⟩, rfl⟩ := h
    exact ⟨rfl, rfl⟩

/-- The snapshot that is detached as settings say. -/
def detached (time : Timestamp) (files : Files) (s : Settings) : Except Fault Snapshot := do
  let listing ← ((Listing.load s.source.path s.source.format).perform time files).result
  (if s.filter.isEmpty then listing.source else listing.source.filtered s.filter).snapshot

/-- What is detached passes the check and detaches to itself. -/
theorem validate_of_detached {snapshot : Snapshot} (h : detached time files s = .ok snapshot) :
  snapshot.validate = .ok () ∧ snapshot.source.snapshot = .ok snapshot
  := by
  obtain ⟨l, -, hl⟩ := bind_eq_ok.mp h
  have hanswers : l.source.AnswersAs l.answer := Source.answersAs_ofAnswers _ _
  split at hl
  · exact hanswers.validate_and_detach hl
  · exact (hanswers.filtered s.filter).validate_and_detach hl

/-- What detaching as the settings say does when it writes a file. -/
theorem yields_detachWith {asJson : Bool} {path : String} {u : Unit}
    (hpath : s.output.path = some path) :
  Yields time files (detachWith s asJson) u files' printed
    ↔ ∃ (snapshot : Snapshot) (f : Format), detached time files s = .ok snapshot
      ∧ s.output.resolvedFormat = .ok f
      ∧ files.write path
          ((Envelope.wrap snapshot s.source.path time).write f s.output.isPretty) = .ok files'
      ∧ writtenReport asJson path snapshot.fingerprint snapshot.stats = printed
  := by
  simp only [detachWith, writeSnapshot, hpath, Envelope.save, Action.yields_bind_eq,
    Action.yields_log, Action.yields_ofRun, Action.yields_clock, Action.yields_ofExcept,
    Action.yields_writeFile, yields_report, yields_loadListing, and_assoc, exists_and_left,
    exists_eq_left', String.empty_append, ↓existsAndEq, true_and, exists_const]
  constructor
  · rintro ⟨l, hl, snapshot, hsnapshot, f, hf, hwrite, rfl⟩
    refine ⟨snapshot, ?_, f, hf, hwrite, rfl⟩
    rw [detached, hl]
    exact hsnapshot
  · rintro ⟨snapshot, hdetached, f, hf, hwrite, rfl⟩
    obtain ⟨l, hl, hsnapshot⟩ := bind_eq_ok.mp hdetached
    exact ⟨l, hl, snapshot, hsnapshot, f, hf, hwrite, rfl⟩

/-- A run that detaches ends well when its settings are found and can be used, and detaching by them
ends well. -/
theorem yields_run_detach {settingsPath source output : Option String} {format : Option Format}
    {asJson : Bool} {u : Unit} :
  Yields time files (run settingsPath asJson (.detach source output format)) u files' printed
    ↔ ∃ s, effective time files settingsPath source output format = .ok s ∧ s.validate = .ok ()
      ∧ Yields time files (detachWith s asJson) u files' printed
  := by
  simp only [run, Action.yields_bind_eq, Action.yields_ofExcept, yields_settings, effective,
    and_assoc, exists_and_left, String.empty_append, ↓existsAndEq, true_and]
  constructor
  · rintro ⟨loaded, hloaded, ⟨⟨⟩, hvalid, hdetach, -⟩, -⟩
    refine ⟨override loaded output format, ?_, hvalid, hdetach⟩
    rw [hloaded]
    rfl
  · rintro ⟨s, hs, hvalid, hdetach⟩
    cases hloaded : ((settings settingsPath source).perform time files).result with
    | error fault =>
      rw [hloaded] at hs
      cases hs
    | ok loaded =>
      rw [hloaded] at hs
      obtain rfl := Except.ok.inj hs
      exact ⟨loaded, rfl, ⟨(), hvalid, hdetach, trivial⟩, trivial⟩

/-! ### Reading what was written -/

theorem yields_loadEnvelope {path text : String} {f : Format} {e : Envelope}
    (hpath : Format.ofPath path = .ok f) (htext : files.read path = .ok text)
    (he : Envelope.read f text = .ok e) :
  Yields time files (Envelope.load path) e files ""
  := by
  refine (Action.yields_ofExcept.mpr ⟨hpath, rfl, rfl⟩).then ?_
  refine (Action.yields_readFile.mpr ⟨htext, rfl, rfl⟩).then ?_
  exact Action.yields_ofExcept.mpr ⟨he, rfl, rfl⟩

/-- A file with an envelope whose snapshot detaches to itself passes the check. -/
theorem yields_checkFile {path : String} {asJson : Bool} {e : Envelope}
    (hload : Yields time files (Envelope.load path) e files "")
    (hdetach : (DetachedSchema.detach e.snapshot.source ()).1.result = .ok e.snapshot) :
  Yields time files (checkFile path asJson) () files (checkReport asJson e)
  := by
  refine hload.then ?_
  refine ((Action.yields_log (u := ())).mpr ⟨rfl, rfl⟩).then ?_
  refine (Action.yields_ofRun.mpr ⟨hdetach, rfl, rfl⟩).then ?_
  rw [if_neg (not_not_intro rfl), yields_report]
  exact ⟨rfl, rfl⟩

theorem yields_printStats {path : String} {asJson : Bool} {e : Envelope}
    (hload : Yields time files (Envelope.load path) e files "") :
  Yields time files (printStats path asJson) () files
    (statsReport asJson e.fingerprint e.snapshot.stats)
  := by
  refine hload.then ?_
  exact yields_report.mpr ⟨rfl, rfl⟩

/-- The name of the file tells the format in which it is written, unless another one was set. -/
theorem ofPath_of_resolvedFormat {s : OutputSettings} {path : String} {f : Format}
    (hpath : s.path = some path) (hformat : ∀ f, s.format = some f → Format.ofPath path = .ok f)
    (hf : s.resolvedFormat = .ok f) :
  Format.ofPath path = .ok f
  := by
  rw [OutputSettings.resolvedFormat, hpath] at hf
  cases hset : s.format with
  | none =>
    rw [hset] at hf
    exact hf
  | some f' =>
    rw [hset] at hf
    obtain rfl := Except.ok.inj hf
    exact hformat f' hset

/-- What a detaching run writes is accepted: when the name of the file tells the format in which it
was written, the check passes and the counts are those that were told. -/
theorem run_after_detach {settingsPath source output : Option String} {format : Option Format}
    {asJson : Bool} {path : String} (htime : time.Valid)
    (hrun : Yields time files (run settingsPath asJson (.detach source output format)) () files'
      printed)
    (hsettings : effective time files settingsPath source output format = .ok s)
    (hpath : s.output.path = some path)
    (hformat : ∀ f, s.output.format = some f → Format.ofPath path = .ok f) :
  ∃ (snapshot : Snapshot) (f : Format) (text : String), detached time files s = .ok snapshot
    ∧ printed = writtenReport asJson path snapshot.fingerprint snapshot.stats
    ∧ s.output.resolvedFormat = .ok f
    ∧ text = (Envelope.wrap snapshot s.source.path time).write f s.output.isPretty
    ∧ files'.read path = .ok text
    ∧ (snapshot.stats.Fits
      → ∀ (time' : Timestamp) (settingsPath' : Option String) (asJson' : Bool),
      Yields time' files' (run settingsPath' asJson' (.check path)) () files'
        (checkReport asJson' (Envelope.wrap snapshot s.source.path time))
      ∧ Yields time' files' (run settingsPath' asJson' (.stats path)) () files'
        (statsReport asJson' snapshot.fingerprint snapshot.stats))
  := by
  obtain ⟨s', hsettings', -, hdetach⟩ := yields_run_detach.mp hrun
  obtain rfl : s' = s := Except.ok.inj (hsettings'.symm.trans hsettings)
  obtain ⟨snapshot, f, hdetached, hf, hwrite, rfl⟩ := (yields_detachWith hpath).mp hdetach
  obtain ⟨hvalid, hagain⟩ := validate_of_detached hdetached
  have hread := Files.read_write hwrite
  refine ⟨snapshot, f, _, hdetached, rfl, hf, rfl, hread, ?_⟩
  intro hfits time' settingsPath' asJson'
  let e := Envelope.wrap snapshot s'.source.path time
  have hload : Yields time' files' (Envelope.load path) e files' "" :=
    yields_loadEnvelope (ofPath_of_resolvedFormat hpath hformat hf) hread
      (Envelope.read_write_wrap hvalid hfits s'.source.path htime f s'.output.isPretty)
  have hcheck : Yields time' files' (checkFile path asJson') () files' (checkReport asJson' e) :=
    yields_checkFile hload hagain
  have hstats : Yields time' files' (printStats path asJson') () files'
      (statsReport asJson' e.fingerprint e.snapshot.stats) := yields_printStats hload
  exact ⟨hcheck, hstats⟩

/-- A directory with the listing of the sales, and with settings that hide their log. -/
def salesFiles : Files where
  contents :=
    [(["settings.yaml"],
      (lines
        ["source:",
         "  path: sales.json",
         "output:",
         "  path: out.yaml",
         "filter:",
         "  exclude_tables: [s.log]"]).toUTF8),
     (["sales.json"], (Format.json.write Listing.codec true .sales).toUTF8)]

/-- What the settings of the sales say. -/
def salesSettings : Settings where
  source := { path := "sales.json" }
  output := { path := some "out.yaml" }
  filter := .withoutLog

theorem detached_sales :
  detached time salesFiles salesSettings = .ok (Listing.sales.snapshot.filtered .withoutLog)
  := by
  have hformat : Format.ofPath "sales.json" = .ok .json := by decide +kernel
  have hplace : salesFiles.locate "sales.json" = .ok ["sales.json"] := by decide +kernel
  have htext : salesFiles.read "sales.json" = .ok (Format.json.write Listing.codec true .sales) :=
    Files.read_of_locate hplace rfl rfl (by decide +kernel)
  have hload : Yields time salesFiles (Listing.load "sales.json" none) .sales salesFiles "" := by
    refine (Action.yields_ofExcept.mpr ⟨hformat, rfl, rfl⟩).then ?_
    refine (Action.yields_readFile.mpr ⟨htext, rfl, rfl⟩).then ?_
    exact Action.yields_ofExcept.mpr ⟨Listing.sales.read_write .json true, rfl, rfl⟩
  rw [detached, salesSettings, hload.result_eq]
  decide +kernel

/-- The orders and the customers are detached to a file without the log, and the file is
accepted. -/
theorem run_after_detach_sales :
  let snapshot := Listing.sales.snapshot.filtered .withoutLog
  let e := Envelope.wrap snapshot "sales.json" ⟨2024, 1, 1, 0, 0, 0, 0⟩
  snapshot.tables.map (·.path.table) = ["orders", "customers"]
  ∧ snapshot.foreignKeys.map ForeignKey.key = [⟨⟨0, 0, 1⟩, 0⟩]
  ∧ snapshot.stats = ⟨1, 1, 0, 2, 2, 0, 1, 1, 1, 0, 1, 0⟩
  ∧ ∃ files' : Files,
    Yields ⟨2024, 1, 1, 0, 0, 0, 0⟩ salesFiles
      (run (some "settings.yaml") false (.detach none none none)) () files'
      (writtenReport false "out.yaml" snapshot.fingerprint snapshot.stats)
    ∧ Yields ⟨2024, 1, 2, 0, 0, 0, 0⟩ files' (run none false (.check "out.yaml")) () files'
      (checkReport false e)
    ∧ Yields ⟨2024, 1, 2, 0, 0, 0, 0⟩ files' (run none true (.stats "out.yaml")) () files'
      (statsReport true snapshot.fingerprint snapshot.stats)
  := by
  let snapshot := Listing.sales.snapshot.filtered .withoutLog
  let e := Envelope.wrap snapshot "sales.json" ⟨2024, 1, 1, 0, 0, 0, 0⟩
  have hsettings : effective ⟨2024, 1, 1, 0, 0, 0, 0⟩ salesFiles (some "settings.yaml") none none
      none = .ok salesSettings := by decide +kernel
  have hvalid : salesSettings.validate = .ok () := by decide +kernel
  have hformat : salesSettings.output.resolvedFormat = .ok .yaml := by decide +kernel
  obtain ⟨files', hwrite⟩ : ∃ files', salesFiles.write "out.yaml" (e.write .yaml true) = .ok files'
    := isOk_iff.mp (by decide +kernel)
  have hdetach : Yields ⟨2024, 1, 1, 0, 0, 0, 0⟩ salesFiles (detachWith salesSettings false) ()
      files' _ :=
    (yields_detachWith rfl).mpr ⟨snapshot, .yaml, detached_sales, hformat, hwrite, rfl⟩
  have hrun := yields_run_detach.mpr ⟨salesSettings, hsettings, hvalid, hdetach⟩
  have htime : (⟨2024, 1, 1, 0, 0, 0, 0⟩ : Timestamp).Valid := by constructor <;> decide
  have hnone : ∀ f, salesSettings.output.format = some f → Format.ofPath "out.yaml" = .ok f := by
    intro f hf
    cases hf
  obtain ⟨snapshot', f, text, hsnapshot, -, -, -, -, hlater⟩ :=
    run_after_detach htime hrun hsettings rfl hnone
  obtain rfl : snapshot' = snapshot := Except.ok.inj (hsnapshot.symm.trans detached_sales)
  have hstats : snapshot.stats = ⟨1, 1, 0, 2, 2, 0, 1, 1, 1, 0, 1, 0⟩ := by decide +kernel
  have hfits : snapshot.stats.Fits := by
    rw [hstats]
    constructor <;> decide
  have hcheck := (hlater hfits ⟨2024, 1, 2, 0, 0, 0, 0⟩ none false).1
  have hcounts := (hlater hfits ⟨2024, 1, 2, 0, 0, 0, 0⟩ none true).2
  exact ⟨by decide +kernel, by decide +kernel, hstats, files', hrun, hcheck, hcounts⟩

end Command

end DetachedSchema

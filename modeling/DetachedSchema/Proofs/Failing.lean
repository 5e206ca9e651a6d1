import DetachedSchema.Command
import DetachedSchema.Proofs.Command

/-!
# Runs that fail leave no trace

What an action may do is told from its text, whatever files and times it meets: whether it fails or
reads, and whether it writes or prints.  A program that first reads what it needs, and has nothing
left that can fail once it has written or printed, leaves no trace when it fails: the files are as
they were, and nothing was printed.  The commands are such programs.
-/

namespace DetachedSchema

/-- The steps of an action that end it, look at the files or are seen from outside. -/
inductive Step
  | fail
  | read
  | write
  | print

namespace Action

variable {α β : Type} {P Q : Step → Prop}

/-- The action takes only steps with `P`, whatever it reads and whatever time it is. -/
def Takes (P : Step → Prop) : Action α → Prop
  | .done _ => True
  | .fail _ => P .fail
  | .read _ next => P .read ∧ ∀ text, (next text).Takes P
  | .write _ _ next => P .write ∧ next.Takes P
  | .print _ next => P .print ∧ next.Takes P
  | .tell _ next => next.Takes P
  | .now next => ∀ time, (next time).Takes P

/-- The action prepares for others: it may fail and read, but it does not write or print. -/
def Prepares (action : Action α) : Prop := action.Takes fun step => step = .fail ∨ step = .read

/-- The action may print, and that is all. -/
def OnlyPrints (action : Action α) : Prop := action.Takes (· = .print)

/-- Nothing but a write fails once the action has begun to write or to print: what follows then is
printed, and that is all. -/
def FailsEarly : Action α → Prop
  | .done _ => True
  | .fail _ => True
  | .read _ next => ∀ text, (next text).FailsEarly
  | .write _ _ next => next.OnlyPrints
  | .print _ next => next.OnlyPrints
  | .tell _ next => next.FailsEarly
  | .now next => ∀ time, (next time).FailsEarly

/-! ### Steps that are taken -/

theorem Takes.mono {action : Action α} (h : action.Takes P) (hPQ : ∀ step, P step → Q step) :
  action.Takes Q
  := by
  induction action with
  | done a => trivial
  | fail fault => exact hPQ _ h
  | read path next ih => exact ⟨hPQ _ h.1, fun text => ih text (h.2 text)⟩
  | write path text next ih => exact ⟨hPQ _ h.1, ih h.2⟩
  | print text next ih => exact ⟨hPQ _ h.1, ih h.2⟩
  | tell event next ih => exact ih h
  | now next ih => exact fun time => ih time (h time)

/-- An action after another takes steps of both. -/
theorem Takes.bind {action : Action α} {f : α → Action β} (h : action.Takes P)
    (hf : ∀ a, (f a).Takes P) :
  (action >>= f).Takes P
  := by
  change (action.bind f).Takes P
  induction action with
  | done a => exact hf a
  | fail fault => exact h
  | read path next ih => exact ⟨h.1, fun text => ih text (h.2 text)⟩
  | write path text next ih => exact ⟨h.1, ih h.2⟩
  | print text next ih => exact ⟨h.1, ih h.2⟩
  | tell event next ih => exact ih h
  | now next ih => exact fun time => ih time (h time)

theorem takes_pure {a : α} :
  (pure a : Action α).Takes P
  := trivial

theorem takes_ofExcept {e : Except Fault α} (hfail : P .fail) :
  (ofExcept e).Takes P
  := by
  cases e with
  | ok a => trivial
  | error fault => exact hfail

theorem takes_readFile {path : String} (hread : P .read) :
  (readFile path).Takes P
  := ⟨hread, fun _ => trivial⟩

theorem takes_log {event : Event} :
  (log event).Takes P
  := trivial

theorem takes_clock :
  clock.Takes P
  := fun _ => trivial

theorem takes_printLine {text : String} (hprint : P .print) :
  (printLine text).Takes P
  := ⟨hprint, trivial⟩

theorem onlyPrints_printLine {text : String} :
  (printLine text).OnlyPrints
  := takes_printLine rfl

theorem takes_forM {l : List β} {f : β → Action PUnit} (hf : ∀ x, (f x).Takes P) :
  (l.forM f).Takes P
  := by
  induction l with
  | nil => exact takes_pure
  | cons x l ih => exact (hf x).bind fun _ => ih

theorem takes_ofRun {r : Script.Run α} (hfail : P .fail) :
  (ofRun r).Takes P
  := (takes_forM fun _ => takes_log).bind fun _ => takes_ofExcept hfail

/-! ### Failing early -/

/-- An action that prepares goes before one that fails early. -/
theorem Prepares.then {action : Action α} {f : α → Action β} (h : action.Prepares)
    (hf : ∀ a, (f a).FailsEarly) :
  (action >>= f).FailsEarly
  := by
  change (action.bind f).FailsEarly
  induction action with
  | done a => exact hf a
  | fail fault => trivial
  | read path next ih => exact fun text => ih text (h.2 text)
  | write path text next ih =>
    obtain ⟨hwrite | hwrite, -⟩ := h
    · cases hwrite
    · cases hwrite
  | print text next ih =>
    obtain ⟨hprint | hprint, -⟩ := h
    · cases hprint
    · cases hprint
  | tell event next ih => exact ih h
  | now next ih => exact fun time => ih time (h time)

/-- An action that only prints does not fail at all. -/
theorem OnlyPrints.failsEarly {action : Action α} (h : action.OnlyPrints) :
  action.FailsEarly
  := by
  induction action with
  | done a => trivial
  | fail fault => cases h
  | read path next ih =>
    obtain ⟨hread, -⟩ := h
    cases hread
  | write path text next ih => exact h.2
  | print text next ih => exact h.2
  | tell event next ih => exact ih h
  | now next ih => exact fun time => ih time (h time)

/-! ### Performing -/

variable {time : Timestamp} {files : Files}

/-- An action that does not write leaves the files as they are. -/
theorem Takes.files_eq {action : Action α} (h : action.Takes (· ≠ .write)) :
  (action.perform time files).files = files
  := by
  induction action with
  | done a => rfl
  | fail fault => rfl
  | read path next ih =>
    rw [perform]
    cases files.read path with
    | ok text => exact ih text (h.2 text)
    | error problem => rfl
  | write path text next ih => exact absurd rfl h.1
  | print text next ih => exact ih h.2
  | tell event next ih => exact ih h
  | now next ih => exact ih time (h time)

/-- An action that only prints ends with a result. -/
theorem OnlyPrints.exists_result {action : Action α} (h : action.OnlyPrints) :
  ∃ a, (action.perform time files).result = .ok a
  := by
  induction action with
  | done a => exact ⟨a, rfl⟩
  | fail fault => cases h
  | read path next ih =>
    obtain ⟨hread, -⟩ := h
    cases hread
  | write path text next ih =>
    obtain ⟨hwrite, -⟩ := h
    cases hwrite
  | print text next ih => exact ih h.2
  | tell event next ih => exact ih h
  | now next ih => exact ih time (h time)

/-- An action that fails early leaves no trace when it fails. -/
theorem FailsEarly.no_trace {action : Action α} (h : action.FailsEarly) {fault : Fault}
    (hfault : (action.perform time files).result = .error fault) :
  (action.perform time files).files = files ∧ (action.perform time files).printed = ""
  := by
  induction action with
  | done a => exact ⟨rfl, rfl⟩
  | fail fault => exact ⟨rfl, rfl⟩
  | read path next ih =>
    rw [perform] at hfault ⊢
    cases hread : files.read path with
    | ok text =>
      rw [hread] at hfault
      exact ih text (h text) hfault
    | error problem => exact ⟨rfl, rfl⟩
  | write path text next ih =>
    rw [perform] at hfault ⊢
    cases hwrite : files.write path text with
    | ok written =>
      -- Once the file is written nothing fails.
      obtain ⟨a, ha⟩ : ∃ a, (next.perform time written).result = .ok a := h.exists_result
      rw [hwrite] at hfault
      cases ha.symm.trans hfault
    | error problem => exact ⟨rfl, rfl⟩
  | print text next ih =>
    obtain ⟨a, ha⟩ : ∃ a, (next.perform time files).result = .ok a := h.exists_result
    cases ha.symm.trans hfault
  | tell event next ih => exact ih h hfault
  | now next ih => exact ih time (h time) hfault

end Action

namespace Command

open DetachedSchema.Action

/-! ### The parts of a command -/

section

variable {P : Step → Prop} (hfail : P .fail) (hread : P .read)

include hfail hread

theorem takes_loadListing {path : String} {format : Option Format} :
  (Listing.load path format).Takes P
  := by
  have hrest (f : Format) :
      (readFile path >>= fun text => Action.ofExcept (f.read Listing.codec text)).Takes P := by
    apply (takes_readFile hread).bind
    intro text
    apply takes_ofExcept hfail
  cases format with
  | some f => exact hrest f
  | none => exact (takes_ofExcept hfail).bind hrest

theorem takes_loadEnvelope {path : String} :
  (Envelope.load path).Takes P
  := by
  apply (takes_ofExcept hfail).bind
  intro format
  apply (takes_readFile hread).bind
  intro text
  apply takes_ofExcept hfail

theorem takes_settings {path source : Option String} :
  (settings path source).Takes P
  := by
  cases path with
  | none =>
    cases source with
    | none => exact hfail
    | some source => exact takes_pure
  | some path =>
    apply Takes.bind
    · apply (takes_readFile hread).bind
      intro text
      apply takes_ofExcept hfail
    intro s
    apply takes_log.bind
    intro _
    apply takes_pure

end

/-- When a file was written, nothing fails in what is only told. -/
theorem failsEarly_save {α : Type} {e : Envelope} {path : String} {format : Format}
    {isPretty : Bool} {f : Unit → Action α} (h : (f ()).OnlyPrints) :
  (e.save path format isPretty >>= f).FailsEarly
  := h

variable {asJson : Bool}

theorem onlyPrints_report {t : Tree} {l : List String} :
  (if asJson then printTree t else printLines l).OnlyPrints
  := by
  cases asJson with
  | true => exact onlyPrints_printLine
  | false => exact takes_forM fun _ => onlyPrints_printLine

theorem takes_report {t : Tree} {l : List String} :
  (if asJson then printTree t else printLines l).Takes (· ≠ .write)
  := by
  apply onlyPrints_report.mono
  rintro step rfl
  exact nofun

/-! ### Commands -/

theorem failsEarly_writeSnapshot {s : Settings} {snapshot : Snapshot} :
  (writeSnapshot s asJson snapshot).FailsEarly
  := by
  apply Prepares.then takes_clock
  intro now
  apply Prepares.then (takes_ofExcept (.inl rfl))
  intro format
  cases s.output.path with
  | some path =>
    apply failsEarly_save
    apply onlyPrints_report
  | none =>
    apply onlyPrints_printLine.failsEarly

theorem failsEarly_detachWith {s : Settings} :
  (detachWith s asJson).FailsEarly
  := by
  apply Prepares.then (takes_loadListing (.inl rfl) (.inr rfl))
  intro listing
  apply Prepares.then takes_log
  intro _
  apply Prepares.then (takes_ofRun (.inl rfl))
  intro snapshot
  apply failsEarly_writeSnapshot

theorem failsEarly_checkFile {path : String} :
  (checkFile path asJson).FailsEarly
  := by
  apply Prepares.then (takes_loadEnvelope (.inl rfl) (.inr rfl))
  intro e
  apply Prepares.then takes_log
  intro _
  apply Prepares.then (takes_ofRun (.inl rfl))
  intro again
  by_cases hagain : again ≠ e.snapshot
  · rw [if_pos hagain]
    apply Prepares.then (takes_ofExcept (.inl rfl))
    intro _
    apply onlyPrints_report.failsEarly
  · rw [if_neg hagain]
    apply onlyPrints_report.failsEarly

theorem failsEarly_printStats {path : String} :
  (printStats path asJson).FailsEarly
  := by
  apply Prepares.then (takes_loadEnvelope (.inl rfl) (.inr rfl))
  intro e
  apply onlyPrints_report.failsEarly

/-- Whatever a command is, all that can go wrong does so before it writes or prints. -/
theorem failsEarly_run {settingsPath : Option String} {command : Command} :
  (run settingsPath asJson command).FailsEarly
  := by
  cases command with
  | detach source output format =>
    apply Prepares.then (takes_settings (.inl rfl) (.inr rfl))
    intro s
    apply Prepares.then (takes_ofExcept (.inl rfl))
    intro _
    apply failsEarly_detachWith
  | check path => exact failsEarly_checkFile
  | stats path => exact failsEarly_printStats

/-- A snapshot file is checked without a write. -/
theorem takes_checkFile {path : String} :
  (checkFile path asJson).Takes (· ≠ .write)
  := by
  apply (takes_loadEnvelope nofun nofun).bind
  intro e
  apply takes_log.bind
  intro _
  apply (takes_ofRun nofun).bind
  intro again
  by_cases hagain : again ≠ e.snapshot
  · rw [if_pos hagain]
    apply (takes_ofExcept nofun).bind
    intro _
    apply takes_report
  · rw [if_neg hagain]
    apply takes_report

/-- The counts of a snapshot file are printed without a write. -/
theorem takes_printStats {path : String} :
  (printStats path asJson).Takes (· ≠ .write)
  := by
  apply (takes_loadEnvelope nofun nofun).bind
  intro e
  apply takes_report

/-- A command that fails leaves no trace, whatever files it finds and whatever is asked for: the
files are as they were, and nothing was printed.  That holds for a failed write too, for here a file
is written as a whole or not at all.  The commands that read a snapshot file leave the files as they
are even when they end well. -/
theorem run_no_trace (time : Timestamp) (files : Files) (settingsPath : Option String)
    (asJson : Bool) :
  (∀ (command : Command) (fault : Fault),
    ((run settingsPath asJson command).perform time files).result = .error fault →
    ((run settingsPath asJson command).perform time files).files = files
    ∧ ((run settingsPath asJson command).perform time files).printed = "")
  ∧ ∀ path : String,
    ((run settingsPath asJson (.check path)).perform time files).files = files
    ∧ ((run settingsPath asJson (.stats path)).perform time files).files = files
  := by
  constructor
  · intro command fault hfault
    apply failsEarly_run.no_trace hfault
  · intro path
    exact ⟨takes_checkFile.files_eq, takes_printStats.files_eq⟩

/-- A directory with a listing of a catalog without schemas. -/
def shopFiles : Files where
  contents := [(["shop.json"], "\x7b\"catalogs\":[\x7b\"name\":\"shop\"\x7d]\x7d".toUTF8)]

/-- When there is no listing to detach, the file to write is left as it is, and so it is when it is
found to be no snapshot file. -/
theorem run_no_trace_shop :
  let time : Timestamp := ⟨2024, 1, 1, 0, 0, 0, 0⟩
  let o := (run none true (.detach (some "gone.json") (some "shop.json") none)).perform time
    shopFiles
  o.result = .error (.file .notFound) ∧ o.files = shopFiles ∧ o.printed = ""
  ∧ ((run none true (.check "shop.json")).perform time shopFiles).result.isOk = false
  ∧ ((run none true (.check "shop.json")).perform time shopFiles).files = shopFiles
  := by
  intro time o
  obtain ⟨htrace, hread⟩ := run_no_trace time shopFiles none true
  have hgone : o.result = .error (.file .notFound) := by decide +kernel
  obtain ⟨hfiles, hprinted⟩ := htrace _ _ hgone
  exact ⟨hgone, hfiles, hprinted, by decide +kernel, (hread "shop.json").1⟩

end Command

end DetachedSchema

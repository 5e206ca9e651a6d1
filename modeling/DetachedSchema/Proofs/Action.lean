import DetachedSchema.Action
import Mathlib.Tactic.Common

/-!
# Performing actions

What an action does that ends with a result: the result, the files that it leaves and what it
prints.  An action that goes on with the result of another finds the files that the other leaves,
and what it prints comes behind.
-/

namespace DetachedSchema.Action

variable {α β : Type} {time : Timestamp} {files files' : Files} {printed : String}

/-- The action ends with `a`, leaves `files'` and prints `printed`. -/
structure Yields (time : Timestamp) (files : Files) (action : Action α) (a : α) (files' : Files)
    (printed : String) : Prop where
  result_eq : (action.perform time files).result = .ok a
  files_eq : (action.perform time files).files = files'
  printed_eq : (action.perform time files).printed = printed

variable {a : α}

/-- Actions that come out alike yield alike. -/
theorem yields_congr {files'' : Files} {action action' : Action α}
    (h : action.perform time files = action'.perform time files'') :
  Yields time files action a files' printed ↔ Yields time files'' action' a files' printed
  := by
  constructor
  · rintro ⟨hresult, hfiles, hprinted⟩
    exact ⟨h ▸ hresult, h ▸ hfiles, h ▸ hprinted⟩
  · rintro ⟨hresult, hfiles, hprinted⟩
    exact ⟨h ▸ hresult, h ▸ hfiles, h ▸ hprinted⟩

/-! ### Steps -/

@[simp]
theorem yields_done {x : α} :
  Yields time files (.done x) a files' printed ↔ x = a ∧ files = files' ∧ "" = printed
  := by
  constructor
  · rintro ⟨hresult, hfiles, hprinted⟩
    exact ⟨Except.ok.inj hresult, hfiles, hprinted⟩
  · rintro ⟨rfl, rfl, rfl⟩
    exact ⟨rfl, rfl, rfl⟩

@[simp]
theorem yields_fail {fault : Fault} :
  ¬ Yields time files (.fail fault) a files' printed
  := by
  rintro ⟨hresult, -, -⟩
  cases hresult

/-- An action that reads goes on with the text of the file, which has to be there. -/
@[simp]
theorem yields_read {path : String} {next : String → Action α} :
  Yields time files (.read path next) a files' printed
    ↔ ∃ text, files.read path = .ok text ∧ Yields time files (next text) a files' printed
  := by
  cases hread : files.read path with
  | error problem =>
    constructor
    · rintro ⟨hresult, -, -⟩
      simp [perform, hread] at hresult
    · rintro ⟨text, htext, -⟩
      cases htext
  | ok text =>
    have heq : (Action.read path next).perform time files = (next text).perform time files := by
      rw [perform, hread]
    simp [yields_congr heq]

/-- An action that writes goes on with the files that it leaves. -/
@[simp]
theorem yields_write {path text : String} {next : Action α} :
  Yields time files (.write path text next) a files' printed
    ↔ ∃ files'', files.write path text = .ok files'' ∧ Yields time files'' next a files' printed
  := by
  cases hwrite : files.write path text with
  | error problem =>
    constructor
    · rintro ⟨hresult, -, -⟩
      simp [perform, hwrite] at hresult
    · rintro ⟨files'', hfiles, -⟩
      cases hfiles
  | ok files'' =>
    have heq : (Action.write path text next).perform time files = next.perform time files'' := by
      rw [perform, hwrite]
    simp [yields_congr heq]

/-- What is printed comes before what the action goes on to print. -/
@[simp]
theorem yields_print {text : String} {next : Action α} :
  Yields time files (.print text next) a files' printed
    ↔ ∃ rest, printed = text ++ rest ∧ Yields time files next a files' rest
  := by
  constructor
  · rintro ⟨hresult, hfiles, rfl⟩
    exact ⟨_, rfl, hresult, hfiles, rfl⟩
  · rintro ⟨rest, rfl, hresult, hfiles, rfl⟩
    exact ⟨hresult, hfiles, rfl⟩

@[simp]
theorem yields_tell {event : Event} {next : Action α} :
  Yields time files (.tell event next) a files' printed ↔ Yields time files next a files' printed
  := ⟨fun h => ⟨h.result_eq, h.files_eq, h.printed_eq⟩,
    fun h => ⟨h.result_eq, h.files_eq, h.printed_eq⟩⟩

@[simp]
theorem yields_now {next : Timestamp → Action α} :
  Yields time files (.now next) a files' printed
    ↔ Yields time files (next time) a files' printed
  := yields_congr rfl

@[simp]
theorem yields_ofExcept {e : Except Fault α} :
  Yields time files (ofExcept e) a files' printed ↔ e = .ok a ∧ files = files' ∧ "" = printed
  := by
  cases e with
  | ok x => simp [ofExcept]
  | error fault => simp [ofExcept]

/-! ### One action after another -/

/-- One action after another finds the files that the first one leaves and prints behind it. -/
theorem yields_bind {action : Action α} {f : α → Action β} {b : β} :
  Yields time files (action.bind f) b files' printed
    ↔ ∃ x files'' before behind, Yields time files action x files'' before
      ∧ Yields time files'' (f x) b files' behind ∧ printed = before ++ behind
  := by
  induction action generalizing files printed with
  | done x => simp [bind]
  | fail fault => simp [bind]
  | read path next ih =>
    simp only [bind, yields_read, ih]
    constructor
    · rintro ⟨text, htext, x, files'', before, behind, hx, hb, hprinted⟩
      exact ⟨x, files'', before, behind, ⟨text, htext, hx⟩, hb, hprinted⟩
    · rintro ⟨x, files'', before, behind, ⟨text, htext, hx⟩, hb, hprinted⟩
      exact ⟨text, htext, x, files'', before, behind, hx, hb, hprinted⟩
  | write path text next ih =>
    simp only [bind, yields_write, ih]
    constructor
    · rintro ⟨written, hwritten, x, files'', before, behind, hx, hb, hprinted⟩
      exact ⟨x, files'', before, behind, ⟨written, hwritten, hx⟩, hb, hprinted⟩
    · rintro ⟨x, files'', before, behind, ⟨written, hwritten, hx⟩, hb, hprinted⟩
      exact ⟨written, hwritten, x, files'', before, behind, hx, hb, hprinted⟩
  | print text next ih =>
    simp only [bind, yields_print, ih]
    constructor
    · rintro ⟨rest, rfl, x, files'', before, behind, hx, hb, rfl⟩
      exact ⟨x, files'', text ++ before, behind, ⟨before, rfl, hx⟩, hb, String.append_assoc.symm⟩
    · rintro ⟨x, files'', _, behind, ⟨before, rfl, hx⟩, hb, rfl⟩
      exact ⟨before ++ behind, String.append_assoc, x, files'', before, behind, hx, hb, rfl⟩
  | tell event next ih => simp only [bind, yields_tell, ih]
  | now next ih => simp only [bind, yields_now, ih]

@[simp]
theorem yields_pure {x : α} :
  Yields time files (pure x) a files' printed ↔ x = a ∧ files = files' ∧ "" = printed
  := yields_done

@[simp]
theorem yields_bind_eq {action : Action α} {f : α → Action β} {b : β} :
  Yields time files (action >>= f) b files' printed
    ↔ ∃ x files'' before behind, Yields time files action x files'' before
      ∧ Yields time files'' (f x) b files' behind ∧ printed = before ++ behind
  := yields_bind

/-- An action that never changes a file and never prints is told by its result. -/
theorem yields_of_quiet {action : Action α}
    (h : ∀ a files' printed, Yields time files action a files' printed →
      files = files' ∧ "" = printed) :
  Yields time files action a files' printed
    ↔ (action.perform time files).result = .ok a ∧ files = files' ∧ "" = printed
  := by
  constructor
  · intro ha
    exact ⟨ha.result_eq, h a files' printed ha⟩
  · rintro ⟨hresult, rfl, rfl⟩
    obtain ⟨hfiles, hprinted⟩ := h a _ _ ⟨hresult, rfl, rfl⟩
    exact ⟨hresult, hfiles.symm, hprinted.symm⟩

/-- What an action does that goes on after one that prints nothing. -/
theorem Yields.then {files'' : Files} {action : Action α} {x : α} {f : α → Action β} {b : β}
    (hx : Yields time files action x files'' "") (hb : Yields time files'' (f x) b files' printed) :
  Yields time files (action >>= f) b files' printed
  := yields_bind.mpr ⟨x, files'', "", printed, hx, hb, String.empty_append.symm⟩

/-- What goes on after an action has the last word. -/
theorem Yields.result_bind {action : Action α} (h : Yields time files action a files' printed)
    (f : α → Action β) :
  ((action >>= f).perform time files).result = ((f a).perform time files').result
  := by
  change ((action.bind f).perform time files).result = _
  induction action generalizing files printed with
  | done x =>
    obtain ⟨rfl, rfl, -⟩ := yields_done.mp h
    rfl
  | fail fault => exact (yields_fail h).elim
  | read path next ih =>
    obtain ⟨text, htext, hnext⟩ := yields_read.mp h
    rw [bind, perform, htext]
    exact ih text hnext
  | write path text next ih =>
    obtain ⟨written, hwritten, hnext⟩ := yields_write.mp h
    rw [bind, perform, hwritten]
    exact ih hnext
  | print text next ih =>
    obtain ⟨rest, -, hnext⟩ := yields_print.mp h
    exact ih hnext
  | tell event next ih => exact ih (yields_tell.mp h)
  | now next ih => exact ih time (yields_now.mp h)

/-! ### Actions of a program -/

@[simp]
theorem yields_readFile {path text : String} :
  Yields time files (readFile path) text files' printed
    ↔ files.read path = .ok text ∧ files = files' ∧ "" = printed
  := by simp [readFile]

@[simp]
theorem yields_writeFile {path text : String} {u : Unit} :
  Yields time files (writeFile path text) u files' printed
    ↔ files.write path text = .ok files' ∧ "" = printed
  := by simp [writeFile]

@[simp]
theorem yields_printLine {text : String} {u : Unit} :
  Yields time files (printLine text) u files' printed ↔ files = files' ∧ text ++ "\n" = printed
  := by simp [printLine, eq_comm, and_comm]

@[simp]
theorem yields_log {event : Event} {u : Unit} :
  Yields time files (log event) u files' printed ↔ files = files' ∧ "" = printed
  := by simp [log]

@[simp]
theorem yields_clock {now : Timestamp} :
  Yields time files clock now files' printed ↔ time = now ∧ files = files' ∧ "" = printed
  := by simp [clock]

/-- A script that was run has to have a result. -/
@[simp]
theorem yields_ofRun {r : Script.Run α} :
  Yields time files (ofRun r) a files' printed ↔ r.result = .ok a ∧ files = files' ∧ "" = printed
  := by
  rw [ofRun]
  generalize r.events = events
  induction events with
  | nil => exact yields_ofExcept
  | cons event events ih => exact yields_tell.trans ih

/-- Lines are printed one below the other. -/
theorem yields_forM_printLine {lines : List String} {u : Unit} :
  Yields time files (lines.forM printLine) u files' printed
    ↔ files = files' ∧ String.join (lines.map (· ++ "\n")) = printed
  := by
  induction lines generalizing printed with
  | nil => exact yields_done.trans (by simp)
  | cons line lines ih =>
    have hcons : Yields time files ((line :: lines).forM printLine) u files' printed
        ↔ Yields time files (.print (line ++ "\n") (lines.forM printLine)) u files' printed :=
      Iff.rfl
    rw [hcons, yields_print]
    simp only [ih, List.map_cons, String.join_cons]
    constructor
    · rintro ⟨rest, rfl, rfl, rfl⟩
      exact ⟨rfl, rfl⟩
    · rintro ⟨rfl, rfl⟩
      exact ⟨_, rfl, rfl, rfl⟩

end DetachedSchema.Action

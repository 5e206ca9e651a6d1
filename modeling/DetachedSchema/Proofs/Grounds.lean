import DetachedSchema.Command
import DetachedSchema.Proofs.Failing
import DetachedSchema.Proofs.Traversal

/-!
# What a fault goes back to

With which faults a script or an action may end is told from its text, whatever is answered or read:
those that it raises itself, and those of the source or of the files that it meets.  Detaching
raises only faults about names that lead nowhere.  So a listing is detached without a fault that
goes back to settings, once the formats that the settings ask for are known.
-/

namespace DetachedSchema

/-- The fault goes back to something else than settings. -/
def Fault.NotSettings (fault : Fault) : Prop := ∀ problem, fault ≠ .settings problem

variable {α β : Type} {P Q : Fault → Prop}

/-! ### Results -/

/-- The fault has `P` if there is one in place of a result. -/
def OnlyFaults (P : Fault → Prop) (e : Except Fault α) : Prop := ∀ fault, e = .error fault → P fault

theorem onlyFaults_ok {a : α} :
  OnlyFaults P (.ok a)
  := by
  rintro fault ⟨⟩

theorem onlyFaults_error {fault : Fault} (h : P fault) :
  OnlyFaults P (.error fault : Except Fault α)
  := by
  rintro fault ⟨⟩
  exact h

/-- What is computed from a result has the faults of both steps. -/
theorem OnlyFaults.bind {e : Except Fault α} {f : α → Except Fault β} (he : OnlyFaults P e)
    (hf : ∀ a, OnlyFaults P (f a)) :
  OnlyFaults P (e >>= f)
  := by
  cases e with
  | ok a => exact hf a
  | error fault => exact onlyFaults_error (he fault rfl)

theorem OnlyFaults.map {e : Except Fault α} {f : α → β} (he : OnlyFaults P e) :
  OnlyFaults P (e.map f)
  := by
  cases e with
  | ok a => exact onlyFaults_ok
  | error fault => exact onlyFaults_error (he fault rfl)

theorem onlyFaults_mapM {l : List β} {f : β → Except Fault α} (hf : ∀ x, OnlyFaults P (f x)) :
  OnlyFaults P (l.mapM f)
  := by
  intro fault hfault
  obtain ⟨-, x, -, -, -, hx⟩ := mapM_eq_error_iff.mp hfault
  exact hf x fault hx

/-! ### Scripts -/

namespace Script

/-- The faults that the script raises itself have `P`, whatever is answered. -/
def Raises (P : Fault → Prop) : Script α → Prop
  | .done _ => True
  | .fail fault => P fault
  | .tell _ next => next.Raises P
  | .ask _ next => ∀ x, (next x).Raises P

theorem raises_done {a : α} :
  (done a).Raises P
  := trivial

theorem raises_log {event : Event} :
  (log event).Raises P
  := trivial

theorem raises_ofExcept {e : Except Fault α} (h : OnlyFaults P e) :
  (ofExcept e).Raises P
  := by
  cases e with
  | ok a => trivial
  | error fault => exact h fault rfl

theorem Raises.bind {s : Script α} {f : α → Script β} (hs : s.Raises P)
    (hf : ∀ a, (f a).Raises P) :
  (s.bind f).Raises P
  := by
  induction s with
  | done a => exact hf a
  | fail fault => exact hs
  | tell event next ih => exact ih hs
  | ask q next ih => exact fun x => ih x (hs x)

theorem Raises.mono {s : Script α} (h : s.Raises P) (hPQ : ∀ fault, P fault → Q fault) :
  s.Raises Q
  := by
  induction s with
  | done a => trivial
  | fail fault => exact hPQ fault h
  | tell event next ih => exact ih h
  | ask q next ih => exact fun x => ih x (h x)

theorem raises_query {q : Query} {f : q.Answer → Script α} (hf : ∀ x, (f x).Raises P) :
  ((query q).bind f).Raises P
  := hf

theorem raises_forM {l : List β} {f : β → Script PUnit} (hf : ∀ x, (f x).Raises P) :
  (l.forM f).Raises P
  := by
  induction l with
  | nil => trivial
  | cons x l ih => exact (hf x).bind fun _ => ih

theorem raises_mapM {l : List β} {f : β → Script α} (hf : ∀ x, (f x).Raises P) :
  (l.mapM f).Raises P
  := by
  induction l with
  | nil => exact raises_done
  | cons x l ih =>
    rw [List.mapM_cons]
    apply (hf x).bind
    intro y
    apply ih.bind
    intro ys
    exact raises_done

/-- A run ends with a fault of the source or with one that the script raises. -/
theorem Raises.run {σ : Type} {source : Source σ} {s : Script α} (h : s.Raises P)
    (hsource : ∀ (q : Query) (st : σ), OnlyFaults P (source.reply q st).1.result) (st : σ) :
  OnlyFaults P (s.run source st).1.result
  := by
  induction s generalizing st with
  | done a => exact onlyFaults_ok
  | fail fault => exact onlyFaults_error h
  | tell event next ih => exact ih h st
  | ask q next ih =>
    cases hr : (source.reply q st).1.result with
    | ok x =>
      rw [run_ask_ok hr]
      exact ih x (h x) _
    | error fault =>
      rw [run_ask_error hr]
      exact onlyFaults_error (hsource q st fault hr)

end Script

/-! ### Detaching -/

/-- A name leads nowhere: that of a column, or those by which a foreign key refers to a unique
key. -/
def Fault.AboutNames : Fault → Prop
  | .unknownColumn .. | .unresolvedReference .. => True
  | _ => False

theorem Fault.AboutNames.notSettings {fault : Fault} (h : fault.AboutNames) :
  fault.NotSettings
  := by
  rintro problem rfl
  exact h

namespace Walk

/-- The only fault of looking up a column is that there is none of the name. -/
theorem onlyFaults_position {path : TablePath} {columns : List Column} {owner name : String} :
  OnlyFaults Fault.AboutNames (position path columns owner name)
  := by
  rw [position]
  cases columns.findIdx? (·.name = name) with
  | some i => exact onlyFaults_ok
  | none => exact onlyFaults_error trivial

theorem onlyFaults_copyIndex {t : Table} {e : IndexEntry} :
  OnlyFaults Fault.AboutNames (copyIndex t e)
  := by
  apply OnlyFaults.bind
  · apply onlyFaults_mapM
    intro c
    apply onlyFaults_position.bind
    exact fun _ => onlyFaults_ok
  · exact fun _ => onlyFaults_ok

theorem onlyFaults_copyKey {t : Table} {place : Nat} {e : KeyEntry} :
  OnlyFaults Fault.AboutNames (copyKey t place e)
  := by
  apply (onlyFaults_mapM fun _ => onlyFaults_position).bind
  exact fun _ => onlyFaults_ok

theorem onlyFaults_copyForeignKey {t : Table} {e : ForeignKeyEntry} :
  OnlyFaults Fault.AboutNames (copyForeignKey t e)
  := by
  apply (onlyFaults_mapM fun _ => onlyFaults_position).bind
  exact fun _ => onlyFaults_ok

theorem raises_tellStrayKey {path : TablePath} {primary : Option KeyEntry} {place : Option Nat} :
  (tellStrayKey path primary place).Raises P
  := by
  cases primary with
  | none => trivial
  | some primary => cases place <;> trivial

/-- Copying a table fails only where something names a column that the table does not have. -/
theorem raises_copyTable {id : TableId} {path : TablePath} {e : TableEntry} :
  (copyTable id path e).Raises Fault.AboutNames
  := by
  apply Script.raises_query
  intro columns
  apply (Script.raises_forM fun _ => Script.raises_log).bind
  intro _
  apply Script.raises_query
  intro indexes
  apply (Script.raises_ofExcept (onlyFaults_mapM fun _ => onlyFaults_copyIndex)).bind
  intro _
  apply Script.raises_query
  intro keys
  apply (Script.raises_ofExcept (onlyFaults_mapM fun _ => onlyFaults_copyKey)).bind
  intro _
  apply Script.raises_query
  intro primary
  apply raises_tellStrayKey.bind
  intro _
  apply Script.raises_query
  intro foreignKeys
  apply (Script.raises_ofExcept (onlyFaults_mapM fun _ => onlyFaults_copyForeignKey)).bind
  intro _
  apply Script.raises_query
  intro checks
  apply Script.raises_log.bind
  exact fun _ => Script.raises_done

theorem raises_copySchema {id : SchemaId} {path : SchemaPath} {e : SchemaEntry} :
  (copySchema id path e).Raises Fault.AboutNames
  := by
  apply Script.raises_log.bind
  intro _
  apply Script.raises_query
  intro domains
  apply Script.raises_query
  intro tables
  apply (Script.raises_mapM fun _ => raises_copyTable).bind
  intro drafts
  apply Script.raises_query
  intro sequences
  apply Script.raises_query
  exact fun _ => Script.raises_done

theorem raises_copyCatalog {id : CatalogId} {e : CatalogEntry} :
  (copyCatalog id e).Raises Fault.AboutNames
  := by
  apply Script.raises_query
  intro schemas
  apply (Script.raises_mapM fun _ => raises_copySchema).bind
  exact fun _ => Script.raises_done

theorem raises_copyAll :
  copyAll.Raises Fault.AboutNames
  := by
  apply Script.raises_query
  intro catalogs
  apply (Script.raises_mapM fun _ => raises_copyCatalog).bind
  exact fun _ => Script.raises_done

end Walk

namespace Detach

/-- Resolving a foreign key fails only where it refers to no unique key. -/
theorem raises_resolve {index : KeyIndex} {k : PendingKey} :
  (resolve index k).Raises Fault.AboutNames
  := by
  rw [resolve]
  cases index.find? k.references with
  | none => trivial
  | some key =>
    by_cases hlength : k.columns.length = k.references.columns.length
    · simp only [if_pos hlength]
      exact Script.raises_log.bind fun _ => Script.raises_done
    · simp only [if_neg hlength]
      trivial

/-- Detaching raises only faults about names. -/
theorem raises_script {name : String} :
  (script name).Raises Fault.AboutNames
  := by
  apply Script.raises_log.bind
  intro _
  apply Walk.raises_copyAll.bind
  intro draft
  apply Script.raises_log.bind
  intro _
  apply Script.Raises.bind
  · apply Script.raises_log.bind
    intro _
    apply (Script.raises_mapM fun _ => raises_resolve).bind
    exact fun _ => Script.raises_done
  · intro s
    apply Script.raises_log.bind
    exact fun _ => Script.raises_done

end Detach

/-! ### Listings -/

namespace Listing

variable {l : Listing}

theorem onlyFaults_catalogNamed {name : String} :
  OnlyFaults Fault.NotSettings (l.catalogNamed name)
  := by
  rw [catalogNamed]
  cases l.catalogs.find? (·.name = name) with
  | some c => exact onlyFaults_ok
  | none => exact onlyFaults_error nofun

theorem onlyFaults_schemaAt {path : SchemaPath} :
  OnlyFaults Fault.NotSettings (l.schemaAt path)
  := by
  apply onlyFaults_catalogNamed.bind
  intro c
  cases c.schemas.find? (·.name = path.schema) with
  | some s => exact onlyFaults_ok
  | none => exact onlyFaults_error nofun

/-- When a table is not listed, that goes back to the source. -/
theorem onlyFaults_tableAt {path : TablePath} :
  OnlyFaults Fault.NotSettings (l.tableAt path)
  := by
  apply onlyFaults_schemaAt.bind
  intro s
  cases s.tables.find? (·.name = path.table) with
  | some t => exact onlyFaults_ok
  | none => exact onlyFaults_error nofun

/-- When a listing has no answer, that does not go back to settings. -/
theorem onlyFaults_answer (l : Listing) (q : Query) :
  OnlyFaults Fault.NotSettings (l.answer q)
  := by
  cases q with
  | catalogs => exact onlyFaults_ok
  | schemas => exact onlyFaults_catalogNamed.bind fun _ => onlyFaults_ok
  | domains | tables | sequences | userTypes =>
    exact onlyFaults_schemaAt.bind fun _ => onlyFaults_ok
  | columns | indexes | uniqueKeys | primaryKey | foreignKeys | checks =>
    exact onlyFaults_tableAt.bind fun _ => onlyFaults_ok

/-- A listing is detached without a fault that goes back to settings, whatever is hidden of it. -/
theorem onlyFaults_detach (l : Listing) (f : Filter) :
  OnlyFaults Fault.NotSettings (detach l.source ()).1.result
  ∧ OnlyFaults Fault.NotSettings (detach (l.source.filtered f) ()).1.result
  := by
  have hraises {name : String} : (Detach.script name).Raises Fault.NotSettings :=
    Detach.raises_script.mono fun _ => Fault.AboutNames.notSettings
  constructor
  · apply hraises.run
    intro q st
    exact l.onlyFaults_answer q
  · apply hraises.run
    intro q st
    rw [Source.result_filtered]
    exact (l.onlyFaults_answer q).map

end Listing

/-! ### Actions -/

namespace Action

/-- The faults that the action raises itself have `P`, whatever it reads and whatever time it is. -/
def Raises (P : Fault → Prop) : Action α → Prop
  | .done _ => True
  | .fail fault => P fault
  | .read _ next => ∀ text, (next text).Raises P
  | .write _ _ next => next.Raises P
  | .print _ next => next.Raises P
  | .tell _ next => next.Raises P
  | .now next => ∀ time, (next time).Raises P

theorem Raises.bind {action : Action α} {f : α → Action β} (h : action.Raises P)
    (hf : ∀ a, (f a).Raises P) :
  (action >>= f).Raises P
  := by
  change (action.bind f).Raises P
  induction action with
  | done a => exact hf a
  | fail fault => exact h
  | read path next ih => exact fun text => ih text (h text)
  | write path text next ih => exact ih h
  | print text next ih => exact ih h
  | tell event next ih => exact ih h
  | now next ih => exact fun time => ih time (h time)

theorem raises_ofExcept {e : Except Fault α} (h : OnlyFaults P e) :
  (ofExcept e).Raises P
  := by
  cases e with
  | ok a => trivial
  | error fault => exact h fault rfl

/-- An action that never fails raises no fault. -/
theorem Takes.raises {action : Action α} (h : action.Takes (· ≠ .fail)) :
  action.Raises P
  := by
  induction action with
  | done a => trivial
  | fail fault => exact absurd rfl h
  | read path next ih => exact fun text => ih text (h.2 text)
  | write path text next ih => exact ih h.2
  | print text next ih => exact ih h.2
  | tell event next ih => exact ih h
  | now next ih => exact fun time => ih time (h time)

/-- An action ends with a fault of the files or with one that it raises. -/
theorem Raises.perform {action : Action α} (h : action.Raises P)
    (hfile : ∀ problem, P (.file problem)) (time : Timestamp) (files : Files) :
  OnlyFaults P (action.perform time files).result
  := by
  induction action generalizing files with
  | done a => exact onlyFaults_ok
  | fail fault => exact onlyFaults_error h
  | read path next ih =>
    rw [Action.perform]
    cases files.read path with
    | ok text => exact ih text (h text) files
    | error problem => exact onlyFaults_error (hfile problem)
  | write path text next ih =>
    rw [Action.perform]
    cases files.write path text with
    | ok written => exact ih h written
    | error problem => exact onlyFaults_error (hfile problem)
  | print text next ih => exact ih h files
  | tell event next ih => exact ih h files
  | now next ih => exact ih time (h time) files

end Action

/-- A document that cannot be read is not at fault with the settings. -/
theorem Format.onlyFaults_read {f : Format} {c : Codec α} {text : String} :
  OnlyFaults Fault.NotSettings (f.read c text)
  := by
  cases f with
  | json =>
    rw [Format.read]
    cases c.ofJson text with
    | ok a => exact onlyFaults_ok
    | error fault =>
      apply onlyFaults_error
      rintro problem ⟨⟩
  | yaml =>
    rw [Format.read]
    cases c.ofYaml text with
    | some a => exact onlyFaults_ok
    | none =>
      apply onlyFaults_error
      rintro problem ⟨⟩

namespace Command

variable {s : Settings} {asJson : Bool}

/-- With a format for the source, loading a listing fails only because of the file. -/
theorem raises_loadListing {s : SourceSettings} {f : Format} (h : s.resolvedFormat = .ok f) :
  (Listing.load s.path s.format).Raises Fault.NotSettings
  := by
  have hread (f : Format) :
      (Action.readFile s.path >>= fun text =>
        Action.ofExcept (f.read Listing.codec text)).Raises Fault.NotSettings :=
    fun text => Action.raises_ofExcept Format.onlyFaults_read
  rw [SourceSettings.resolvedFormat] at h
  cases hformat : s.format with
  | some f => exact hread f
  | none =>
    rw [hformat] at h
    change Format.ofPath s.path = .ok f at h
    rw [Listing.load, h]
    exact hread f

/-- With a format for the output, writing a snapshot fails only because of the file. -/
theorem raises_writeSnapshot {f : Format} (h : s.output.resolvedFormat = .ok f)
    {snapshot : Snapshot} :
  (writeSnapshot s asJson snapshot).Raises Fault.NotSettings
  := by
  have hprints {action : Action Unit} (honly : action.OnlyPrints) :
      action.Raises Fault.NotSettings := by
    apply (honly.mono _).raises
    rintro step rfl
    exact nofun
  have hformat : OnlyFaults Fault.NotSettings s.output.resolvedFormat := by
    rw [h]
    exact onlyFaults_ok
  apply Action.takes_clock.raises.bind
  intro now
  apply (Action.raises_ofExcept hformat).bind
  intro format
  cases s.output.path with
  | some path =>
    apply Action.Raises.bind
    · trivial
    · exact fun _ => hprints onlyPrints_report
  | none => exact hprints Action.onlyPrints_printLine

/-- With formats for the source and the output a listing is detached without a fault that goes back
to settings. -/
theorem raises_detachWith {f g : Format} (hsource : s.source.resolvedFormat = .ok f)
    (houtput : s.output.resolvedFormat = .ok g) :
  (detachWith s asJson).Raises Fault.NotSettings
  := by
  apply (raises_loadListing hsource).bind
  intro listing
  obtain ⟨hwhole, hfiltered⟩ := listing.onlyFaults_detach s.filter
  have hdetached : OnlyFaults Fault.NotSettings (DetachedSchema.detach
      (if s.filter.isEmpty then listing.source else listing.source.filtered s.filter) ()).1.result
    := by
    split
    · exact hwhole
    · exact hfiltered
  apply Action.takes_log.raises.bind
  intro _
  apply Action.Raises.bind
  · apply (Action.takes_forM fun _ => Action.takes_log).raises.bind
    exact fun _ => Action.raises_ofExcept hdetached
  · exact fun snapshot => raises_writeSnapshot houtput

end Command

end DetachedSchema

import DetachedSchema.Proofs.Detach.Consistency
import DetachedSchema.Proofs.Snapshot.Listing

/-!
# Detaching snapshots that were not checked

A snapshot that was read from somewhere need not be consistent.  Detaching it still comes to a
snapshot that is, unless a foreign key that is asked for has no target, or what a foreign key names
is not found again, which among siblings with names of their own happens in no consistent snapshot.
Every name that a snapshot gives it also finds.
-/

namespace DetachedSchema

/-- Where answers differ from others only in that some of them are faults, a script ends in the same
way or with one of these faults. -/
theorem Script.outcome_eq_or_fault {α : Type} {a b : Answers} {F : Query → Fault → Prop}
    (h : ∀ q, b q = a q ∨ ∃ fault, F q fault ∧ b q = .error fault) (s : Script α) :
  s.outcome b = s.outcome a ∨ ∃ q ∈ s.asked b, ∃ fault, F q fault ∧ s.outcome b = .error fault
  := by
  induction s with
  | done x => exact .inl rfl
  | fail fault => exact .inl rfl
  | tell event next ih => exact ih
  | ask q next ih =>
    obtain heq | ⟨fault, hfault, hb⟩ := h q
    · cases ha : a q with
      | error fault =>
        left
        rw [outcome, outcome, heq, ha]
        rfl
      | ok x =>
        rw [ha] at heq
        rw [outcome, outcome, asked, heq, ha]
        obtain hnext | ⟨q', hq', hnext⟩ := ih x
        · exact .inl hnext
        · exact .inr ⟨q', List.mem_cons_of_mem q hq', hnext⟩
    · right
      rw [outcome, asked, hb]
      exact ⟨q, List.mem_cons_self, fault, hfault, rfl⟩

namespace Snapshot

/-- A walk over what a snapshot offers copies its listing, read by paths. -/
theorem outcome_copyAll_offered (s : Snapshot) :
  Walk.copyAll.outcome s.offered = .ok s.listing.byPath.draft
  := by
  apply Script.canEnd_given.mp
  apply Walk.canEnd_copyAll.mpr
  exact ⟨s.listing.byPath, s.records_listing, s.namesColumns_listing.byPath, rfl⟩

/-- With what a snapshot offers only a reference can fail. -/
theorem outcome_script_offered (s : Snapshot) {name : String} {fault : Fault}
    (h : (Detach.script name).outcome s.offered = .error fault) :
  ∃ name table target columns, fault = .unresolvedReference name table target columns
  := by
  rw [Detach.outcome_script s.outcome_copyAll_offered] at h
  obtain ⟨-, k, -, -, -, -, rfl⟩ := Detach.outcome_resolveAll_eq_error.mp h
  exact ⟨_, _, _, _, rfl⟩

/-- A consistent snapshot whose siblings have names of their own is detached to the snapshot of its
listing. -/
theorem Consistent.detach_eq_ok {s : Snapshot} (h : s.Consistent) (hdistinct : s.DistinctNames) :
  (detach s.source ()).1.result = .ok s.listing.snapshot
  := by
  have hrecords := s.records_listing
  rw [Listing.byPath_eq hdistinct.listing, h.offered_eq] at hrecords
  apply (detach_eq_ok_iff (Source.answersAs_ofAnswers _ _)).mpr
  exact ⟨s.listing, hrecords, s.namesColumns_listing, h.resolves_listing hdistinct, rfl⟩

end Snapshot

/-- Whatever a snapshot holds, it is detached to one that passes the check, or a foreign key that
was asked for has no target, or a reference is not resolved; nothing else can fail.  When it passes
the check itself, only a reference can fail, and only if siblings share a name. -/
theorem detach_unchecked (s : Snapshot) :
  (∀ s', (detach s.source ()).1.result = .ok s' → s'.validate = .ok ())
  ∧ (∀ fault, (detach s.source ()).1.result = .error fault →
    (∃ q ∈ (detach s.source ()).1.calls, s.Dangling q fault)
    ∨ ∃ name table target columns, fault = .unresolvedReference name table target columns)
  ∧ (s.validate = .ok () → ∀ fault, (detach s.source ()).1.result = .error fault →
    (∃ name table target columns, fault = .unresolvedReference name table target columns)
    ∧ ¬ s.DistinctNames)
  := by
  have hanswers : s.source.AnswersAs s.answer := Source.answersAs_ofAnswers _ _
  constructor
  · intro s' hs'
    obtain ⟨l, -, hnames, hresolves, rfl⟩ := (detach_eq_ok_iff hanswers).mp hs'
    apply Snapshot.validate_eq_ok.mpr (Listing.snapshot_consistent hnames hresolves)
  constructor
  · intro fault hfault
    rw [detach, Script.result_run hanswers] at hfault
    rw [detach, Script.calls_run hanswers]
    obtain heq | ⟨q, hq, fault', hdangling, heq⟩ :=
      Script.outcome_eq_or_fault s.answer_eq_offered (Detach.script s.source.name)
    · right
      rw [heq] at hfault
      apply s.outcome_script_offered hfault
    · left
      obtain rfl := Except.error.inj (heq.symm.trans hfault)
      exact ⟨q, hq, hdangling⟩
  · intro hs fault hfault
    have hconsistent := Snapshot.validate_eq_ok.mp hs
    constructor
    · rw [detach, Script.result_run hanswers, ← hconsistent.offered_eq] at hfault
      apply s.outcome_script_offered hfault
    · intro hdistinct
      rw [hconsistent.detach_eq_ok hdistinct] at hfault
      cases hfault

/-- A table with a foreign key, and a table of the same name with the key that it refers to. -/
def Listing.namesakes : Listing :=
  let id : ColumnEntry := { name := "id", dataType := { name := "int" } }
  .ofTables "s"
    [{ name := "t"
       columns := [id]
       foreignKeys := [⟨"fk", ["id"], true, ⟨⟨"", "s", "t"⟩, ["id"]⟩⟩] },
     { name := "t", columns := [id], uniqueKeys := [⟨"pk", ["id"], true⟩] }]

/-- The tables of one name pass the check, but the key of the second one is not found again.  When
the second table is cut off, the foreign key has no target. -/
theorem detach_unchecked_namesakes :
  let s := Listing.namesakes.snapshot
  let cut : Snapshot := ⟨s.catalogs.map fun c => { c with
    schemas := c.schemas.map fun x => { x with tables := x.tables.take 1 } }⟩
  s.validate = .ok ()
  ∧ (∃ name table target columns,
    (detach s.source ()).1.result = .error (.unresolvedReference name table target columns))
  ∧ ¬ s.DistinctNames
  ∧ ∃ q fault, (detach cut.source ()).1.result = .error fault ∧ cut.Dangling q fault
  := by
  intro s cut
  obtain ⟨-, -, hvalid⟩ := detach_unchecked s
  obtain ⟨-, hfault, -⟩ := detach_unchecked cut
  have hs : s.validate = .ok () := by decide +kernel
  have hunresolved : (detach s.source ()).1.result
      = .error (.unresolvedReference "fk" "s.t" "s.t" "id") := by decide +kernel
  obtain ⟨-, hnames⟩ := hvalid hs _ hunresolved
  have hstray : (detach cut.source ()).1.result
      = .error (.invalidSnapshot (.noTarget "fk" ⟨"", "s", "t"⟩)) := by decide +kernel
  use hs, ⟨_, _, _, _, hunresolved⟩, hnames
  obtain ⟨q, -, hdangling⟩ | ⟨_, _, _, _, hother⟩ := hfault _ hstray
  · exact ⟨q, _, hstray, hdangling⟩
  · cases hother

end DetachedSchema

import DetachedSchema.Proofs.Format
import DetachedSchema.Proofs.Grounds
import DetachedSchema.Proofs.Snapshot.Consistency

/-!
# Settings that can be used

Settings pass the check exactly when they can be used: the source and the output have paths and
formats, and the entries of the filter are names.  With such settings a detaching run does not fail
because of them any more, and an entry for tables keeps or hides the tables that it names.
-/

namespace DetachedSchema

/-! ### Entries for tables -/

namespace Filter

/-- The text can be the name of a schema or a table in an entry: it is not empty and has no dot. -/
def IsPlain (name : String) : Prop := name ≠ "" ∧ '.' ∉ name.toList

/-- The text can be an entry for tables: it is a name, or two names with a dot between them. -/
def IsForTables (entry : String) : Prop :=
  IsPlain entry ∨ ∃ schema table, IsPlain schema ∧ IsPlain table ∧ entry = schema ++ "." ++ table

/-- An entry without a dot names the tables with that name. -/
theorem names_plain {entry : String} (h : '.' ∉ entry.toList) {path : TablePath} :
  names entry path = true ↔ path.table = entry
  := by
  rw [names, span_of_notMem h]
  simp only [String.ofList_toList, decide_eq_true_eq]
  exact eq_comm

theorem toList_qualified {schema table : String} :
  (schema ++ "." ++ table).toList = schema.toList ++ '.' :: table.toList
  := by simp

/-- An entry with a dot names the table behind the dot in the schema in front of it. -/
theorem names_qualified {schema table : String} (h : '.' ∉ schema.toList) {path : TablePath} :
  names (schema ++ "." ++ table) path = true ↔ path.schema = schema ∧ path.table = table
  := by
  rw [names, toList_qualified, span_append h]
  simp only [String.ofList_toList, Bool.and_eq_true, decide_eq_true_eq]
  exact and_congr eq_comm eq_comm

end Filter

namespace Settings

/-- What the check takes for an entry for tables has one piece or two, and none is empty. -/
theorem isTableEntry_iff {entry : String} :
  isTableEntry entry = true ↔ Filter.IsForTables entry
  := by
  simp only [isTableEntry, Bool.and_eq_true, decide_eq_true_eq, List.all_eq_true]
  constructor
  · rintro ⟨hlength, hpieces⟩
    by_cases hdot : '.' ∈ entry.toList
    · right
      obtain ⟨front, behind, hentry, hfront⟩ := List.eq_append_cons_of_mem hdot
      rw [hentry, Text.split_append hfront] at hlength hpieces
      have hbehind : '.' ∉ behind := by
        -- A second dot would give a third piece.
        intro hsecond
        obtain ⟨middle, rest, rfl, hmiddle⟩ := List.eq_append_cons_of_mem hsecond
        have hrest := List.length_pos_iff.mpr (Text.split_ne_nil '.' rest)
        rw [Text.split_append hmiddle, List.length_cons, List.length_cons] at hlength
        omega
      rw [Text.split_of_notMem hbehind] at hpieces
      use String.ofList front, String.ofList behind
      simp_all [Filter.IsPlain, ← String.toList_inj]
    · left
      rw [Text.split_of_notMem hdot] at hpieces
      simp_all [Filter.IsPlain]
  · rintro (⟨hne, hdot⟩ | ⟨schema, table, ⟨hschema, hfront⟩, ⟨htable, hbehind⟩, rfl⟩)
    · rw [Text.split_of_notMem hdot]
      simpa using hne
    · rw [Filter.toList_qualified, Text.split_append hfront, Text.split_of_notMem hbehind]
      simp [hschema, htable]

/-- A format is set, or the name of the file tells one. -/
def HasFormat (format : Option Format) (path : String) : Prop :=
  format.isSome ∨ ∃ f : Format, f.Tells path

/-- Settings that can be used. -/
structure Usable (s : Settings) : Prop where
  sourcePath : s.source.path ≠ ""
  sourceFormat : HasFormat s.source.format s.source.path
  outputPath : ∀ path ∈ s.output.path, path ≠ ""
  outputFormat : ∀ path ∈ s.output.path, HasFormat s.output.format path
  /-- No entry of the filter is blank. -/
  entries : ∀ e ∈ s.filter.catalogs ++ s.filter.schemas ++ s.filter.tables
    ++ s.filter.excludedTables, ∃ c ∈ e.toList, Text.isBlank c = false
  tables : ∀ e ∈ s.filter.tables ++ s.filter.excludedTables, Filter.IsForTables e

/-! ### The check -/

theorem exists_sourceFormat {s : SourceSettings} :
  (∃ f, s.resolvedFormat = .ok f) ↔ HasFormat s.format s.path
  := by
  rw [SourceSettings.resolvedFormat, HasFormat]
  cases s.format with
  | some f => simp
  | none => simp [Format.ofPath_eq_ok]

/-- With a file to write, the format of the output is found as that of a source is. -/
theorem resolvedFormat_output {s : OutputSettings} {path : String} (hpath : s.path = some path) :
  s.resolvedFormat = SourceSettings.resolvedFormat ⟨path, s.format⟩
  := by
  rw [OutputSettings.resolvedFormat, SourceSettings.resolvedFormat, hpath]
  cases s.format with
  | some f => rfl
  | none => rfl

theorem checkSource_eq_ok {s : SourceSettings} :
  checkSource s = .ok () ↔ s.path ≠ "" ∧ HasFormat s.format s.path
  := by
  rw [checkSource, then_eq_ok, require_eq_ok, require_eq_ok, decide_eq_true_eq, isOk_iff,
    exists_sourceFormat]

theorem checkOutput_eq_ok {s : OutputSettings} :
  checkOutput s = .ok () ↔ ∀ path ∈ s.path, path ≠ "" ∧ HasFormat s.format path
  := by
  rw [checkOutput]
  cases hpath : s.path with
  | none => simp
  | some path =>
    simp only [then_eq_ok, require_eq_ok, decide_eq_true_eq, isOk_iff,
      resolvedFormat_output hpath, exists_sourceFormat, Option.mem_some_iff, forall_eq']

theorem checkFilter_eq_ok {f : Filter} :
  checkFilter f = .ok ()
    ↔ (∀ e ∈ f.catalogs ++ f.schemas ++ f.tables ++ f.excludedTables,
        ∃ c ∈ e.toList, Text.isBlank c = false)
      ∧ ∀ e ∈ f.tables ++ f.excludedTables, Filter.IsForTables e
  := by
  simp only [checkFilter, then_eq_ok, require_eq_ok, forM_eq_ok_iff, isTableEntry_iff]
  simp [and_assoc, or_imp, forall_and]

theorem check_eq_ok {s : Settings} :
  s.check = .ok () ↔ s.Usable
  := by
  rw [check, then_eq_ok, then_eq_ok, checkSource_eq_ok, checkOutput_eq_ok,
    checkFilter_eq_ok]
  constructor
  · rintro ⟨⟨hpath, hformat⟩, houtput, hentries, htables⟩
    exact ⟨hpath, hformat, fun path hpath => (houtput path hpath).1,
      fun path hpath => (houtput path hpath).2, hentries, htables⟩
  · rintro ⟨hpath, hformat, houtputPath, houtputFormat, hentries, htables⟩
    exact ⟨⟨hpath, hformat⟩, fun path hpath => ⟨houtputPath path hpath, houtputFormat path hpath⟩,
      hentries, htables⟩

theorem validate_eq_ok {s : Settings} :
  s.validate = .ok () ↔ s.Usable
  := by
  rw [← check_eq_ok, validate]
  cases s.check with
  | ok u => simp [Except.mapError]
  | error problem => simp [Except.mapError]

/-! ### With settings that can be used -/

namespace Usable

variable {s : Settings} (h : s.Usable)

include h

/-- The source and the output have formats. -/
theorem exists_formats :
  ∃ f g, s.source.resolvedFormat = .ok f ∧ s.output.resolvedFormat = .ok g
  := by
  obtain ⟨f, hf⟩ := exists_sourceFormat.mpr h.sourceFormat
  have houtput : ∃ g, s.output.resolvedFormat = .ok g := by
    cases hpath : s.output.path with
    | some path =>
      rw [resolvedFormat_output hpath]
      exact exists_sourceFormat.mpr (h.outputFormat path hpath)
    | none =>
      rw [OutputSettings.resolvedFormat, hpath]
      cases s.output.format with
      | some g => exact ⟨g, rfl⟩
      | none => exact ⟨.json, rfl⟩
  obtain ⟨g, hg⟩ := houtput
  exact ⟨f, g, hf, hg⟩

/-- No entry for tables has a second dot. -/
theorem count_dot_le {entry : String} (he : entry ∈ s.filter.tables ++ s.filter.excludedTables) :
  entry.toList.count '.' ≤ 1
  := by
  obtain ⟨-, hdot⟩ | ⟨schema, table, ⟨-, hschema⟩, ⟨-, htable⟩, rfl⟩ := h.tables entry he
  · rw [List.count_eq_zero.mpr hdot]
    exact Nat.zero_le 1
  · rw [Filter.toList_qualified, List.count_append, List.count_cons_self,
      List.count_eq_zero.mpr hschema, List.count_eq_zero.mpr htable]

/-- So whatever stands in front of a dot is the name of a schema. -/
theorem notMem_schema {schema table : String}
    (he : schema ++ "." ++ table ∈ s.filter.tables ++ s.filter.excludedTables) :
  '.' ∉ schema.toList
  := by
  have hcount := h.count_dot_le he
  rw [Filter.toList_qualified, List.count_append, List.count_cons_self] at hcount
  apply List.count_eq_zero.mp
  omega

end Usable

/-- Settings pass the check exactly when they can be used.  Then the source and the output have
formats, and the rest of a detaching run does not fail because of the settings, whatever files it
finds; an entry for tables without a dot names the tables with that name in any schema, and one with
a dot names the table behind the dot in the schema in front of it. -/
theorem validate_usable (s : Settings) :
  (s.validate = .ok () ↔ s.Usable)
  ∧ (s.validate = .ok () →
    (∃ f g, s.source.resolvedFormat = .ok f ∧ s.output.resolvedFormat = .ok g)
    ∧ (∀ (asJson : Bool) (time : Timestamp) (files : Files) (problem : SettingsProblem),
      ((Command.detachWith s asJson).perform time files).result ≠ .error (.settings problem))
    ∧ ∀ entry ∈ s.filter.tables ++ s.filter.excludedTables,
      ('.' ∉ entry.toList → ∀ path, Filter.names entry path = true ↔ path.table = entry)
      ∧ ∀ schema table, entry = schema ++ "." ++ table →
        ∀ path, Filter.names entry path = true ↔ path.schema = schema ∧ path.table = table)
  := by
  use validate_eq_ok
  intro hvalid
  have h := validate_eq_ok.mp hvalid
  obtain ⟨f, g, hsource, houtput⟩ := h.exists_formats
  use ⟨f, g, hsource, houtput⟩
  constructor
  · intro asJson time files problem hproblem
    have hraises : (Command.detachWith s asJson).Raises Fault.NotSettings :=
      Command.raises_detachWith hsource houtput
    exact hraises.perform nofun time files _ hproblem problem rfl
  · intro entry he
    constructor
    · intro hdot path
      apply Filter.names_plain hdot
    · rintro schema table rfl path
      apply Filter.names_qualified (h.notMem_schema he)

/-- Settings with a format that the name of the file tells, another one that is set, and entries of
both kinds.  The shop is detached with them, and the customers are named in one schema only. -/
theorem validate_usable_shop :
  let s : Settings :=
    { source := { path := "shop.json" }
      output := { path := some "snapshot", format := some .yaml }
      filter := { schemas := ["sales", "crm"], tables := ["orders", "crm.customers"] } }
  let time : Timestamp := ⟨2024, 1, 1, 0, 0, 0, 0⟩
  s.validate = .ok () ∧ s.Usable
  ∧ s.source.resolvedFormat = .ok .json ∧ s.output.resolvedFormat = .ok .yaml
  ∧ ((Command.detachWith s true).perform time Command.shopFiles).result
    ≠ .error (.settings (.noSourceFormat "shop.json"))
  ∧ Filter.names "orders" ⟨"", "sales", "orders"⟩ = true
  ∧ Filter.names "crm.customers" ⟨"", "crm", "customers"⟩ = true
  ∧ Filter.names "crm.customers" ⟨"", "sales", "customers"⟩ = false
  := by
  intro s time
  have hvalid : s.validate = .ok () := by decide +kernel
  obtain ⟨husable, hrest⟩ := validate_usable s
  obtain ⟨-, hfault, hnames⟩ := hrest hvalid
  obtain ⟨horders, -⟩ := hnames "orders" (by decide)
  obtain ⟨-, hcustomers⟩ := hnames "crm.customers" (by decide)
  have hcrm := hcustomers "crm" "customers" (by decide)
  use hvalid, husable.mp hvalid, by decide +kernel, rfl, hfault true time Command.shopFiles _
  use (horders (by decide) _).mpr rfl, (hcrm _).mpr ⟨rfl, rfl⟩
  rw [← Bool.not_eq_true, hcrm]
  decide

end Settings

end DetachedSchema

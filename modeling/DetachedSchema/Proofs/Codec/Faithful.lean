import DetachedSchema.Codec
import DetachedSchema.Proofs.Json.Reading
import DetachedSchema.Proofs.Yaml.Reading

/-!
# Faithful codecs

A codec is faithful at a value when what it writes for the value is read back as the value, from
both formats.  A record is faithful when its fields are: each member that is written fills the slot
of its field and leaves the others as they are, and a field that is not written has the value that
the reader takes for it.
-/

namespace DetachedSchema.Codec

variable {α β γ σ : Type}

/-- What is written for a value is read as the value. -/
structure Faithful (c : Codec α) (a : α) : Prop where
  json (sp : Json.Spacing) (depth : Nat) : Json.Reader.Reads c.json (sp.value depth (c.encode a)) a
  yaml : Yaml.Reader.Reads c.yaml (c.encode a).node a

/-! ### Simple values -/

theorem faithful_textAs (expected s : String) :
  (textAs expected).Faithful s where
  json _ _ := Json.Reader.reads_textValue expected s
  yaml := Yaml.Reader.reads_text s

theorem faithful_bool (b : Bool) :
  bool.Faithful b where
  json _ _ := Json.Reader.reads_boolValue b
  yaml := Yaml.Reader.reads_bool b

/-- Bounded numbers are read within their bounds. -/
theorem reads_integerValue {low high n : Int} (expected : String) (hlow : low ≤ n)
    (hhigh : n ≤ high) (hmin : Int64.minValue.toInt ≤ low) (hmax : high < UInt64.size)
    (sp : Json.Spacing) (depth : Nat) :
  Json.Reader.Reads (Json.Reader.integerValue low high expected) (sp.value depth (.number n)) n
  := Json.Reader.reads_integerValue expected hlow hhigh (by omega) (by omega)

theorem faithful_count {n : Nat} (hn : n < UInt64.size) :
  count.Faithful n where
  json sp depth := by
    have hhigh : (n : Int) ≤ UInt64.size - 1 := by omega
    have hread := reads_integerValue "usize" (Int.natCast_nonneg n) hhigh (by decide) (by decide)
      sp depth
    exact hread.map Int.toNat
  yaml := Yaml.Reader.reads_natural hn

theorem faithful_word32 (n : UInt32) :
  word32.Faithful n where
  json sp depth := by
    have hhigh : (n.toNat : Int) ≤ UInt32.size - 1 := Int.le_sub_one_of_lt (mod_cast n.toNat_lt)
    have hread := reads_integerValue "u32" (Int.natCast_nonneg _) hhigh (by decide) (by decide) sp
      depth
    exact (hread.map fun n => UInt32.ofNat n.toNat).of_eq UInt32.ofNat_toNat
  yaml := by
    have hread := Yaml.Reader.reads_natural n.toNat_lt
    exact (hread.map UInt32.ofNat).of_eq UInt32.ofNat_toNat

theorem faithful_int64 (n : Int64) :
  int64.Faithful n where
  json sp depth := by
    have hread := reads_integerValue "i64" n.minValue_le_toInt n.toInt_le (by decide) (by decide)
      sp depth
    exact (hread.map Int64.ofInt).of_eq n.ofInt_toInt
  yaml := by
    have hread := Yaml.Reader.reads_integer n.minValue_le_toInt n.toInt_le
    exact (hread.map Int64.ofInt).of_eq n.ofInt_toInt

/-- A notation that is read as what was written makes a faithful codec. -/
theorem faithful_notated {expected : String} {write : α → String}
    {read : String → Except String α} {a : α} (h : read (write a) = .ok a) :
  (notated expected write read).Faithful a where
  json sp depth := by
    intro gap rest hgap hrest
    have htext := Json.Reader.reads_textValue expected (write a) gap rest hgap hrest
    apply (bind_of_ok htext).trans
    rw [h]
    rfl
  yaml := by
    intro root count
    apply (Yaml.Reader.bind_of_some (Yaml.Reader.reads_text (write a) root count)).trans
    rw [h]
    rfl

theorem lookup_name {values : List α} {name : α → String} {a : α} (ha : a ∈ values)
    (hname : ∀ b ∈ values, name b = name a → b = a) :
  (values.map fun a => (name a, a)).lookup (name a) = some a
  := by
  induction values with
  | nil => cases ha
  | cons b values ih =>
    obtain ⟨hb, hname⟩ := List.forall_mem_cons.mp hname
    rw [List.map_cons, List.lookup_cons]
    by_cases hba : name a = name b
    · rw [hba, beq_self_eq_true, hb hba.symm]
    · rw [beq_false_of_ne hba]
      obtain rfl | ha := List.mem_cons.mp ha
      · cases hba rfl
      · apply ih ha hname

/-- Values with different names are told apart by their names. -/
theorem faithful_oneOf {values : List α} {name : α → String} {a : α} (ha : a ∈ values)
    (hname : ∀ b ∈ values, name b = name a → b = a) :
  (oneOf values name).Faithful a where
  json _ _ := Json.Reader.reads_oneOf (lookup_name ha hname)
  yaml := Yaml.Reader.reads_oneOf (lookup_name ha hname)

/-! ### Values made of others -/

theorem faithful_none (c : Codec α) :
  (option c).Faithful none where
  json _ _ := Json.Reader.reads_optional_none c.json
  yaml := Yaml.Reader.reads_optional_none c.yaml

/-- A value is not taken for nothing unless it is written as nothing. -/
theorem Faithful.option {c : Codec α} {a : α} (h : c.Faithful a) (ha : c.encode a ≠ .null) :
  (Codec.option c).Faithful (some a) where
  json sp depth := by
    obtain ⟨c, cs, hcs, hc, hkind⟩ := sp.exists_value depth (c.encode a)
    have hread := h.json sp depth
    rw [Codec.option]
    dsimp only
    rw [hcs] at hread ⊢
    apply hread.optional (Json.Spacing.ne_of_isStart hc).1
    rintro rfl
    exact ha (Tree.eq_null_of_kind hkind.symm)
  yaml := h.yaml.optional ha

theorem Faithful.list {c : Codec α} {as : List α} (h : ∀ a ∈ as, c.Faithful a) :
  (Codec.list c).Faithful as where
  json sp depth := Json.Reader.reads_listOf fun a ha => (h a ha).json sp (depth + 1)
  yaml := Yaml.Reader.reads_listOf fun a ha => (h a ha).yaml

theorem Faithful.map {c : Codec α} {make : α → β} {parts : β → α} {b : β}
    (h : c.Faithful (parts b)) (hmake : make (parts b) = b) :
  (Codec.map c make parts).Faithful b where
  json sp depth := ((h.json sp depth).map make).of_eq hmake
  yaml := (h.yaml.map make).of_eq hmake

/-! ### Records -/

namespace Fields

/-- The names of the fields. -/
def names {β σ : Type} : Fields β σ → List String
  | .nil => []
  | .more name _ _ rest => name :: rest.names

/-- Every field that is written is faithful, and a field that is not written has the value that is
taken for it. -/
def Faithful {β σ : Type} : Fields β σ → β → Prop
  | .nil, _ => True
  | .more _ codec rule rest, (a, b) =>
    (if rule.omits a then rule.absent = some a else codec.Faithful a) ∧ rest.Faithful b

/-- What is known of the fields when all members have been read. -/
def written {β σ : Type} : Fields β σ → β → σ
  | .nil, _ => ()
  | .more _ _ rule rest, (a, b) => (if rule.omits a then none else some a, rest.written b)

theorem Faithful.required {name : String} {codec : Codec α} {rest : Fields β σ} {a : α} {b : β}
    (ha : codec.Faithful a) (hb : rest.Faithful b) :
  (more name codec .required rest).Faithful (a, b)
  := ⟨ha, hb⟩

theorem filled_written (fields : Fields β σ) {b : β} (h : fields.Faithful b) :
  fields.filled (fields.written b) = .ok b
  := by
  induction fields with
  | nil => rfl
  | more name codec rule rest ih =>
    obtain ⟨a, b⟩ := b
    obtain ⟨ha, hb⟩ := h
    have hslot : ((if rule.omits a then none else some a) <|> rule.absent) = some a := by
      by_cases homits : rule.omits a
      · rw [if_pos homits] at ha ⊢
        exact ha
      · rw [if_neg homits]
        rfl
    rw [filled, written, hslot, ih hb]
    rfl

theorem mem_names {fields : Fields β σ} {b : β} {m : String × Tree} (hm : m ∈ fields.members b) :
  m.1 ∈ fields.names
  := by
  induction fields with
  | nil => cases hm
  | more name codec rule rest ih =>
    rw [members] at hm
    split at hm
    · exact List.mem_cons_of_mem _ (ih hm)
    · obtain rfl | hm := List.mem_cons.mp hm
      · exact List.mem_cons_self
      · exact List.mem_cons_of_mem _ (ih hm)

/-- Reading the member turns what is known of the fields from `slots` to `slots'`. -/
structure Takes (fields : Fields β σ) (slots : σ) (m : String × Tree) (slots' : σ) : Prop where
  json (sp : Json.Spacing) (depth : Nat) (rest : List Char) : Json.Spacing.isEnd rest →
    fields.jsonMember slots m.1 (':' :: (sp.colon ++ (sp.value depth m.2 ++ rest)))
      = .ok (slots', rest)
  yaml (root : Yaml.Node) (count : Nat) :
    fields.yamlEntry slots m.1 m.2.node root count = some (slots', count)

/-- A field takes its member when it has none yet. -/
theorem takes_first {name : String} {codec : Codec α} {rule : Rule α} {rest : Fields β σ} {a : α}
    (h : codec.Faithful a) (slots : σ) :
  (more name codec rule rest).Takes (none, slots) (name, codec.encode a) (some a, slots) where
  json sp depth cs hcs := by
    rw [jsonMember, if_pos rfl]
    apply (bind_of_ok Json.Reader.colon_cons).trans
    apply (bind_of_ok (h.json sp depth sp.colon cs sp.colon_gap hcs)).trans
    rfl
  yaml root count := by
    have hguard : (guard (none : Option α).isNone : ReaderT Yaml.Node (StateT Nat Option) Unit)
        root count = some ((), count) := rfl
    rw [yamlEntry, if_pos rfl]
    exact (Yaml.Reader.bind_of_some hguard).trans (Yaml.Reader.bind_of_some (h.yaml root count))

/-- A field leaves a member of another name to the fields behind it. -/
theorem Takes.behind {name : String} {codec : Codec α} {rule : Rule α} {rest : Fields β σ}
    {slots slots' : σ} {m : String × Tree} (h : rest.Takes slots m slots') (hm : m.1 ≠ name)
    (slot : Option α) :
  (more name codec rule rest).Takes (slot, slots) m (slot, slots') where
  json sp depth cs hcs := by
    rw [jsonMember, if_neg hm]
    exact bind_of_ok (h.json sp depth cs hcs)
  yaml root count := by
    rw [yamlEntry, if_neg hm]
    exact Yaml.Reader.bind_of_some (h.yaml root count)

/-- Reading the members one after the other turns what is known of the fields from the first state
to the last. -/
inductive TakesAll (fields : Fields β σ) : σ → List (String × Tree) → σ → Prop
  | nil (slots : σ) : TakesAll fields slots [] slots
  | cons {slots slots' slots'' : σ} {m : String × Tree} {ms : List (String × Tree)} :
    fields.Takes slots m slots' → TakesAll fields slots' ms slots'' →
      TakesAll fields slots (m :: ms) slots''

theorem TakesAll.behind {name : String} {codec : Codec α} {rule : Rule α} {rest : Fields β σ}
    {slots slots' : σ} {ms : List (String × Tree)} (h : rest.TakesAll slots ms slots')
    (hms : ∀ m ∈ ms, m.1 ≠ name) (slot : Option α) :
  (more name codec rule rest).TakesAll (slot, slots) ms (slot, slots')
  := by
  induction h with
  | nil => exact .nil _
  | cons hm hms' ih =>
    obtain ⟨hname, hnames⟩ := List.forall_mem_cons.mp hms
    exact .cons (hm.behind hname slot) (ih hnames)

/-- The members of a record fill its slots. -/
theorem takesAll_members {fields : Fields β σ} (hnames : fields.names.Nodup) {b : β}
    (h : fields.Faithful b) :
  fields.TakesAll fields.vacant (fields.members b) (fields.written b)
  := by
  induction fields with
  | nil => exact .nil _
  | more name codec rule rest ih =>
    obtain ⟨a, b⟩ := b
    obtain ⟨ha, hb⟩ := h
    obtain ⟨hname, hnames⟩ := List.nodup_cons.mp hnames
    have hother : ∀ m ∈ rest.members b, m.1 ≠ name := by
      rintro m hm rfl
      exact hname (mem_names hm)
    have hrest := ih hnames hb
    rw [members, vacant, written]
    by_cases homits : rule.omits a
    · rw [if_pos homits, if_pos homits]
      exact hrest.behind hother none
    · rw [if_neg homits] at ha
      rw [if_neg homits, if_neg homits]
      exact .cons (takes_first ha _) (hrest.behind hother (some a))

/-! ### Reading members -/

/-- Reads a member of a record, or ends it. -/
def memberStep (fields : Fields β σ) (s : Bool × σ) : Json.Reader ((Bool × σ) ⊕ σ) := do
  if ← Json.Reader.nextMember s.1 then
    return .inl (false, ← fields.jsonMember s.2 (← Json.Reader.text))
  else return .inr s.2

theorem memberStep_next {fields : Fields β σ} {isFirst : Bool} {slots slots' : σ} {name : String}
    {t : Tree} {front : List Char → List Char} {rest : List Char}
    (hname : ∀ cs, Json.Reader.nextMember isFirst (front cs) = .ok (true, cs))
    (hm : fields.Takes slots (name, t) slots') (sp : Json.Spacing) (depth : Nat)
    (hrest : Json.Spacing.isEnd rest) :
  memberStep fields (isFirst, slots) (front (name.toList.flatMap Json.escaped ++
      '"' :: ':' :: (sp.colon ++ (sp.value depth t ++ rest))))
    = .ok (.inl (false, slots'), rest)
  := by
  rw [memberStep, bind_of_ok (hname _), if_pos rfl,
    bind_of_ok (Json.Reader.text_append name _),
    bind_of_ok (hm.json sp depth rest hrest)]
  rfl

theorem memberStep_close {fields : Fields β σ} {isFirst : Bool} {slots : σ} {gap rest : List Char}
    (hgap : gap.all Json.Reader.isGap) :
  memberStep fields (isFirst, slots) (gap ++ '\x7d' :: rest) = .ok (.inr slots, '\x7d' :: rest)
  := by
  rw [memberStep, bind_of_ok (Json.Reader.nextMember_close hgap)]
  rfl

/-- The members behind the first one are read in order. -/
theorem loopWithin_members {fields : Fields β σ} {sp : Json.Spacing} {depth : Nat}
    {ms : List (String × Tree)} {slots slots' : σ} (h : fields.TakesAll slots ms slots')
    {limit : Nat} {rest : List Char} (hlimit : ms.length < limit) :
  Json.Reader.loopWithin (memberStep fields) limit (false, slots) (sp.members depth ms ++ rest)
    = .ok (slots', '\x7d' :: rest)
  := by
  induction h generalizing limit with
  | nil =>
    obtain ⟨limit, rfl⟩ := Nat.exists_eq_add_of_lt hlimit
    rw [Json.Spacing.members, List.append_assoc]
    exact Json.Reader.loopWithin_done (memberStep_close (sp.line_gap depth))
  | @cons slots slots' slots'' m ms hm hms ih =>
    obtain ⟨name, t⟩ := m
    obtain ⟨limit, rfl⟩ : ∃ n, limit = n + 1 := ⟨limit - 1, by omega⟩
    have hrest : Json.Spacing.isEnd (sp.members depth ms ++ rest) := Json.Spacing.isEnd_members
    have hnext := memberStep_next (Json.Reader.nextMember_comma (sp.line_gap (depth + 1))) hm sp
      (depth + 1) hrest
    simp only [Json.Spacing.members, Json.text, List.cons_append, List.append_assoc,
      List.nil_append] at hnext ⊢
    rw [Json.Reader.loopWithin_next hnext]
    exact ih (by simpa using hlimit)

/-- The members of a record are read after its opening brace. -/
theorem jsonMembers_members {fields : Fields β σ} (hnames : fields.names.Nodup) {b : β}
    (h : fields.Faithful b) {sp : Json.Spacing} {depth : Nat} {cs rest : List Char}
    (hcs : sp.value depth (.record (fields.members b)) = '\x7b' :: cs) :
  fields.jsonMembers (cs ++ rest) = .ok (b, rest)
  := by
  have hloop : Json.Reader.loop (memberStep fields) (true, fields.vacant) (cs ++ rest)
      = .ok (fields.written b, '\x7d' :: rest) := by
    have htakes := takesAll_members hnames h
    rw [Json.Reader.loop]
    generalize fields.members b = ms at htakes hcs
    generalize fields.vacant = slots, fields.written b = slots' at htakes
    cases htakes with
    | nil =>
      obtain rfl := (List.cons.inj hcs).2
      have hnil : ([] : List Char).all Json.Reader.isGap := rfl
      exact Json.Reader.loopWithin_done (memberStep_close hnil)
    | @cons _ slots' _ m ms hm hms =>
      obtain ⟨name, t⟩ := m
      have hrest : Json.Spacing.isEnd (sp.members depth ms ++ rest) := Json.Spacing.isEnd_members
      have hnext := memberStep_next (Json.Reader.nextMember_first (sp.line_gap (depth + 1))) hm sp
        (depth + 1) hrest
      rw [Json.Spacing.value] at hcs
      simp only [List.cons_append] at hcs
      obtain rfl := (List.cons.inj hcs).2
      have hlimit := Json.Reader.length_members sp depth ms
      simp only [Json.text, List.cons_append, List.append_assoc, List.nil_append] at hnext ⊢
      rw [Json.Reader.loopWithin_next hnext]
      apply loopWithin_members hms
      simp only [List.length_append, List.length_cons]
      omega
  rw [jsonMembers]
  apply (bind_of_ok hloop).trans
  rw [filled_written fields h]
  rfl

/-! ### Reading entries -/

/-- The entries of a map are read in order. -/
theorem foldlM_entries {fields : Fields β σ} {ms : List (String × Tree)} {slots slots' : σ}
    (h : fields.TakesAll slots ms slots') (root : Yaml.Node) (count : Nat) :
  ((Tree.entries ms).foldlM (fun slots (key, value) => do
      fields.yamlEntry slots (← Yaml.Reader.text key) value) slots :
      ReaderT Yaml.Node (StateT Nat Option) σ) root count
    = some (slots', count)
  := by
  induction h with
  | nil => rfl
  | @cons _ _ _ m ms hm hms ih =>
    obtain ⟨name, t⟩ := m
    have hname := Yaml.Reader.reads_name name root count
    rw [Tree.entries, List.foldlM_cons]
    refine (Yaml.Reader.bind_of_some ?_).trans ih
    exact (Yaml.Reader.bind_of_some hname).trans (hm.yaml root count)

theorem reads_yaml {fields : Fields β σ} (hnames : fields.names.Nodup) {b : β}
    (h : fields.Faithful b) :
  Yaml.Reader.Reads fields.yaml (Tree.record (fields.members b)).node b
  := by
  intro root count
  have htakes := takesAll_members hnames h
  have hresolve := Yaml.Reader.reads_resolve (.record (fields.members b)) root count
  rw [yaml, Yaml.Reader.bind_of_some hresolve, Tree.node]
  dsimp only [Yaml.Reader.entries]
  rw [Yaml.Reader.bind_of_some (foldlM_entries htakes root count), filled_written fields h]
  rfl

end Fields

/-- A record is faithful when its fields are. -/
theorem faithful_record {name : String} {fields : Fields β σ} {make : β → α} {parts : α → β} {a : α}
    (hnames : fields.names.Nodup) (h : fields.Faithful (parts a)) (hmake : make (parts a) = a) :
  (record name fields make parts).Faithful a where
  json sp depth := by
    intro gap rest hgap hrest
    obtain ⟨cs, hcs⟩ : ∃ cs,
        sp.value depth (.record (fields.members (parts a))) = '\x7b' :: cs := by
      cases fields.members (parts a) with
      | nil => exact ⟨_, rfl⟩
      | cons m ms => exact ⟨_, rfl⟩
    have hopen : ¬ Json.Reader.isGap '\x7b' := by decide
    have hmembers : fields.jsonMembers (cs ++ rest) = .ok (parts a, rest) :=
      Fields.jsonMembers_members hnames h hcs
    rw [record]
    dsimp only
    rw [hcs, List.cons_append]
    apply (bind_of_ok (Json.Reader.peek_gap hgap hopen)).trans
    apply (bind_of_ok Json.Reader.take_cons).trans
    rw [map_of_ok hmembers, hmake]
  yaml := ((Fields.reads_yaml hnames h).map make).of_eq hmake

/-! ### Whole documents -/

/-- A printed JSON document is read as what it was printed for. -/
theorem Faithful.ofJson {c : Codec α} {a : α} (h : c.Faithful a) (isPretty : Bool) :
  c.ofJson (c.toJson isPretty a) = .ok a
  := by
  obtain ⟨sp, hsp⟩ := Json.Spacing.exists_print_eq isPretty (c.encode a)
  have hread := h.json sp 0 [] [] rfl rfl
  rw [List.nil_append, List.append_nil] at hread
  rw [Codec.ofJson, toJson, Json.Reader.run, hsp, hread]
  rfl

/-- A printed YAML document is read as what it was printed for. -/
theorem Faithful.ofYaml {c : Codec α} {a : α} (h : c.Faithful a)
    (htext : Yaml.ReadsBack (c.encode a)) :
  c.ofYaml (c.toYaml a) = some a
  := by
  rw [Yaml.ReadsBack] at htext
  rw [Codec.ofYaml, toYaml, Yaml.Reader.run, htext]
  simp [h.yaml _ _]

end DetachedSchema.Codec

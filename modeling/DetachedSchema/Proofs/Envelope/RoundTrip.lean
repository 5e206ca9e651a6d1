import DetachedSchema.Detach
import DetachedSchema.Listing.Source
import DetachedSchema.Proofs.Envelope.Verification
import DetachedSchema.Proofs.Listing.Snapshot
import DetachedSchema.Proofs.Snapshot.Fits
import DetachedSchema.Proofs.Timestamp
import DetachedSchema.Proofs.Yaml.Document

/-!
# Documents that are read back

Whatever is written in a document is read back as it was: listings, and snapshots in their
envelopes.
-/

namespace DetachedSchema

/-- What is written for a value is read as the value, whatever the format. -/
theorem Codec.Faithful.read_write {α : Type} {c : Codec α} {a : α} (h : c.Faithful a) (f : Format)
    (isPretty : Bool) (htext : Yaml.ReadsBack (c.encode a)) :
  f.read c (f.write c isPretty a) = .ok a
  := by
  cases f with
  | json =>
    rw [Format.read, Format.write, h.ofJson isPretty]
    rfl
  | yaml =>
    rw [Format.read, Format.write, h.ofYaml htext]

/-! ### Envelopes -/

theorem Timestamp.faithful {t : Timestamp} (h : t.Valid) :
  codec.Faithful t
  := Codec.faithful_notated (by rw [read_text h]; rfl)

theorem Envelope.faithful {e : Envelope} (hcreated : e.created.Valid)
    (hstats : (Stats.codec.encode e.stats).Fits)
    (hsnapshot : (Snapshot.codec.encode e.snapshot).Fits) :
  codec.Faithful e
  := by
  refine Codec.faithful_record (by decide) ?_ rfl
  apply Codec.Fields.Faithful.required (Codec.faithful_word32 e.version)
  apply Codec.Fields.Faithful.required (Timestamp.faithful hcreated)
  apply Codec.Fields.Faithful.required (Codec.faithful_textAs _ e.source)
  apply Codec.Fields.Faithful.required (Codec.faithful_textAs _ e.fingerprint)
  apply Codec.Fields.Faithful.required (Codec.Lawful.faithful e.stats hstats)
  apply Codec.Fields.Faithful.required (Codec.Lawful.faithful e.snapshot hsnapshot)
  trivial

theorem Envelope.hasNames (e : Envelope) :
  (codec.encode e).HasNames
  := by
  have hstats : (Stats.codec.encode e.stats).HasNames := Codec.Lawful.hasNames e.stats
  have hsnapshot : (Snapshot.codec.encode e.snapshot).HasNames := Codec.Lawful.hasNames e.snapshot
  refine Codec.hasNames_record (by decide) fun m hm => ?_
  simp only [Codec.Fields.members, Codec.Rule.required, Bool.false_eq_true, if_false,
    List.mem_cons, List.not_mem_nil, or_false] at hm
  obtain rfl | rfl | rfl | rfl | rfl | rfl := hm
  · trivial
  · trivial
  · trivial
  · trivial
  · exact hstats
  · exact hsnapshot

theorem Envelope.read_write_wrap {s : Snapshot} (hs : s.validate = .ok ()) (hfits : s.stats.Fits)
    (source : String) {created : Timestamp} (hcreated : created.Valid) (f : Format)
    (isPretty : Bool) :
  read f ((wrap s source created).write f isPretty) = .ok (wrap s source created)
  := by
  have hsnapshot := (Snapshot.validate_eq_ok.mp hs).fits hfits
  have hfaithful : codec.Faithful (wrap s source created) :=
    faithful hcreated (Stats.fits_encode hfits) hsnapshot
  have hback := Yaml.readsBack_record (hasNames (wrap s source created))
  rw [read, write, hfaithful.read_write f isPretty hback]
  dsimp only [Bind.bind, Except.bind]
  rw [verify_wrap hs]
  rfl

/-! ### Documents -/

/-- A listing is read as it was written. -/
theorem Listing.read_write (l : Listing) (f : Format) (isPretty : Bool) :
  f.read codec (f.write codec isPretty l) = .ok l
  := by
  have hfaithful : codec.Faithful l := Codec.Lawful.faithful l (Codec.Bounded.fits l)
  have hnames : (codec.encode l).HasNames := Codec.Lawful.hasNames l
  exact hfaithful.read_write f isPretty (Yaml.readsBack_record hnames)

/-- Envelopes of snapshots that pass the check, and listings, are read as they were written, in both
formats. -/
theorem read_written_documents {s : Snapshot} (hs : s.validate = .ok ()) (hfits : s.stats.Fits)
    (source : String) {created : Timestamp} (hcreated : created.Valid) (d : Listing) (f : Format)
    (isPretty : Bool) :
  Envelope.read f ((Envelope.wrap s source created).write f isPretty)
      = .ok (.wrap s source created)
  ∧ f.read Listing.codec (f.write Listing.codec isPretty d) = .ok d
  := by
  constructor
  · exact Envelope.read_write_wrap hs hfits source hcreated f isPretty
  · exact d.read_write f isPretty

/-- A listing with entities of every kind: columns with and without particulars, a comment, a
default and a view whose texts a format has to quote or to break into lines, an index in both
directions, keys that are not enforced, a reference from a table to itself, a sequence with the
least and the greatest of the numbers, and a catalog of which only the name is known. -/
def Listing.registry : Listing where
  catalogs :=
    let id : ColumnEntry := { name := "id", dataType := DataType.generated { name := "int" } }
    let name : ColumnEntry :=
      { name := "name"
        dataType := (DataType.withLength { name := "varchar" } 40).withDefault "null"
        comment := "yes: \"no\" # 1.5" }
    let people : TableListing :=
      { name := "people"
        columns := [id, name, { name := "chief", dataType := { name := "int" } }]
        indexes := [⟨"by_name", [⟨"name", .descending⟩, ⟨"id", .ascending⟩], true⟩]
        uniqueKeys := [⟨"pk", ["id"], true⟩, ⟨"uk", ["name", "id"], false⟩]
        primaryKey := some ⟨"pk", ["id"], true⟩
        foreignKeys := [⟨"fk", ["chief"], false, ⟨⟨"", "hr", "people"⟩, ["id"]⟩⟩]
        checks := [⟨"named", "name IS NOT NULL", false⟩] }
    let names : TableListing :=
      { name := "names", options := .view "select name\nfrom people\n", columns := [name] }
    let amount : DomainEntry :=
      { name := "amount"
        dataType := (DataType.withPrecision { name := "decimal" } 12 2).required
        checks := [⟨"positive", "VALUE > 0", true⟩] }
    let numbers : SequenceEntry :=
      { name := "q", dataType := { name := "bigint" }, startWith := some (-5)
        incrementBy := some (-1), minValue := some Int64.minValue, maxValue := some Int64.maxValue
        cycle := true, cache := some 20, live := true }
    let point : UserTypeEntry :=
      { name := "point", package := some "geo", synthetic := true, attributes := [id, name] }
    [{ schemas :=
        [{ name := "hr"
           domains := [amount]
           tables := [people, names]
           sequences := [numbers, { name := "r", dataType := { name := "int" } }]
           userTypes := [point, { name := "empty" }] }] },
     { name := "archive", comment := "été" }]

/-- The snapshot of the registry travels in its envelope, and so does the listing itself, in YAML
and in JSON. -/
theorem read_written_documents_registry :
  let s := Listing.registry.snapshot
  let e := Envelope.wrap s "registry.yaml" ⟨2024, 2, 29, 23, 59, 0, 5000000⟩
  (detach Listing.registry.source ()).1.result = .ok s
  ∧ s.stats = ⟨2, 1, 1, 2, 4, 1, 2, 1, 1, 1, 2, 2⟩
  ∧ Envelope.read .yaml (e.write .yaml false) = .ok e
  ∧ Envelope.read .json (e.write .json true) = .ok e
  ∧ Format.yaml.read Listing.codec (Format.yaml.write Listing.codec false .registry)
    = .ok .registry
  ∧ Format.json.read Listing.codec (Format.json.write Listing.codec true .registry)
    = .ok .registry
  := by
  have hdetach : (detach Listing.registry.source ()).1.result
      = .ok Listing.registry.snapshot := by
    decide +kernel
  have hvalid : Listing.registry.snapshot.validate = .ok () := by decide +kernel
  have hstats : Listing.registry.snapshot.stats = ⟨2, 1, 1, 2, 4, 1, 2, 1, 1, 1, 2, 2⟩ := by
    decide +kernel
  have hfits : Listing.registry.snapshot.stats.Fits := by
    rw [hstats]
    constructor <;> decide
  have htime : (⟨2024, 2, 29, 23, 59, 0, 5000000⟩ : Timestamp).Valid := by constructor <;> decide
  obtain ⟨hyaml, hyaml'⟩ :=
    read_written_documents hvalid hfits "registry.yaml" htime .registry .yaml false
  obtain ⟨hjson, hjson'⟩ :=
    read_written_documents hvalid hfits "registry.yaml" htime .registry .json true
  exact ⟨hdetach, hstats, hyaml, hjson, hyaml', hjson'⟩

end DetachedSchema

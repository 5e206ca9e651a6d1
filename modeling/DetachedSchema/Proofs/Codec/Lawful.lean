import DetachedSchema.Proofs.Codec.Faithful
import DetachedSchema.Proofs.Codec.Fits
import DetachedSchema.Proofs.Yaml.Names
import Mathlib.Data.List.Nodup

/-!
# Lawful codecs

A codec is lawful when it is faithful at every value, writes different values differently and gives
members only names that can be keys.  The one thing that a document cannot hold is a number of more
than 64 bits; a tree without one fits.  Being lawful passes from the fields to the record, so that
it is found for every type of a document by its description alone.
-/

namespace DetachedSchema

namespace Codec

variable {α β γ σ : Type}

/-! ### Laws -/

/-- What fits is read as what it was written for, different values are written differently, and all
names can be keys. -/
class Lawful (c : Codec α) : Prop where
  faithful (a : α) : (c.encode a).Fits → c.Faithful a
  injective : Function.Injective c.encode
  hasNames (a : α) : (c.encode a).HasNames

/-- No value is written as nothing. -/
class Solid (c : Codec α) : Prop where
  encode_ne (a : α) : c.encode a ≠ .null

/-- The value that is taken for a field that is not written is the one that was not written. -/
class Rule.Lawful (rule : Rule α) : Prop where
  absent_eq {a : α} : rule.omits a → rule.absent = some a

/-- The names of the fields are different, and they can be keys. -/
def Fields.Named (fields : Fields β σ) : Prop :=
  fields.names.Nodup ∧ ∀ name ∈ fields.names, Yaml.Scalar.IsName name

instance (fields : Fields β σ) : Decidable fields.Named := inferInstanceAs (Decidable (_ ∧ _))

/-- Every field of a record is lawful. -/
class Fields.Lawful (fields : Fields β σ) : Prop where
  faithful (b : β) : (∀ m ∈ fields.members b, m.2.Fits) → fields.Faithful b
  injective : fields.names.Nodup → Function.Injective fields.members
  hasNames (b : β) : ∀ m ∈ fields.members b, m.2.HasNames

/-! ### Simple values -/

instance (expected : String) : (textAs expected).Lawful where
  faithful s _ := faithful_textAs expected s
  injective _ _ h := Tree.text.inj h
  hasNames _ := trivial

instance (expected : String) : (textAs expected).Solid where
  encode_ne _ h := by cases h

instance : text.Lawful := inferInstanceAs (textAs _).Lawful

instance : text.Solid := inferInstanceAs (textAs _).Solid

instance : bool.Lawful where
  faithful b _ := faithful_bool b
  injective _ _ h := Tree.bool.inj h
  hasNames _ := trivial

instance : count.Lawful where
  faithful n h := by
    rw [count, Tree.Fits] at h
    exact faithful_count (by omega)
  injective _ _ h := Int.ofNat.inj (Tree.number.inj h)
  hasNames _ := trivial

instance : count.Solid where
  encode_ne _ h := by cases h

instance : word32.Lawful where
  faithful n _ := faithful_word32 n
  injective _ _ h := UInt32.toNat.inj (Int.ofNat.inj (Tree.number.inj h))
  hasNames _ := trivial

instance : word32.Solid where
  encode_ne _ h := by cases h

instance : int64.Lawful where
  faithful n _ := faithful_int64 n
  injective _ _ h := Int64.toInt.inj (Tree.number.inj h)
  hasNames _ := trivial

instance : int64.Solid where
  encode_ne _ h := by cases h

theorem lawful_oneOf {values : List α} {name : α → String} (hvalues : ∀ a, a ∈ values)
    (hnames : (values.map name).Nodup) :
  (oneOf values name).Lawful where
  faithful a _ :=
    faithful_oneOf (hvalues a) fun _ hb => List.inj_on_of_nodup_map hnames hb (hvalues a)
  injective a b h := List.inj_on_of_nodup_map hnames (hvalues a) (hvalues b) (Tree.text.inj h)
  hasNames _ := trivial

/-! ### Values made of others -/

instance (c : Codec α) [c.Lawful] [c.Solid] : (option c).Lawful where
  faithful a h := by
    cases a with
    | none => exact faithful_none c
    | some a => exact (Lawful.faithful a h).option (Solid.encode_ne a)
  injective a b h := by
    cases a with
    | none =>
      cases b with
      | none => rfl
      | some b => cases Solid.encode_ne b h.symm
    | some a =>
      cases b with
      | none => cases Solid.encode_ne a h
      | some b => exact congrArg some (Lawful.injective h)
  hasNames a := by
    cases a with
    | none => trivial
    | some a => exact Lawful.hasNames a

instance (c : Codec α) [c.Lawful] : (list c).Lawful where
  faithful as h := by
    have hitems := Tree.fits_list.mp h
    exact .list fun a ha => Lawful.faithful a (hitems _ (List.mem_map_of_mem ha))
  injective _ _ h :=
    (List.map_inj_right fun a b (hab : c.encode a = c.encode b) => Lawful.injective hab).mp
      (Tree.list.inj h)
  hasNames as := Tree.itemsHaveNames_iff.mpr (List.forall_mem_map.mpr fun a _ => Lawful.hasNames a)

theorem lawful_map {c : Codec α} [c.Lawful] {make : α → β} {parts : β → α}
    (hmake : ∀ b, make (parts b) = b) :
  (map c make parts).Lawful where
  faithful b h := (Lawful.faithful (parts b) h).map (hmake b)
  injective _ _ h := Function.LeftInverse.injective hmake (Lawful.injective h)
  hasNames b := Lawful.hasNames (parts b)

/-! ### Rules -/

instance : (Rule.required : Rule α).Lawful where
  absent_eq h := by cases h

instance : (Rule.optional : Rule (Option α)).Lawful where
  absent_eq h := by cases h

instance (a : α) : (Rule.default a).Lawful where
  absent_eq h := by cases h

instance : (Rule.omitted : Rule (Option α)).Lawful where
  absent_eq h := by rw [Option.isNone_iff_eq_none.mp h]; rfl

/-! ### Records -/

instance : Fields.nil.Lawful where
  faithful _ _ := trivial
  injective _ _ _ _ := rfl
  hasNames _ _ hm := by cases hm

instance (name : String) (codec : Codec α) (rule : Rule α) (rest : Fields β σ) [codec.Lawful]
    [rule.Lawful] [rest.Lawful] : (Fields.more name codec rule rest).Lawful where
  faithful := by
    rintro ⟨a, b⟩ h
    rw [Fields.members] at h
    rw [Fields.Faithful]
    split at h
    next homits =>
      rw [if_pos homits]
      exact ⟨Rule.Lawful.absent_eq homits, Fields.Lawful.faithful b h⟩
    next homits =>
      obtain ⟨ha, hb⟩ := List.forall_mem_cons.mp h
      rw [if_neg homits]
      exact ⟨Lawful.faithful a ha, Fields.Lawful.faithful b hb⟩
  injective := by
    rintro hnames ⟨a, b⟩ ⟨a', b'⟩ h
    obtain ⟨hname, hnames⟩ := List.nodup_cons.mp hnames
    have hother : ∀ b t ms, rest.members b ≠ (name, t) :: ms :=
      fun b t ms heq => hname (Fields.mem_names (heq ▸ List.mem_cons_self))
    rw [Fields.members, Fields.members] at h
    -- A field that is written by one record and not by the other would be another field of it.
    by_cases ha : rule.omits a
    · by_cases ha' : rule.omits a'
      · rw [if_pos ha, if_pos ha'] at h
        have heq := (Rule.Lawful.absent_eq ha).symm.trans (Rule.Lawful.absent_eq ha')
        rw [Option.some.inj heq, Fields.Lawful.injective hnames h]
      · rw [if_pos ha, if_neg ha'] at h
        cases hother _ _ _ h
    · by_cases ha' : rule.omits a'
      · rw [if_neg ha, if_pos ha'] at h
        cases hother _ _ _ h.symm
      · rw [if_neg ha, if_neg ha'] at h
        obtain ⟨hm, hms⟩ := List.cons.inj h
        rw [Lawful.injective (Prod.mk.inj hm).2, Fields.Lawful.injective hnames hms]
  hasNames := by
    rintro ⟨a, b⟩
    rw [Fields.members]
    split
    · exact Fields.Lawful.hasNames b
    · exact List.forall_mem_cons.mpr ⟨Lawful.hasNames a, Fields.Lawful.hasNames b⟩

/-- A record of named fields has names wherever the values of its fields have. -/
theorem hasNames_record {name : String} {fields : Fields β σ} {make : β → α} {parts : α → β} {a : α}
    (hnames : fields.Named) (h : ∀ m ∈ fields.members (parts a), m.2.HasNames) :
  ((record name fields make parts).encode a).HasNames
  := Tree.membersHaveNames_iff.mpr fun m hm => ⟨hnames.2 m.1 (Fields.mem_names hm), h m hm⟩

theorem lawful_record {name : String} {fields : Fields β σ} [fields.Lawful] {make : β → α}
    {parts : α → β} (hnames : fields.Named) (hmake : ∀ a, make (parts a) = a) :
  (record name fields make parts).Lawful where
  faithful a h :=
    faithful_record hnames.1 (Fields.Lawful.faithful (parts a) (Tree.fits_record.mp h)) (hmake a)
  injective _ _ h :=
    Function.LeftInverse.injective hmake (Fields.Lawful.injective hnames.1 (Tree.record.inj h))
  hasNames a := hasNames_record hnames (Fields.Lawful.hasNames (parts a))

theorem solid_record {name : String} {fields : Fields β σ} {make : β → α} {parts : α → β} :
  (record name fields make parts).Solid where
  encode_ne _ h := by cases h

end Codec

end DetachedSchema

import DetachedSchema.Codec
import Mathlib.Tactic.Common

/-!
# Trees that fit

The one thing that a document cannot hold is a number of more than 64 bits.  What a codec writes
without counts always fits; where there are counts, they have to be bounded.
-/

namespace DetachedSchema

/-! ### Trees that fit -/

mutual

/-- Every number of the tree fits 64 bits. -/
def Tree.Fits : Tree → Prop
  | .number n => n < UInt64.size
  | .list ts => ItemsFit ts
  | .record ms => MembersFit ms
  | .null | .bool _ | .text _ => True

/-- Every number of the items fits 64 bits. -/
def Tree.ItemsFit : List Tree → Prop
  | [] => True
  | t :: ts => t.Fits ∧ ItemsFit ts

/-- Every number of the members fits 64 bits. -/
def Tree.MembersFit : List (String × Tree) → Prop
  | [] => True
  | (_, t) :: ms => t.Fits ∧ MembersFit ms

end

/-- A list fits when its items do. -/
theorem Tree.fits_list {ts : List Tree} :
  (Tree.list ts).Fits ↔ ∀ t ∈ ts, t.Fits
  := by
  rw [Fits]
  induction ts with
  | nil => simp [ItemsFit]
  | cons t ts ih => simp [ItemsFit, ih]

/-- A record fits when the values of its members do. -/
theorem Tree.fits_record {ms : List (String × Tree)} :
  (Tree.record ms).Fits ↔ ∀ m ∈ ms, m.2.Fits
  := by
  rw [Fits]
  induction ms with
  | nil => simp [MembersFit]
  | cons m ms ih => simp [MembersFit, ih]

namespace Codec

variable {α β σ : Type}

/-- Whatever the codec writes fits. -/
class Bounded (c : Codec α) : Prop where
  fits (a : α) : (c.encode a).Fits

/-- Whatever is written for the fields of a record fits. -/
class Fields.Bounded (fields : Fields β σ) : Prop where
  fits (b : β) : ∀ m ∈ fields.members b, m.2.Fits

/-! ### Simple values -/

instance (expected : String) : (textAs expected).Bounded where
  fits _ := trivial

instance : text.Bounded := inferInstanceAs (textAs _).Bounded

instance : bool.Bounded where
  fits _ := trivial

theorem fits_count {n : Nat} (hn : n < UInt64.size) :
  (count.encode n).Fits
  := by
  rw [count, Tree.Fits]
  omega

instance : word32.Bounded where
  fits n := by
    have hn : n.toNat < UInt32.size := n.toNat_lt
    have hsize : UInt32.size < UInt64.size := by decide
    rw [word32, Tree.Fits]
    omega

instance : int64.Bounded where
  fits n := by
    have hn := n.toInt_lt
    have hsize : UInt64.size = 2 ^ 64 := rfl
    rw [int64, Tree.Fits]
    omega

instance (values : List α) (name : α → String) : (oneOf values name).Bounded where
  fits _ := trivial

/-! ### Values made of others -/

theorem fits_option {c : Codec α} {a : Option α} (h : ∀ x ∈ a, (c.encode x).Fits) :
  ((option c).encode a).Fits
  := by
  cases a with
  | none => trivial
  | some a => exact h a rfl

instance (c : Codec α) [c.Bounded] : (option c).Bounded where
  fits _ := fits_option fun a _ => Bounded.fits a

theorem fits_list {c : Codec α} {as : List α} (h : ∀ a ∈ as, (c.encode a).Fits) :
  ((list c).encode as).Fits
  := Tree.fits_list.mpr (List.forall_mem_map.mpr h)

instance (c : Codec α) [c.Bounded] : (list c).Bounded where
  fits _ := fits_list fun a _ => Bounded.fits a

/-! ### Records -/

/-- What is written for every field fits. -/
def Fields.Fit {β σ : Type} : Fields β σ → β → Prop
  | .nil, _ => True
  | .more _ codec _ rest, (a, b) => (codec.encode a).Fits ∧ rest.Fit b

theorem Fields.fits_of_mem {fields : Fields β σ} {b : β} (h : fields.Fit b) {m : String × Tree}
    (hm : m ∈ fields.members b) :
  m.2.Fits
  := by
  induction fields with
  | nil => cases hm
  | more name codec rule rest ih =>
    obtain ⟨a, b⟩ := b
    rw [members] at hm
    split at hm
    · exact ih h.2 hm
    · obtain rfl | hm := List.mem_cons.mp hm
      · exact h.1
      · exact ih h.2 hm

/-- What is written for a record fits when what is written for its fields does. -/
theorem fits_record {name : String} {fields : Fields β σ} {make : β → α} {parts : α → β} {a : α}
    (h : fields.Fit (parts a)) :
  ((record name fields make parts).encode a).Fits
  := Tree.fits_record.mpr fun _ => Fields.fits_of_mem h

instance : Fields.nil.Bounded where
  fits _ := List.forall_mem_nil _

instance (name : String) (codec : Codec α) (rule : Rule α) (rest : Fields β σ) [codec.Bounded]
    [rest.Bounded] : (Fields.more name codec rule rest).Bounded where
  fits := by
    rintro ⟨a, b⟩
    rw [Fields.members]
    split
    · exact Fields.Bounded.fits b
    · exact List.forall_mem_cons.mpr ⟨Bounded.fits a, Fields.Bounded.fits b⟩

/-- Whatever is written for a record fits when that holds of its fields. -/
theorem bounded_record {name : String} {fields : Fields β σ} [fields.Bounded] {make : β → α}
    {parts : α → β} :
  (record name fields make parts).Bounded where
  fits a := Tree.fits_record.mpr (Fields.Bounded.fits (parts a))

end Codec

end DetachedSchema

import DetachedSchema.Proofs.Yaml.Plain

/-!
# Names

The names of members that are written as they are.  A name has to be seen as a key when the colon
behind it is read, so that it may not be too long.
-/

namespace DetachedSchema

namespace Yaml.Scalar

open Glyph

variable {name : List Char}

/-- A name that a member of a record may have. -/
structure IsName (name : String) : Prop where
  ne_nil : name.toList ≠ []
  letters : ∀ x ∈ name.toList, isLetter x
  length_le : name.toList.length ≤ 1024

instance (name : String) : Decidable (IsName name) :=
  decidable_of_iff (name.toList ≠ [] ∧ name.toList.all isLetter ∧ name.toList.length ≤ 1024)
    ⟨fun ⟨hne, hletters, hlength⟩ => ⟨hne, List.all_eq_true.mp hletters, hlength⟩,
      fun ⟨hne, hletters, hlength⟩ => ⟨hne, List.all_eq_true.mpr hletters, hlength⟩⟩

/-- Letters take one byte each. -/
theorem size_of_isLetter (h : ∀ x ∈ name, isLetter x) :
  size name = name.length
  := by
  induction name with
  | nil => rfl
  | cons x name ih =>
    obtain ⟨hx, hname⟩ := List.forall_mem_cons.mp h
    rw [size_cons, utf8Size_of_isLetter hx, ih hname, List.length_cons, Nat.add_comm]

end Yaml.Scalar

/-! ### The names in a tree -/

mutual

/-- Whether all names of members can be keys. -/
def Tree.HasNames : Tree → Prop
  | .list ts => itemsHaveNames ts
  | .record ms => membersHaveNames ms
  | _ => True

/-- Whether all names in the items of a list can be keys. -/
def Tree.itemsHaveNames : List Tree → Prop
  | [] => True
  | t :: ts => t.HasNames ∧ itemsHaveNames ts

/-- Whether the names of members and all names in them can be keys. -/
def Tree.membersHaveNames : List (String × Tree) → Prop
  | [] => True
  | (name, t) :: ms => Yaml.Scalar.IsName name ∧ t.HasNames ∧ membersHaveNames ms

end

/-- The names in the items of a list are those of each item. -/
theorem Tree.itemsHaveNames_iff {ts : List Tree} :
  itemsHaveNames ts ↔ ∀ t ∈ ts, t.HasNames
  := by
  induction ts with
  | nil => simp [itemsHaveNames]
  | cons t ts ih => rw [itemsHaveNames, ih, List.forall_mem_cons]

theorem Tree.membersHaveNames_iff {ms : List (String × Tree)} :
  membersHaveNames ms ↔ ∀ m ∈ ms, Yaml.Scalar.IsName m.1 ∧ m.2.HasNames
  := by
  induction ms with
  | nil => simp [membersHaveNames]
  | cons m ms ih =>
    obtain ⟨name, t⟩ := m
    rw [membersHaveNames, ih, List.forall_mem_cons, and_assoc]

end DetachedSchema

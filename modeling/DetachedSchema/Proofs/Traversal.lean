import DetachedSchema.Proofs.Except
import DetachedSchema.Proofs.Script.Outcome
import Mathlib.Data.List.Sigma
import Mathlib.Tactic.Common

/-!
# Traversals of lists

A step that may fail is taken for every member of a list, in order.  The traversal succeeds when
every step does, and else it fails as the first step that fails.  Members may be counted on the way;
what one step does then depends on the place of its member.  When only some members are kept, they
are counted again.
-/

namespace DetachedSchema

variable {ε α β γ δ : Type}

/-- When the steps that succeed are those of the members with `P`, and they give what `g` says, then
the traversal succeeds when all members have `P`, and it gives their images. -/
theorem mapM_eq_ok_iff {f : α → Except ε β} {P : α → Prop} {g : α → β}
    (h : ∀ x y, f x = .ok y ↔ P x ∧ y = g x) {l : List α} {ys : List β} :
  l.mapM f = .ok ys ↔ (∀ x ∈ l, P x) ∧ ys = l.map g
  := by
  induction l generalizing ys with
  | nil => simp [pure, Except.pure, eq_comm]
  | cons x l ih =>
    simp only [List.mapM_cons, bind_eq_ok, h, ih, List.forall_mem_cons, List.map_cons]
    constructor
    · rintro ⟨y, ⟨hx, rfl⟩, zs, ⟨hl, rfl⟩, hys⟩
      exact ⟨⟨hx, hl⟩, (Except.ok.inj hys).symm⟩
    · rintro ⟨⟨hx, hl⟩, rfl⟩
      exact ⟨g x, ⟨hx, rfl⟩, l.map g, ⟨hl, rfl⟩, rfl⟩

/-- A traversal of images whose steps give back the members gives back the list. -/
theorem mapM_map_eq_ok {f : β → Except ε α} {g : α → β} {l : List α}
    (h : ∀ x ∈ l, f (g x) = .ok x) :
  (l.map g).mapM f = .ok l
  := by
  induction l with
  | nil => rfl
  | cons x l ih =>
    obtain ⟨hx, hl⟩ := List.forall_mem_cons.mp h
    rw [List.map_cons, List.mapM_cons, hx, ih hl]
    rfl

/-- A traversal that succeeds gives what its steps give. -/
theorem filterMap_of_mapM_eq_ok {f : α → Except ε β} {l : List α} {ys : List β}
    (h : l.mapM f = .ok ys) :
  l.filterMap (fun x => (f x).toOption) = ys
  := by
  induction l generalizing ys with
  | nil => exact Except.ok.inj h
  | cons x l ih =>
    rw [List.mapM_cons] at h
    obtain ⟨y, hy, hrest⟩ := bind_eq_ok.mp h
    obtain ⟨zs, hzs, hys⟩ := bind_eq_ok.mp hrest
    have hfirst : (f x).toOption = some y := toOption_eq_some.mpr hy
    rw [← Except.ok.inj hys, List.filterMap_cons, hfirst, ih hzs]

/-- A member of what a traversal gives is what some step gives. -/
theorem exists_of_mem_mapM {f : α → Except ε β} {l : List α} {ys : List β} (h : l.mapM f = .ok ys)
    {y : β} (hy : y ∈ ys) :
  ∃ x ∈ l, f x = .ok y
  := by
  rw [← filterMap_of_mapM_eq_ok h] at hy
  obtain ⟨x, hx, hfx⟩ := List.mem_filterMap.mp hy
  exact ⟨x, hx, toOption_eq_some.mp hfx⟩

/-- The first member with `Q`, behind members with `P`, is the head of a list or in its tail. -/
theorem exists_split_cons {P Q : α → Prop} {z : α} {l : List α} :
  (∃ before x after, z :: l = before ++ x :: after ∧ (∀ w ∈ before, P w) ∧ Q x)
    ↔ Q z ∨ P z ∧ ∃ before x after, l = before ++ x :: after ∧ (∀ w ∈ before, P w) ∧ Q x
  := by
  constructor
  · rintro ⟨before, x, after, hl, hbefore, hx⟩
    cases before with
    | nil =>
      obtain ⟨rfl, rfl⟩ := List.cons.inj hl
      exact .inl hx
    | cons w before =>
      obtain ⟨rfl, rfl⟩ := List.cons.inj hl
      obtain ⟨hz, hbefore⟩ := List.forall_mem_cons.mp hbefore
      exact .inr ⟨hz, before, x, after, rfl, hbefore, hx⟩
  · rintro (hz | ⟨hz, before, x, after, rfl, hbefore, hx⟩)
    · exact ⟨[], z, l, rfl, List.forall_mem_nil _, hz⟩
    · exact ⟨z :: before, x, after, rfl, List.forall_mem_cons.mpr ⟨hz, hbefore⟩, hx⟩

/-- A traversal fails as the first step that fails. -/
theorem mapM_eq_error_iff {f : α → Except ε β} {l : List α} {e : ε} :
  l.mapM f = .error e ↔ ∃ before x after, l = before ++ x :: after
    ∧ (∀ z ∈ before, ∃ y, f z = .ok y) ∧ f x = .error e
  := by
  induction l with
  | nil => simp [pure, Except.pure]
  | cons z l ih =>
    rw [List.mapM_cons, exists_split_cons, ← ih]
    cases hz : f z with
    | error e' => simp [Bind.bind, Except.bind]
    | ok y =>
      apply (bind_pure_eq_error (f := (y :: ·))).trans
      simp

/-- A traversal without results succeeds when every step does. -/
theorem forM_eq_ok_iff {f : α → Except ε Unit} {l : List α} :
  l.forM f = .ok () ↔ ∀ x ∈ l, f x = .ok ()
  := by
  induction l with
  | nil => simp [pure, Except.pure]
  | cons x l ih =>
    change (f x >>= fun _ => l.forM f) = .ok () ↔ _
    rw [then_eq_ok, ih, List.forall_mem_cons]

/-- A traversal of counted members succeeds when the step for every place does. -/
theorem forM_zipIdx_eq_ok {f : α × Nat → Except ε Unit} {l : List α} :
  l.zipIdx.forM f = .ok () ↔ ∀ (i : Nat) (x : α), l[i]? = some x → f (x, i) = .ok ()
  := by
  rw [forM_eq_ok_iff, Prod.forall, forall_comm]
  simp only [List.mk_mem_zipIdx_iff_getElem?]

/-! ### Members that stand for others -/

/-- When every member of a list stands for something with `P`, so does the list. -/
theorem exists_map_eq {f : α → β} {P : α → Prop} {l : List β}
    (h : ∀ y ∈ l, ∃ x, f x = y ∧ P x) :
  ∃ xs : List α, xs.map f = l ∧ ∀ x ∈ xs, P x
  := by
  induction l with
  | nil => exact ⟨[], rfl, List.forall_mem_nil _⟩
  | cons y l ih =>
    obtain ⟨⟨x, rfl, hx⟩, hl⟩ := List.forall_mem_cons.mp h
    obtain ⟨xs, rfl, hxs⟩ := ih hl
    exact ⟨x :: xs, rfl, List.forall_mem_cons.mpr ⟨hx, hxs⟩⟩

/-- Lists of members with `P` are equal when their images are, and members with `P` are told apart
by their images. -/
theorem eq_of_map_eq {f : α → β} {P : α → Prop} (hf : ∀ x y, P x → P y → f x = f y → x = y)
    {xs ys : List α} (hxs : ∀ x ∈ xs, P x) (hys : ∀ y ∈ ys, P y) (h : xs.map f = ys.map f) :
  xs = ys
  := by
  induction xs generalizing ys with
  | nil => exact (List.map_eq_nil_iff.mp h.symm).symm
  | cons x xs ih =>
    obtain ⟨y, ys, rfl, hy, htail⟩ := List.map_eq_cons_iff.mp h.symm
    obtain ⟨hx, hxs⟩ := List.forall_mem_cons.mp hxs
    obtain ⟨hPy, hys⟩ := List.forall_mem_cons.mp hys
    rw [hf x y hx hPy hy.symm, ih hxs hys htail.symm]

/-! ### Members with their places -/

/-- The place of a member among the members that are counted is the place where it stands. -/
theorem getElem?_map_zipIdx {l : List α} {f : α × Nat → β} {i : Nat} {y : β} :
  (l.zipIdx.map f)[i]? = some y ↔ ∃ x, l[i]? = some x ∧ y = f (x, i)
  := by
  simp only [List.getElem?_map, List.getElem?_zipIdx, Option.map_map, Option.map_eq_some_iff,
    Function.comp_apply, Nat.zero_add]
  exact exists_congr fun _ => and_congr_right fun _ => eq_comm

/-- A property of the members is one of the members that are counted. -/
theorem forall_mem_zipIdx {l : List α} {P : α → Prop} :
  (∀ x ∈ l.zipIdx, P x.1) ↔ ∀ x ∈ l, P x
  := by
  conv_rhs => rw [← List.zipIdx_map_fst 0 l]
  simp only [List.forall_mem_map]

/-- Entries of members that are counted have a property when they have it with every count. -/
theorem forall_mem_zipIdx_entry {P : β × Nat → Prop} {entry : α → β} {l : List α}
    (h : ∀ x ∈ l, ∀ i, P (entry x, i)) :
  ∀ y ∈ (l.map entry).zipIdx, P y
  := by
  rw [List.zipIdx_map, List.forall_mem_map]
  rintro ⟨x, i⟩ hx
  exact h x (List.fst_mem_of_mem_zipIdx hx) i

/-- A list is unchanged when every member is. -/
theorem map_eq_self_iff {l : List α} {f : α → α} :
  l.map f = l ↔ ∀ x ∈ l, f x = x
  := by
  conv_lhs => rhs; rw [← List.map_id l]
  exact List.map_inj_left

/-- A list is unchanged when every member is found again in its place. -/
theorem map_zipIdx_eq_self_iff {l : List α} {f : α → β} {g : β × Nat → α} :
  (l.map f).zipIdx.map g = l ↔ ∀ i x, l[i]? = some x → g (f x, i) = x
  := by
  have hplace : ∀ i : Nat, ((l.map f).zipIdx.map g)[i]? = (l[i]?).map fun x => g (f x, i) := by
    simp [Function.comp_def]
  simp only [List.ext_getElem?_iff, hplace]
  apply forall_congr'
  intro i
  cases l[i]? with
  | none => simp
  | some x => simp

/-- A list is unchanged when every member is found again and none is left out. -/
theorem map_filterMap_eq_self_iff {l : List α} {f : α → Option β} {g : β → α}
    (h : ∀ x ∈ l, (f x).isSome) :
  (l.filterMap f).map g = l ↔ ∀ x ∈ l, (f x).map g = some x
  := by
  induction l with
  | nil => simp
  | cons x l ih =>
    obtain ⟨hx, hl⟩ := List.forall_mem_cons.mp h
    obtain ⟨y, hy⟩ := Option.isSome_iff_exists.mp hx
    rw [List.filterMap_cons_some hy, List.map_cons, List.cons.injEq, ih hl, List.forall_mem_cons,
      hy, Option.map_some, Option.some.injEq]

/-- The first counted member with a property stands where the first member with it stands. -/
theorem findIdx?_zipIdx {l : List α} {p : α → Bool} :
  (l.zipIdx.findIdx? fun x => p x.1) = l.findIdx? p
  := by
  conv_rhs => rw [← List.zipIdx_map_fst 0 l]
  rw [List.findIdx?_map]
  rfl

/-- Images of counted members stand in a relation to the members, place by place. -/
theorem forall₂_map_zipIdx {R : β → α → Prop} {l : List α} {f : α × Nat → β}
    (h : ∀ x ∈ l, ∀ i, R (f (x, i)) x) :
  List.Forall₂ R (l.zipIdx.map f) l
  := by
  conv => arg 3; rw [← List.zipIdx_map_fst 0 l]
  rw [List.forall₂_map_left_iff, List.forall₂_map_right_iff, List.forall₂_same]
  rintro ⟨x, i⟩ hx
  apply h x (List.fst_mem_of_mem_zipIdx hx)

/-- A search among images of counted members finds the image of a member with a property, or no
member has the property. -/
theorem find?_map_zipIdx {l : List α} {f : α × Nat → β} {p : β → Bool} {P : α → Prop}
    (h : ∀ x, p (f x) ↔ P x.1) :
  ((l.zipIdx.map f).find? p = none ∧ ∀ x ∈ l, ¬ P x)
    ∨ ∃ x i, l[i]? = some x ∧ P x ∧ (l.zipIdx.map f).find? p = some (f (x, i))
  := by
  cases hfound : (l.zipIdx.map f).find? p with
  | none =>
    left
    use rfl
    rw [List.find?_eq_none, List.forall_mem_map] at hfound
    intro x hx
    apply forall_mem_zipIdx.mp _ x hx
    intro y hy hP
    apply hfound y hy ((h y).mpr hP)
  | some y =>
    right
    obtain ⟨⟨x, i⟩, hx, rfl⟩ := List.mem_map.mp (List.mem_of_find?_eq_some hfound)
    use x, i, List.mk_mem_zipIdx_iff_getElem?.mp hx, (h (x, i)).mp (List.find?_some hfound)

/-- Lists that are tagged with the places of their members do not overlap. -/
theorem nodup_flatMap_zipIdx {l : List α} {f : α × Nat → List β} (tag : β → Nat)
    (hnodup : ∀ x ∈ l.zipIdx, (f x).Nodup) (htag : ∀ x ∈ l.zipIdx, ∀ y ∈ f x, tag y = x.2) :
  (l.zipIdx.flatMap f).Nodup
  := by
  apply List.nodup_flatMap.mpr
  use hnodup
  have hplaces := List.pairwise_map.mp (List.nodup_zipIdx_map_snd l)
  apply hplaces.imp_of_mem
  intro x x' hx hx' hne y hy hy'
  apply hne
  rw [← htag x hx y hy, ← htag x' hx' y hy']

/-- Lists that are tagged with the places of the members that they come from do not overlap. -/
theorem nodup_flatMap_of_places {l : List α} {f : α → List β} (tag : β → Nat)
    (hnodup : ∀ (i : Nat) (x : α), l[i]? = some x → (f x).Nodup)
    (htag : ∀ (i : Nat) (x : α), l[i]? = some x → ∀ y ∈ f x, tag y = i) :
  (l.flatMap f).Nodup
  := by
  rw [← List.zipIdx_map_fst 0 l, List.flatMap_map]
  apply nodup_flatMap_zipIdx tag
  · rintro ⟨x, i⟩ hx
    apply hnodup i x (List.mk_mem_zipIdx_iff_getElem?.mp hx)
  · rintro ⟨x, i⟩ hx
    apply htag i x (List.mk_mem_zipIdx_iff_getElem?.mp hx)

/-- What comes from counted members comes from the members when it does not depend on the count. -/
theorem flatMap_fst_zipIdx {l : List α} {f : α → List β} :
  (l.zipIdx.flatMap fun x => f x.1) = l.flatMap f
  := by
  conv_rhs => rw [← List.zipIdx_map_fst 0 l, List.flatMap_map]

/-- What comes from entries of members that are counted comes from the members when it does not
depend on the count. -/
theorem flatMap_zipIdx_entry {f : β × Nat → List γ} {entry : α → β} {g : α → List γ} {l : List α}
    (h : ∀ x ∈ l, ∀ i, f (entry x, i) = g x) :
  (l.map entry).zipIdx.flatMap f = l.flatMap g
  := by
  rw [List.zipIdx_map, List.flatMap_map, ← flatMap_fst_zipIdx (f := g)]
  apply List.flatMap_congr
  rintro ⟨x, i⟩ hx
  exact h x (List.fst_mem_of_mem_zipIdx hx) i

/-- Members that are counted give as much as the members when each of them does. -/
theorem length_flatMap_zipIdx {l : List α} {f : α × Nat → List β} {g : α → List γ}
    (h : ∀ x i, (f (x, i)).length = (g x).length) :
  (l.zipIdx.flatMap f).length = (l.flatMap g).length
  := by
  conv_rhs => rw [← List.zipIdx_map_fst 0 l, List.flatMap_map]
  simp only [List.length_flatMap, h]

/-- When what comes from each member is as long as a number and multiples of two other lists, so is
what comes from all of them. -/
theorem length_flatMap_of_parts {l : List α} {f : α → List β} {g : α → List γ} {g' : α → List δ}
    {k m n : Nat} (h : ∀ x ∈ l, (f x).length = k + m * (g x).length + n * (g' x).length) :
  (l.flatMap f).length = k * l.length + m * (l.flatMap g).length + n * (l.flatMap g').length
  := by
  induction l with
  | nil => rfl
  | cons x l ih =>
    obtain ⟨hx, hl⟩ := List.forall_mem_cons.mp h
    simp only [List.flatMap_cons, List.length_append, List.length_cons, Nat.mul_add, hx, ih hl]
    omega

/-- When the members of a list have keys of their own, what bears the key of a member is what
comes from it. -/
theorem filter_flatMap_of_nodup {κ : Type} [DecidableEq κ] {l : List α} {key : α → κ}
    {f : α → List β} {tag : β → κ} (hnodup : (l.map key).Nodup)
    (htag : ∀ x ∈ l, ∀ y ∈ f x, tag y = key x) {x : α} (hx : x ∈ l) :
  (l.flatMap f).filter (tag · = key x) = f x
  := by
  induction l with
  | nil => cases hx
  | cons z l ih =>
    rw [List.map_cons, List.nodup_cons] at hnodup
    obtain ⟨hz, htags⟩ := List.forall_mem_cons.mp htag
    rw [List.flatMap_cons, List.filter_append]
    obtain rfl | hx := List.mem_cons.mp hx
    · have hself : (f x).filter (tag · = key x) = f x := by simpa using hz
      have hothers : (l.flatMap f).filter (tag · = key x) = [] := by
        simp only [List.filter_eq_nil_iff, List.mem_flatMap, decide_eq_true_eq]
        rintro y ⟨w, hw, hy⟩ hkey
        apply hnodup.1
        rw [← hkey, htags w hw y hy]
        apply List.mem_map_of_mem hw
      rw [hself, hothers, List.append_nil]
    · have hother : (f z).filter (tag · = key x) = [] := by
        simp only [List.filter_eq_nil_iff, decide_eq_true_eq]
        intro y hy hkey
        apply hnodup.1
        rw [← hz y hy, hkey]
        apply List.mem_map_of_mem hx
      rw [hother, List.nil_append, ih hnodup.2 htags hx]

/-! ### Members with keys of their own -/

/-- A member with a key of its own stands in one place. -/
theorem getElem?_inj_of_nodup {κ : Type} {l : List α} {key : α → κ} (h : (l.map key).Nodup)
    {i j : Nat} {x y : α} (hx : l[i]? = some x) (hy : l[j]? = some y) (hkey : key x = key y) :
  i = j ∧ x = y
  := by
  obtain ⟨hi, -⟩ := List.getElem?_eq_some_iff.mp hx
  have hplaces : (l.map key)[i]? = (l.map key)[j]? := by
    rw [List.getElem?_map, List.getElem?_map, hx, hy, Option.map_some, Option.map_some, hkey]
  obtain rfl := (List.getElem?_inj (by simpa using hi) h).mp hplaces
  rw [hx] at hy
  exact ⟨rfl, Option.some.inj hy⟩

/-- When what comes from a member bears its key and has a mark of the key among it, nothing comes
twice exactly when the members have keys of their own and nothing comes twice from one member. -/
theorem nodup_flatMap_iff {κ : Type} {l : List α} {key : α → κ} {f : α → List β} (tag : β → κ)
    (mark : κ → β) (htag : ∀ x ∈ l, ∀ y ∈ f x, tag y = key x)
    (hmark : ∀ x ∈ l, mark (key x) ∈ f x) :
  (l.flatMap f).Nodup ↔ (l.map key).Nodup ∧ ∀ x ∈ l, (f x).Nodup
  := by
  have hkeys : (l.map key).Nodup ↔ l.Pairwise fun x x' => key x ≠ key x' := List.pairwise_map
  rw [List.nodup_flatMap, and_comm, hkeys]
  apply and_congr_left'
  apply List.Pairwise.iff_of_mem
  intro x x' hx hx'
  constructor
  · intro hdisjoint hkey
    apply hdisjoint (hmark x hx)
    rw [hkey]
    apply hmark x' hx'
  · intro hne y hy hy'
    apply hne
    rw [← htag x hx y hy, ← htag x' hx' y hy']

/-- When members have keys of their own, what bears a key does not depend on the order. -/
theorem filter_eq_of_perm {κ : Type} [DecidableEq κ] {xs ys : List α} {key : α → κ}
    (h : xs.Perm ys) (hnodup : (xs.map key).Nodup) (k : κ) :
  xs.filter (key · = k) = ys.filter (key · = k)
  := by
  induction h with
  | nil => rfl
  | cons x _ ih =>
    rw [List.map_cons, List.nodup_cons] at hnodup
    rw [List.filter_cons, List.filter_cons, ih hnodup.2]
  | swap x y l =>
    have hne : key y ≠ key x := by
      simp only [List.map_cons, List.nodup_cons, List.mem_cons, not_or] at hnodup
      exact hnodup.1.1
    by_cases hx : key x = k
    · have hy : key y ≠ k := fun hy => hne (hy.trans hx.symm)
      simp [hx, hy]
    · simp [List.filter_cons, hx]
  | trans h₁ _ ih₁ ih₂ => exact (ih₁ hnodup).trans (ih₂ ((h₁.map key).nodup_iff.mp hnodup))

/-- Members that are gathered by their keys are all members, each of them once. -/
theorem flatMap_filter_perm {κ : Type} [DecidableEq κ] {l : List α} {keys : List κ} (key : α → κ)
    (hnodup : keys.Nodup) (hkey : ∀ x ∈ l, key x ∈ keys) :
  (keys.flatMap fun k => l.filter (key · = k)).Perm l
  := by
  induction keys generalizing l with
  | nil =>
    obtain rfl : l = [] := List.eq_nil_iff_forall_not_mem.mpr fun x hx => by simpa using hkey x hx
    rfl
  | cons k keys ih =>
    obtain ⟨hk, hnodup⟩ := List.nodup_cons.mp hnodup
    -- The members with other keys are gathered by the keys that are left.
    let others : List α := l.filter fun x => !decide (key x = k)
    have hothers : (keys.flatMap fun k' => l.filter (key · = k'))
        = keys.flatMap fun k' => others.filter (key · = k') := by
      apply List.flatMap_congr
      intro k' hk'
      rw [List.filter_filter]
      apply List.filter_congr
      intro x _
      by_cases hx : key x = k'
      · have hne : k' ≠ k := fun heq => hk (heq ▸ hk')
        simp [hx, hne]
      · simp [hx]
    have hleft : ∀ x ∈ others, key x ∈ keys := by
      intro x hx
      obtain ⟨hx, hne⟩ := List.mem_filter.mp hx
      apply List.mem_of_ne_of_mem _ (hkey x hx)
      simpa using hne
    rw [List.flatMap_cons, hothers]
    apply ((ih hnodup hleft).append_left _).trans
    apply List.filter_append_perm

/-! ### Members that are kept -/

/-- The place of a member of a list among the members that are kept. -/
def placeAmong (keep : α → Bool) (l : List α) (place : Nat) : Nat := (l.take place).countP keep

/-- Members that are kept stand in their places among the members that are kept. -/
theorem zipIdx_filter {keep : α → Bool} {l : List α} :
  (l.filter keep).zipIdx
    = (l.zipIdx.filter fun x => keep x.1).map fun x => (x.1, placeAmong keep l x.2)
  := by
  -- The induction needs the members that come before.
  suffices h : ∀ before : List α, (l.filter keep).zipIdx (before.countP keep)
      = ((l.zipIdx before.length).filter fun x => keep x.1).map fun x =>
        (x.1, placeAmong keep (before ++ l) x.2) from h []
  induction l with
  | nil => simp
  | cons x l ih =>
    intro before
    have ih := ih (before ++ [x])
    have hplace : placeAmong keep (before ++ x :: l) before.length = before.countP keep := by
      rw [placeAmong, List.take_left]
    rw [List.countP_append, List.length_append, List.append_assoc] at ih
    by_cases hx : keep x
    · simpa [hx, hplace] using ih
    · simpa [hx] using ih

/-- The images of the members that are kept are the images that are kept. -/
theorem map_zipIdx_filter {keep : α → Bool} {l : List α} {h : α → β} {g : β × Nat → δ}
    {g₀ : α × Nat → γ} {keep₀ : γ → Bool} {k : γ → δ} (hkeep : ∀ x, keep₀ (g₀ x) = keep x.1)
    (hg : ∀ x i, l[i]? = some x → g (h x, placeAmong keep l i) = k (g₀ (x, i))) :
  ((l.filter keep).map h).zipIdx.map g = ((l.zipIdx.map g₀).filter keep₀).map k
  := by
  rw [List.zipIdx_map, zipIdx_filter, List.filter_map, List.map_map, List.map_map, List.map_map]
  simp only [Function.comp_def, hkeep]
  apply List.map_congr_left
  rintro ⟨x, i⟩ hx
  apply hg x i (List.mk_mem_zipIdx_iff_getElem?.mp (List.mem_of_mem_filter hx))

/-- What comes from the members that are kept is all when nothing comes from the others. -/
theorem flatMap_filter_of_eq_nil {keep : α → Bool} {l : List α} {f : α → List β}
    (h : ∀ x ∈ l, ¬ keep x → f x = []) :
  (l.filter keep).flatMap f = l.flatMap f
  := by
  induction l with
  | nil => rfl
  | cons x l ih =>
    obtain ⟨hx, hl⟩ := List.forall_mem_cons.mp h
    by_cases hkeep : keep x
    · rw [List.filter_cons_of_pos hkeep, List.flatMap_cons, List.flatMap_cons, ih hl]
    · rw [List.filter_cons_of_neg hkeep, List.flatMap_cons, hx hkeep, ih hl, List.nil_append]

/-- What comes from the images of the members that are kept is what comes from all members, when
nothing comes from the others. -/
theorem flatMap_zipIdx_filter {keep : α → Bool} {l : List α} {h : α → β} {g : β × Nat → List γ}
    {g₀ : α × Nat → List γ}
    (hg : ∀ x i, l[i]? = some x → keep x → g (h x, placeAmong keep l i) = g₀ (x, i))
    (hdropped : ∀ x i, l[i]? = some x → ¬ keep x → g₀ (x, i) = []) :
  ((l.filter keep).map h).zipIdx.flatMap g = l.zipIdx.flatMap g₀
  := by
  have hkept : (l.zipIdx.filter fun x => keep x.1).flatMap g₀ = l.zipIdx.flatMap g₀ := by
    apply flatMap_filter_of_eq_nil
    rintro ⟨x, i⟩ hx
    apply hdropped x i (List.mk_mem_zipIdx_iff_getElem?.mp hx)
  rw [← hkept, List.zipIdx_map, zipIdx_filter, List.map_map, List.flatMap_map]
  apply List.flatMap_congr
  rintro ⟨x, i⟩ hx
  obtain ⟨hx, hkeep⟩ := List.mem_filter.mp hx
  apply hg x i (List.mk_mem_zipIdx_iff_getElem?.mp hx) hkeep

/-- Images that are kept stand among each other where the members do. -/
theorem placeAmong_map_zipIdx {keep : α → Bool} {l : List α} {g₀ : α × Nat → β} {keep₀ : β → Bool}
    (hkeep : ∀ x, keep₀ (g₀ x) = keep x.1) (i : Nat) :
  placeAmong keep₀ (l.zipIdx.map g₀) i = placeAmong keep l i
  := by
  have hfst : (l.zipIdx.take i).map Prod.fst = l.take i := by
    rw [List.map_take, List.zipIdx_map_fst]
  rw [placeAmong, placeAmong, ← hfst, ← List.map_take, List.countP_map, List.countP_map]
  simp only [Function.comp_def, hkeep]

/-! ### Scripts -/

/-- A script for every member of a list, where the members with `P` can be dealt with and give what
`g` says. -/
theorem Script.canEnd_mapM {A : Possible} {f : α → Script β} {P : α → Prop} {g : α → β}
    (h : ∀ x y, (f x).CanEnd A y ↔ P x ∧ y = g x) {l : List α} {ys : List β} :
  (l.mapM f).CanEnd A ys ↔ (∀ x ∈ l, P x) ∧ ys = l.map g
  := by
  induction l generalizing ys with
  | nil => simp [eq_comm]
  | cons x l ih =>
    simp only [List.mapM_cons, bind_eq, pure_eq_done, canEnd_bind, canEnd_done, h, ih,
      List.forall_mem_cons, List.map_cons]
    constructor
    · rintro ⟨y, ⟨hx, rfl⟩, zs, ⟨hl, rfl⟩, rfl⟩
      exact ⟨⟨hx, hl⟩, rfl⟩
    · rintro ⟨⟨hx, hl⟩, rfl⟩
      exact ⟨g x, ⟨hx, rfl⟩, l.map g, ⟨hl, rfl⟩, rfl⟩

/-- A script for every member of a list that ends with something that stands for the member. -/
theorem Script.canEnd_mapM_entry {A : Possible} {f : α → Script β} {entry : β → α} {P : β → Prop}
    (h : ∀ x y, (f x).CanEnd A y ↔ entry y = x ∧ P y) {l : List α} {ys : List β} :
  (l.mapM f).CanEnd A ys ↔ ys.map entry = l ∧ ∀ y ∈ ys, P y
  := by
  induction l generalizing ys with
  | nil =>
    constructor
    · rintro rfl
      exact ⟨rfl, List.forall_mem_nil _⟩
    · rintro ⟨hys, -⟩
      exact (List.map_eq_nil_iff.mp hys).symm
  | cons x l ih =>
    simp only [List.mapM_cons, bind_eq, pure_eq_done, canEnd_bind, canEnd_done, h, ih]
    constructor
    · rintro ⟨y, ⟨rfl, hy⟩, ys, ⟨rfl, hys⟩, rfl⟩
      exact ⟨rfl, List.forall_mem_cons.mpr ⟨hy, hys⟩⟩
    · rintro ⟨hl, hP⟩
      obtain ⟨y, ys, rfl, hy, hys⟩ := List.map_eq_cons_iff.mp hl
      obtain ⟨hPy, hPys⟩ := List.forall_mem_cons.mp hP
      exact ⟨y, ⟨hy, hPy⟩, ys, ⟨hys, hPys⟩, rfl⟩

/-- A script that counts the members of a list and ends, for a member at a place, with what `g` says
of an entry that stands for the member. -/
theorem Script.canEnd_mapM_zipIdx {A : Possible} {f : α × Nat → Script β} {entry : γ → α}
    {P : γ → Prop} {g : γ × Nat → β}
    (h : ∀ x i b, (f (x, i)).CanEnd A b ↔ ∃ c, entry c = x ∧ P c ∧ b = g (c, i))
    {l : List α} {bs : List β} :
  (l.zipIdx.mapM f).CanEnd A bs
    ↔ ∃ cs : List γ, cs.map entry = l ∧ (∀ c ∈ cs, P c) ∧ bs = cs.zipIdx.map g
  := by
  -- The induction needs the count to begin anywhere.
  suffices hn : ∀ n, ((l.zipIdx n).mapM f).CanEnd A bs
      ↔ ∃ cs : List γ, cs.map entry = l ∧ (∀ c ∈ cs, P c) ∧ bs = (cs.zipIdx n).map g from hn 0
  induction l generalizing bs with
  | nil =>
    intro n
    simp [eq_comm]
  | cons x l ih =>
    intro n
    simp only [List.zipIdx_cons, List.mapM_cons, bind_eq, pure_eq_done, canEnd_bind, canEnd_done,
      h, ih]
    constructor
    · rintro ⟨b, ⟨c, hx, hc, rfl⟩, _, ⟨cs, hl, hcs, rfl⟩, rfl⟩
      use c :: cs
      exact ⟨by rw [List.map_cons, hx, hl], List.forall_mem_cons.mpr ⟨hc, hcs⟩, rfl⟩
    · rintro ⟨cs, hcs, hP, rfl⟩
      obtain ⟨c, cs, rfl, hx, hl⟩ := List.map_eq_cons_iff.mp hcs
      obtain ⟨hc, hP⟩ := List.forall_mem_cons.mp hP
      exact ⟨g (c, n), ⟨c, hx, hc, rfl⟩, (cs.zipIdx (n + 1)).map g, ⟨cs, hl, hP, rfl⟩, rfl⟩

/-- The questions of scripts for the entries of members are those about the members, when they do
not depend on the count and nothing fails. -/
theorem Script.asked_mapM_zipIdx {a : Answers} {f : α × Nat → Script β} {entry : γ → α}
    {questions : γ → List Query} {l : List γ}
    (h : ∀ c ∈ l, ∀ i, (∃ b, (f (entry c, i)).outcome a = .ok b)
      ∧ (f (entry c, i)).asked a = questions c) :
  ((l.map entry).zipIdx.mapM f).asked a = l.flatMap questions
  := by
  rw [asked_mapM (forall_mem_zipIdx_entry fun c hc i => (h c hc i).1)]
  apply flatMap_zipIdx_entry
  intro c hc i
  exact (h c hc i).2

end DetachedSchema

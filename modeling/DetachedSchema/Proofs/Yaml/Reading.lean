import DetachedSchema.Proofs.Digits
import DetachedSchema.Yaml.Printer
import DetachedSchema.Yaml.Reader
import Mathlib.Data.Option.Basic

/-!
# Reading the nodes of trees

A printed tree is a document of nodes without anchors, tags and aliases.  Every part of such a
document is read as what it stands for in the tree.
-/

namespace DetachedSchema

/-! ### The nodes of a tree -/

mutual

/-- The node that a tree is printed for. -/
def Tree.node : Tree → Yaml.Node
  | .null => .scalar {} .plain "null"
  | .bool b => .scalar {} .plain (if b then "true" else "false")
  | .number n => .scalar {} .plain (toString n)
  | .text s => .scalar {} (Yaml.Scalar.styleOf s.toList) s
  | .list ts => .list {} (nodes ts)
  | .record ms => .map {} (entries ms)

/-- The nodes of the items of a list. -/
def Tree.nodes : List Tree → List Yaml.Node
  | [] => []
  | t :: ts => t.node :: nodes ts

/-- The nodes of the members of a record; a name is written plainly. -/
def Tree.entries : List (String × Tree) → List (Yaml.Node × Yaml.Node)
  | [] => []
  | (name, t) :: ms => (.scalar {} .plain name, t.node) :: entries ms

end

namespace Yaml

/-- The text that is printed for the tree is taken for the nodes of the tree. -/
def ReadsBack (t : Tree) : Prop := Node.ofText? (print t).toList = some t.node

namespace Plain

/-! ### Digits -/

theorem digit?_of_isDigit {c : Char} (h : c.isDigit) :
  digit? 10 c = some (c.toNat - '0'.toNat)
  := by
  have hlt : c.toNat - '0'.toNat < 10 := by
    have hle := (Char.isDigit_iff_toNat.mp h).2
    simp only [Char.reduceToNat] at hle ⊢
    omega
  rw [digit?, if_pos h, if_pos hlt]

/-- Digits are put together one by one. -/
theorem foldl_digit? {cs : List Char} (hcs : ∀ c ∈ cs, c.isDigit) (n : Nat) :
  cs.foldl (fun n c => do return (← n) * 10 + (← digit? 10 c)) (some n)
    = some (Nat.ofDigitChars 10 cs n)
  := by
  induction cs generalizing n with
  | nil => rfl
  | cons c cs ih =>
    obtain ⟨hc, hcs⟩ := List.forall_mem_cons.mp hcs
    rw [List.foldl_cons, digit?_of_isDigit hc, Nat.ofDigitChars_cons, Nat.mul_comm 10 n]
    exact ih hcs _

/-- The digits of a number are read as the number. -/
theorem natural?_toDigits (n : Nat) :
  natural? 10 (Nat.toDigits 10 n) = some n
  := by
  have hdigits : ∀ c ∈ Nat.toDigits 10 n, c.isDigit := fun _ => Digits.isDigit_of_mem
  have hnil : ¬ (Nat.toDigits 10 n).isEmpty := by simp
  rw [natural?, if_neg hnil, foldl_digit? hdigits, Nat.ofDigitChars_ten_toDigits]

/-- Digits do not announce a base. -/
theorem based?_toDigits (n : Nat) :
  based? (Nat.toDigits 10 n) = none
  := by
  have hdigits : ∀ c ∈ Nat.toDigits 10 n, c.isDigit := fun _ => Digits.isDigit_of_mem
  rw [based?.eq_def]
  split
  next heq => cases hdigits 'x' (by simp [heq])
  next heq => cases hdigits 'o' (by simp [heq])
  next heq => cases hdigits 'b' (by simp [heq])
  next => rfl

theorem withoutPlus_toDigits (n : Nat) :
  withoutPlus (Nat.toDigits 10 n) = Nat.toDigits 10 n
  := by
  obtain ⟨c, cs, hcs, hc⟩ := Digits.exists_cons n
  rw [hcs, withoutPlus.eq_def]
  split
  next heq =>
    rw [(List.cons.inj heq).1] at hc
    cases hc
  next => rfl

/-- No number is printed with a zero in front. -/
theorem hasLeadingZero_toDigits (n : Nat) :
  hasLeadingZero (Nat.toDigits 10 n) = false
  := by
  obtain ⟨c, cs, hcs, hc⟩ := Digits.exists_cons n
  have hsign : ∀ ds, Nat.toDigits 10 n ≠ '-' :: ds ∧ Nat.toDigits 10 n ≠ '+' :: ds := by
    intro ds
    rw [hcs]
    constructor
    all_goals
      intro heq
      rw [(List.cons.inj heq).1] at hc
      cases hc
  rw [hasLeadingZero]
  · exact fun ds heq => (hsign ds).1 heq
  · exact fun ds heq => (hsign ds).2 heq
  · intro d ds heq
    cases Digits.eq_nil_of_zero heq

/-- Digits without a sign are read as a number. -/
theorem unsigned?_toDigits (n : Nat) :
  unsigned? (Nat.toDigits 10 n) = some n
  := by
  rw [unsigned?, withoutPlus_toDigits, based?_toDigits, hasLeadingZero_toDigits]
  exact natural?_toDigits n

/-- Digits behind a minus are read as a number that is not above zero. -/
theorem negative?_toDigits (n : Nat) :
  negative? (Nat.toDigits 10 n) = some (-n : Int)
  := by
  rw [negative?, based?_toDigits, hasLeadingZero_toDigits]
  simp [natural?_toDigits]

theorem toList_toString_ofNat (n : Nat) :
  (toString (n : Int)).toList = Nat.toDigits 10 n
  := String.toList_ofList

/-- A number below zero is printed as a minus and its digits. -/
theorem toList_toString_neg {n : Nat} (hn : n ≠ 0) :
  (toString (-n : Int)).toList = '-' :: Nat.toDigits 10 n
  := by
  obtain ⟨n, rfl⟩ := Nat.exists_eq_succ_of_ne_zero hn
  have hstring : toString (-(n.succ : Int)) = "-" ++ String.ofList (Nat.toDigits 10 n.succ) := rfl
  rw [hstring, String.toList_append, String.toList_ofList, String.toList_ofList]
  rfl

/-- A number that is not below zero is read without a sign. -/
theorem unsigned?_toString (n : Nat) :
  unsigned? (toString (n : Int)).toList = some n
  := by rw [toList_toString_ofNat, unsigned?_toDigits]

/-- A printed number is read as the number. -/
theorem signed?_toString (n : Int) :
  signed? (toString n).toList = some n
  := by
  by_cases hn : n < 0
  · obtain ⟨k, rfl⟩ : ∃ k : Nat, n = -k := ⟨n.natAbs, by omega⟩
    rw [toList_toString_neg (by omega)]
    exact negative?_toDigits k
  · obtain ⟨k, rfl⟩ := Int.eq_ofNat_of_zero_le (by omega : 0 ≤ n)
    obtain ⟨c, cs, hcs, hc⟩ := Digits.exists_cons k
    rw [toList_toString_ofNat, signed?.eq_def]
    split
    next heq =>
      rw [hcs] at heq
      rw [(List.cons.inj heq).1] at hc
      cases hc
    next => simp [unsigned?_toDigits]

/-- A printed number is no word for nothing. -/
theorem isNull_toString (n : Int) :
  (toString n = "" || isNull (toString n)) = false
  := by
  have hread : ∀ s, toString n = s → signed? s.toList = some n := by
    rintro s rfl
    exact signed?_toString n
  simp only [isNull, Bool.or_eq_false_iff, decide_eq_false_iff_not]
  refine ⟨?_, ⟨⟨?_, ?_⟩, ?_⟩, ?_⟩
  all_goals
    intro heq
    cases hread _ heq

end Plain

/-- A text that is written plainly is no word for nothing. -/
theorem Scalar.isNull_of_styleOf {s : String} (h : styleOf s.toList = .plain) :
  (s = "" || Plain.isNull s) = false
  := by
  have hambiguous : Plain.isAmbiguous s = false := by
    simp only [styleOf, String.ofList_toList] at h
    split at h
    · split at h
      all_goals cases h
    split at h
    next hplain =>
      rw [Bool.and_eq_true, Bool.not_eq_true'] at hplain
      exact hplain.2
    · split at h
      all_goals cases h
  simp only [Plain.isAmbiguous, Bool.or_eq_false_iff] at hambiguous
  simp only [hambiguous, Bool.or_false]

namespace Reader

variable {α β : Type}

/-- The reader takes the node for `a`, whatever document it stands in. -/
def Reads (r : Reader α) (node : Node) (a : α) : Prop :=
  ∀ root count, r node root count = some (a, count)

/-- What follows a step goes on with what the step gives. -/
theorem bind_of_some {r : ReaderT Node (StateT Nat Option) α}
    {f : α → ReaderT Node (StateT Nat Option) β} {root : Node} {count : Nat} {a : α}
    (h : r root count = some (a, count)) :
  (r >>= f) root count = f a root count
  := by simp only [Bind.bind, ReaderT.bind, StateT.bind, h, Option.bind]

theorem map_of_some {r : ReaderT Node (StateT Nat Option) α} {f : α → β} {root : Node}
    {count : Nat} {a : α} (h : r root count = some (a, count)) :
  (f <$> r) root count = some (f a, count)
  := by
  rw [map_eq_pure_bind, bind_of_some h]
  rfl

/-- What is made of a value is read where the value is. -/
theorem Reads.map {r : Reader α} {node : Node} {a : α} (h : Reads r node a) (f : α → β) :
  Reads (fun node => f <$> r node) node (f a)
  := fun root count => map_of_some (h root count)

theorem Reads.of_eq {r : Reader α} {node : Node} {a b : α} (h : Reads r node a) (hab : a = b) :
  Reads r node b
  := hab ▸ h

/-- The node of a tree is no alias, so it is taken as it is. -/
theorem reads_resolve (t : Tree) :
  Reads resolve t.node t.node
  := by
  cases t
  all_goals exact fun _ _ => rfl

/-- A text is read as itself, whatever style it is written in. -/
theorem reads_text (s : String) :
  Reads text (Tree.text s).node s
  := fun root count => bind_of_some (reads_resolve (.text s) root count)

/-- A name is written plainly and read as itself. -/
theorem reads_name (name : String) :
  Reads text (.scalar {} .plain name) name
  := fun _ _ => rfl

/-- The words for the truth values are read as such. -/
theorem reads_bool (b : Bool) :
  Reads bool (Tree.bool b).node b
  := by
  intro root count
  cases b with
  | true => rfl
  | false => rfl

/-- A number below the bound is read from its digits. -/
theorem reads_natural {bound n : Nat} (h : n < bound) :
  Reads (natural bound) (Tree.number n).node n
  := by
  intro root count
  have hword : word .int (Tree.number n).node root count = some (toString (n : Int), count) := rfl
  rw [natural, bind_of_some hword, Plain.unsigned?_toString]
  dsimp only
  rw [if_pos h]
  rfl

/-- A number within the bounds is read from its notation. -/
theorem reads_integer {low high n : Int} (hlow : low ≤ n) (hhigh : n ≤ high) :
  Reads (integer low high) (Tree.number n).node n
  := by
  intro root count
  have hword : word .int (Tree.number n).node root count = some (toString n, count) := rfl
  rw [integer, bind_of_some hword, Plain.signed?_toString]
  dsimp only
  rw [if_pos ⟨hlow, hhigh⟩]
  rfl

/-! ### Values that may be left out -/

/-- The word for nothing is read as no value. -/
theorem reads_optional_none (r : Reader α) :
  Reads (optional r) Tree.null.node none
  := fun _ _ => rfl

/-- Only nothing is written so that it is read as nothing. -/
theorem isAbsent_node {t : Tree} (ht : t ≠ .null) :
  isAbsent t.node = some false
  := by
  cases t with
  | null => cases ht rfl
  | bool b =>
    cases b with
    | true => rfl
    | false => rfl
  | number n => exact congrArg some (Plain.isNull_toString n)
  | text s =>
    rw [Tree.node]
    cases hstyle : Scalar.styleOf s.toList with
    | plain => exact congrArg some (Scalar.isNull_of_styleOf hstyle)
    | singleQuoted | doubleQuoted | literal | folded => rfl
  | list ts => rfl
  | record ms => rfl

/-- A value that is not written as nothing is read as a value. -/
theorem Reads.optional {r : Reader α} {t : Tree} {a : α} (h : Reads r t.node a) (ht : t ≠ .null) :
  Reads (optional r) t.node (some a)
  := by
  intro root count
  rw [Reader.optional, bind_of_some (reads_resolve t root count), isAbsent_node ht]
  exact map_of_some (h root count)

/-! ### Lists and names -/

theorem nodes_eq (ts : List Tree) :
  Tree.nodes ts = ts.map Tree.node
  := by
  induction ts with
  | nil => rfl
  | cons t ts ih => rw [Tree.nodes, ih, List.map_cons]

/-- A list is read item by item. -/
theorem reads_listOf {r : Reader α} {encode : α → Tree} {as : List α}
    (h : ∀ a ∈ as, Reads r (encode a).node a) :
  Reads (listOf r) (Tree.list (as.map encode)).node as
  := by
  intro root count
  rw [listOf, bind_of_some (reads_resolve _ root count), Tree.node, nodes_eq, List.map_map]
  dsimp only [items]
  induction as with
  | nil => rfl
  | cons a as ih =>
    obtain ⟨ha, has⟩ := List.forall_mem_cons.mp h
    rw [List.map_cons, List.mapM_cons]
    apply (bind_of_some (ha root count)).trans
    apply (bind_of_some (ih has)).trans
    rfl

/-- A variant is read from its name. -/
theorem reads_oneOf {variants : List (String × α)} {name : String} {a : α}
    (h : variants.lookup name = some a) :
  Reads (oneOf variants) (Tree.text name).node a
  := by
  intro root count
  rw [oneOf, bind_of_some (reads_resolve _ root count), Tree.node]
  simp only [h]
  rfl

end Reader

end Yaml

end DetachedSchema

import DetachedSchema.Json.Printer
import DetachedSchema.Json.Reader
import DetachedSchema.Proofs.Digits

/-!
# Spacing of JSON texts

The two forms in which a tree is printed, without blanks and with one member a line, differ in what
stands between the tokens.  A `Spacing` says what that is; both forms are texts with a spacing.  In
either form the first character of a value tells of what kind the value is.
-/

namespace DetachedSchema

/-- What kind of value a tree is. -/
inductive Tree.Kind
  | null
  | bool
  | number
  | text
  | list
  | record
deriving DecidableEq

/-- The kind of a tree. -/
def Tree.kind : Tree → Kind
  | .null => .null
  | .bool _ => .bool
  | .number _ => .number
  | .text _ => .text
  | .list _ => .list
  | .record _ => .record

/-- Only one tree is of the kind of nothing. -/
theorem Tree.eq_null_of_kind {t : Tree} (h : t.kind = .null) :
  t = .null
  := by
  cases t with
  | null => rfl
  | bool | number | text | list | record => cases h

end DetachedSchema

namespace DetachedSchema.Json

open Reader (isGap)

/-- What stands between the tokens of a text. -/
structure Spacing where
  /-- In front of an item, a member or a closing bracket inside of a number of brackets. -/
  line : Nat → List Char
  /-- Behind the colon of a member. -/
  colon : List Char
  line_gap : ∀ depth, (line depth).all isGap
  colon_gap : colon.all isGap

namespace Spacing

/-- Nothing stands between the tokens. -/
def compact : Spacing where
  line _ := []
  colon := []
  line_gap _ := rfl
  colon_gap := rfl

/-- There is one member a line. -/
def pretty : Spacing where
  line := newLine
  colon := [' ']
  line_gap depth := by
    simp only [newLine, List.all_cons, List.all_replicate]
    split
    · rfl
    · rfl
  colon_gap := rfl

mutual

/-- The tree inside of `depth` brackets. -/
def value (sp : Spacing) (depth : Nat) : Tree → List Char
  | .null => "null".toList
  | .bool b => bool b
  | .number n => number n
  | .text s => text s
  | .list [] => ['[', ']']
  | .list (t :: ts) => '[' :: sp.line (depth + 1) ++ sp.value (depth + 1) t ++ sp.items depth ts
  | .record [] => ['{', '}']
  | .record ((name, t) :: ms) =>
    '{' :: sp.line (depth + 1) ++ text name ++ ':' :: sp.colon ++ sp.value (depth + 1) t
      ++ sp.members depth ms

/-- The items after the first one and the end of their list. -/
def items (sp : Spacing) (depth : Nat) : List Tree → List Char
  | [] => sp.line depth ++ [']']
  | t :: ts => ',' :: sp.line (depth + 1) ++ sp.value (depth + 1) t ++ sp.items depth ts

/-- The members after the first one and the end of their record. -/
def members (sp : Spacing) (depth : Nat) : List (String × Tree) → List Char
  | [] => sp.line depth ++ ['}']
  | (name, t) :: ms =>
    ',' :: sp.line (depth + 1) ++ text name ++ ':' :: sp.colon ++ sp.value (depth + 1) t
      ++ sp.members depth ms

end

/-! ### The two forms -/

mutual

/-- The form without blanks is the spacing without gaps, at any depth. -/
theorem compact_eq (depth : Nat) : (t : Tree) →
  Json.compact t = Spacing.compact.value depth t
  | .null | .bool _ | .number _ | .text _ | .list [] | .record [] => rfl
  | .list (t :: ts) => by
    rw [Json.compact, value, compact_eq (depth + 1) t, compactItems_eq depth ts]
    rfl
  | .record ((name, t) :: ms) => by
    rw [Json.compact, value, compact_eq (depth + 1) t, compactMembers_eq depth ms]
    simp [Spacing.compact]

theorem compactItems_eq (depth : Nat) : (ts : List Tree) →
  Json.compactItems ts = Spacing.compact.items depth ts
  | [] => rfl
  | t :: ts => by
    rw [Json.compactItems, items, compact_eq (depth + 1) t, compactItems_eq depth ts]
    rfl

theorem compactMembers_eq (depth : Nat) : (ms : List (String × Tree)) →
  Json.compactMembers ms = Spacing.compact.members depth ms
  | [] => rfl
  | (name, t) :: ms => by
    rw [Json.compactMembers, members, compact_eq (depth + 1) t, compactMembers_eq depth ms]
    simp [Spacing.compact]

end

mutual

/-- The form with one member a line is the spacing with new lines. -/
theorem pretty_eq (depth : Nat) : (t : Tree) →
  Json.pretty depth t = Spacing.pretty.value depth t
  | .null | .bool _ | .number _ | .text _ | .list [] | .record [] => rfl
  | .list (t :: ts) => by
    rw [Json.pretty, value, pretty_eq (depth + 1) t, prettyItems_eq depth ts]
    rfl
  | .record ((name, t) :: ms) => by
    rw [Json.pretty, value, pretty_eq (depth + 1) t, prettyMembers_eq depth ms]
    simp [Spacing.pretty]

theorem prettyItems_eq (depth : Nat) : (ts : List Tree) →
  Json.prettyItems depth ts = Spacing.pretty.items depth ts
  | [] => rfl
  | t :: ts => by
    rw [Json.prettyItems, items, pretty_eq (depth + 1) t, prettyItems_eq depth ts]
    rfl

theorem prettyMembers_eq (depth : Nat) : (ms : List (String × Tree)) →
  Json.prettyMembers depth ms = Spacing.pretty.members depth ms
  | [] => rfl
  | (name, t) :: ms => by
    rw [Json.prettyMembers, members, pretty_eq (depth + 1) t, prettyMembers_eq depth ms]
    simp [Spacing.pretty]

end

/-- A printed tree is the tree with one of the two spacings. -/
theorem exists_print_eq (isPretty : Bool) (t : Tree) :
  ∃ sp : Spacing, (print isPretty t).toList = sp.value 0 t
  := by
  cases isPretty with
  | false => exact ⟨compact, by simp [print, compact_eq 0]⟩
  | true => exact ⟨pretty, by simp [print, pretty_eq 0]⟩

/-! ### Ends of values -/

/-- Whether a text is over or goes on with what may stand behind a value. -/
def isEnd : List Char → Bool
  | [] => true
  | c :: _ => isGap c || c = ',' || c = ']' || c = '}'

/-- A gap may stand behind a value, in front of what may stand there itself. -/
theorem isEnd_gap {gap rest : List Char} (hgap : gap.all isGap) (hrest : isEnd rest) :
  isEnd (gap ++ rest)
  := by
  cases gap with
  | nil => exact hrest
  | cons c gap =>
    rw [List.all_cons, Bool.and_eq_true] at hgap
    simp [isEnd, hgap.1]

/-- What is left of a list may stand behind an item. -/
theorem isEnd_items {sp : Spacing} {depth : Nat} {ts : List Tree} {rest : List Char} :
  isEnd (sp.items depth ts ++ rest)
  := by
  cases ts with
  | nil =>
    rw [items, List.append_assoc]
    apply isEnd_gap (sp.line_gap depth) rfl
  | cons t ts => rfl

/-- What is left of a record may stand behind a value of it. -/
theorem isEnd_members {sp : Spacing} {depth : Nat} {ms : List (String × Tree)} {rest : List Char} :
  isEnd (sp.members depth ms ++ rest)
  := by
  cases ms with
  | nil =>
    rw [members, List.append_assoc]
    apply isEnd_gap (sp.line_gap depth) rfl
  | cons m ms => rfl

/-- What stands behind a value does not go on with a number. -/
theorem ne_of_isEnd {c : Char} {rest : List Char} (h : isEnd (c :: rest)) :
  ¬ c.isDigit ∧ c ≠ '.' ∧ c ≠ 'e' ∧ c ≠ 'E'
  := by
  simp only [isEnd, isGap, Bool.or_eq_true, decide_eq_true_eq, or_assoc] at h
  obtain rfl | rfl | rfl | rfl | rfl | rfl | rfl := h
  all_goals decide

/-! ### Starts of values -/

/-- Whether a value starts with the character. -/
def isStart (c : Char) : Bool := "ntf\"[\x7b-".toList.contains c || c.isDigit

/-- The kind of the values that start with a character. -/
def kindOf (c : Char) : Tree.Kind :=
  if c = 'n' then .null
  else if c = 't' ∨ c = 'f' then .bool
  else if c = '"' then .text
  else if c = '[' then .list
  else if c = '\x7b' then .record
  else .number

/-- Only numbers start with a digit. -/
theorem kindOf_isDigit {c : Char} (h : c.isDigit) :
  kindOf c = .number
  := by
  have hne : ∀ d : Char, d.isDigit = false → c ≠ d := by
    rintro d hd rfl
    rw [h] at hd
    cases hd
  rw [kindOf, if_neg (hne 'n' rfl), if_neg (not_or.mpr ⟨hne 't' rfl, hne 'f' rfl⟩),
    if_neg (hne '"' rfl), if_neg (hne '[' rfl), if_neg (hne '\x7b' rfl)]

/-- A number starts with a minus or with a digit. -/
theorem exists_number (n : Int) :
  ∃ c cs, number n = c :: cs ∧ (c = '-' ∨ c.isDigit)
  := by
  by_cases hn : n < 0
  · exact ⟨'-', _, if_pos hn, .inl rfl⟩
  · obtain ⟨c, cs, hcs, hc⟩ := Digits.exists_cons n.natAbs
    exact ⟨c, cs, (if_neg hn).trans hcs, .inr hc⟩

/-- A value starts with a character that only values of its kind start with. -/
theorem exists_value (sp : Spacing) (depth : Nat) (t : Tree) :
  ∃ c cs, sp.value depth t = c :: cs ∧ isStart c ∧ kindOf c = t.kind
  := by
  cases t with
  | null => exact ⟨'n', _, rfl, rfl, rfl⟩
  | bool b =>
    cases b with
    | true => exact ⟨'t', _, rfl, rfl, rfl⟩
    | false => exact ⟨'f', _, rfl, rfl, rfl⟩
  | number n =>
    obtain ⟨c, cs, hcs, hc⟩ := exists_number n
    use c, cs, hcs
    obtain rfl | hc := hc
    · exact ⟨rfl, rfl⟩
    · exact ⟨by rw [isStart, hc, Bool.or_true], kindOf_isDigit hc⟩
  | text s => exact ⟨'"', _, rfl, rfl, rfl⟩
  | list ts =>
    cases ts with
    | nil => exact ⟨'[', _, rfl, rfl, rfl⟩
    | cons t ts => exact ⟨'[', _, rfl, rfl, rfl⟩
  | record ms =>
    cases ms with
    | nil => exact ⟨'\x7b', _, rfl, rfl, rfl⟩
    | cons m ms => exact ⟨'\x7b', _, rfl, rfl, rfl⟩

/-- A value starts neither like a gap nor with what separates or closes values. -/
theorem ne_of_isStart {c : Char} (h : isStart c) :
  ¬ isGap c ∧ c ≠ ',' ∧ c ≠ ']' ∧ c ≠ '}'
  := by
  refine ⟨?_, ?_, ?_, ?_⟩
  · intro hgap
    simp only [isGap, Bool.or_eq_true, decide_eq_true_eq, or_assoc] at hgap
    obtain rfl | rfl | rfl | rfl := hgap
    all_goals exact absurd h (by decide)
  all_goals
    rintro rfl
    exact absurd h (by decide)

end Spacing

end DetachedSchema.Json

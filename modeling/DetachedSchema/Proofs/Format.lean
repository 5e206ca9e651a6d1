import DetachedSchema.Format
import Mathlib.Data.List.TakeDrop
import Mathlib.Data.List.TakeWhile
import Mathlib.Tactic.Common

/-!
# Formats by the names of files

The name of a file tells a format when it ends with a dot and an extension of the format, in upper
or lower case, and there is something in front of that dot.
-/

namespace DetachedSchema

/-! ### Cutting at a character -/

section

variable {α : Type} [DecidableEq α] {x : α} {l : List α}

/-- Without the member nothing is cut off. -/
theorem span_of_notMem (h : x ∉ l) :
  l.span (· ≠ x) = (l, [])
  := by
  have hne : ∀ y ∈ l, decide (y ≠ x) = true :=
    fun y hy => decide_eq_true (ne_of_mem_of_not_mem hy h)
  rw [List.span_eq_takeWhile_dropWhile, List.takeWhile_eq_self_iff.mpr hne,
    List.dropWhile_eq_nil_iff.mpr hne]

/-- A list is cut in front of the first occurrence of the member. -/
theorem span_append (h : x ∉ l) (rest : List α) :
  (l ++ x :: rest).span (· ≠ x) = (l, x :: rest)
  := by
  have hne : ∀ y ∈ l, decide (y ≠ x) = true :=
    fun y hy => decide_eq_true (ne_of_mem_of_not_mem hy h)
  rw [List.span_eq_takeWhile_dropWhile, List.takeWhile_append_of_pos hne,
    List.dropWhile_append_of_pos hne]
  simp

/-- The first occurrence of the member tells what is in front of it and what is behind. -/
theorem append_cons_inj {l' rest rest' : List α} (h : x ∉ l) (h' : x ∉ l') :
  l ++ x :: rest = l' ++ x :: rest' ↔ l = l' ∧ rest = rest'
  := by
  constructor
  · intro heq
    have hcut := congrArg (List.span (· ≠ x)) heq
    rw [span_append h, span_append h'] at hcut
    obtain ⟨hfront, hbehind⟩ := Prod.mk.inj hcut
    exact ⟨hfront, (List.cons.inj hbehind).2⟩
  · rintro ⟨rfl, rfl⟩
    rfl

end

namespace FilePath

/-- Read from its end, a name is its extension, the last dot and its stem. -/
theorem eq_stem_iff {name extension : String} {behind front : List Char}
    (hname : name.toList.reverse = behind ++ '.' :: front) (hbehind : '.' ∉ behind) :
  ('.' ∉ extension.toList ∧ ∃ stem : String, stem ≠ "" ∧ name = stem ++ "." ++ extension)
    ↔ front ≠ [] ∧ String.ofList behind.reverse = extension
  := by
  constructor
  · rintro ⟨hextension, stem, hstem, rfl⟩
    have hreverse : extension.toList.reverse ++ '.' :: stem.toList.reverse
        = behind ++ '.' :: front := by simpa using hname
    obtain ⟨rfl, rfl⟩ := (append_cons_inj (by simpa using hextension) hbehind).mp hreverse
    exact ⟨by simpa using hstem, by simp⟩
  · rintro ⟨hfront, rfl⟩
    use by simpa using hbehind, String.ofList front.reverse, by simpa using hfront
    rw [← String.ofList_toList (s := name), ← List.reverse_reverse name.toList, hname]
    apply String.toList_inj.mp
    simp

/-- An extension is what is behind the last dot of a name, unless the name starts with that dot. -/
theorem extension?_eq_some {path extension : String} :
  extension? path = some extension
    ↔ '.' ∉ extension.toList
      ∧ ∃ stem : String, stem ≠ "" ∧ fileName? path = some (stem ++ "." ++ extension)
  := by
  rw [extension?]
  cases fileName? path with
  | none => simp
  | some name =>
    simp only [Option.bind_eq_bind, Option.bind_some, Option.some.injEq]
    by_cases hdot : '.' ∈ name.toList.reverse
    · obtain ⟨behind, front, hname, hbehind⟩ := List.eq_append_cons_of_mem hdot
      rw [eq_stem_iff hname hbehind, hname, span_append hbehind]
      cases front with
      | nil => simp
      | cons c front => simp
    · rw [span_of_notMem hdot]
      simp only [reduceCtorEq, false_iff, not_and]
      rintro - ⟨stem, -, rfl⟩
      apply hdot
      simp

end FilePath

namespace Format

/-- The extensions of a format. -/
def extensions : Format → List String
  | .json => ["json"]
  | .yaml => ["yaml", "yml"]

/-- The name of the file tells the format. -/
def Tells (f : Format) (path : String) : Prop :=
  ∃ stem extension : String, FilePath.fileName? path = some (stem ++ "." ++ extension)
    ∧ stem ≠ "" ∧ extension.toLower ∈ f.extensions

/-- No extension of a format has a dot in it, in whatever case it is written. -/
theorem notMem_of_toLower_mem {f : Format} {extension : String}
    (h : extension.toLower ∈ f.extensions) :
  '.' ∉ extension.toList
  := by
  intro hdot
  have hlower : '.' ∈ extension.toLower.toList := by
    change '.' ∈ (extension.map Char.toLower).toList
    rw [String.toList_map]
    exact List.mem_map.mpr ⟨'.', hdot, rfl⟩
  have hnone : ∀ e ∈ f.extensions, '.' ∉ e.toList := by cases f <;> decide
  exact hnone _ h hlower

/-- The format of a file is the one that its name tells. -/
theorem ofPath_eq_ok {path : String} {f : Format} :
  ofPath path = .ok f ↔ f.Tells path
  := by
  have hextension : ofPath path = .ok f
      ↔ ∃ extension, FilePath.extension? path = some extension
        ∧ extension.toLower ∈ f.extensions := by
    rw [ofPath]
    cases FilePath.extension? path with
    | none => simp
    | some extension =>
      simp only [Option.map_some, Option.some.injEq, exists_eq_left']
      generalize extension.toLower = lower
      split
      case h_1 h | h_2 h | h_3 h =>
        obtain rfl := Option.some.inj h
        cases f <;> simp [extensions]
      case h_4 hjson hyaml hyml =>
        have hothers : lower ∉ f.extensions := by
          cases f <;> simp_all [extensions]
        simpa using hothers
  rw [hextension]
  constructor
  · rintro ⟨extension, hpath, hf⟩
    obtain ⟨-, stem, hstem, hname⟩ := FilePath.extension?_eq_some.mp hpath
    exact ⟨stem, extension, hname, hstem, hf⟩
  · rintro ⟨stem, extension, hname, hstem, hf⟩
    use extension
    constructor
    · exact FilePath.extension?_eq_some.mpr ⟨notMem_of_toLower_mem hf, stem, hstem, hname⟩
    · exact hf

end Format

end DetachedSchema

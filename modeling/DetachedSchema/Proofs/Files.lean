import DetachedSchema.Files
import Mathlib.Tactic.Common

/-!
# Files that are read back

A text that was written to a file is read from it: writing changes no directory, so that the path
leads to the same place again.
-/

namespace DetachedSchema.Files

variable {files files' : Files} {path text : String} {place place' : List String}

/-! ### Contents -/

theorem lookup_put {bytes : ByteArray} {contents : List (List String × ByteArray)} :
  (put place bytes contents).lookup place = some bytes
  := by
  induction contents with
  | nil => simp [put]
  | cons file contents ih =>
    obtain ⟨p, old⟩ := file
    rw [put]
    split
    next heq => simp [heq]
    next hne => rw [List.lookup_cons, beq_false_of_ne (Ne.symm hne), ih]

/-! ### Places -/

theorem enter_eq_ok :
  files.enter place = .ok () ↔ files.isDirectory place
  := by
  rw [enter]
  cases files.isDirectory place with
  | true => simp
  | false =>
    cases (files.contents.lookup place).isSome with
    | true => simp
    | false => simp

/-- A name leads to the same place where there are the same directories. -/
theorem follow_of_directories_eq {name : String} (h : files'.directories = files.directories)
    (hfollow : files.follow place name = .ok place') :
  files'.follow place name = .ok place'
  := by
  unfold follow at hfollow ⊢
  cases henter : files.enter place with
  | error problem =>
    rw [henter] at hfollow
    cases hfollow
  | ok _ =>
    have henter' : files'.enter place = .ok () := by
      rw [enter_eq_ok, isDirectory, h]
      exact enter_eq_ok.mp henter
    rw [henter] at hfollow
    rw [henter']
    exact hfollow

theorem foldlM_follow_of_directories_eq {names : List String}
    (h : files'.directories = files.directories)
    (hfollow : names.foldlM files.follow place = .ok place') :
  names.foldlM files'.follow place = .ok place'
  := by
  induction names generalizing place with
  | nil => exact hfollow
  | cons name names ih =>
    rw [List.foldlM_cons] at hfollow ⊢
    cases hname : files.follow place name with
    | error problem =>
      rw [hname] at hfollow
      cases hfollow
    | ok next =>
      rw [hname] at hfollow
      rw [follow_of_directories_eq h hname]
      exact ih hfollow

theorem locate_of_directories_eq (h : files'.directories = files.directories)
    (hlocate : files.locate path = .ok place) :
  files'.locate path = .ok place
  := by
  rw [locate] at hlocate ⊢
  cases hnames : names path with
  | error problem =>
    rw [hnames] at hlocate
    cases hlocate
  | ok names =>
    rw [hnames] at hlocate
    exact foldlM_follow_of_directories_eq h hlocate

/-! ### Writing -/

/-- The path of what is written is that of a file. -/
theorem endsWith_of_writeBytes {bytes : ByteArray}
    (h : files.writeBytes path bytes = .ok files') :
  path.endsWith "/" = false
  := by
  rw [← Bool.not_eq_true]
  intro hslash
  rw [writeBytes, if_pos hslash] at h
  cases hnames : names path with
  | error problem =>
    rw [hnames] at h
    cases h
  | ok names =>
    rw [hnames] at h
    dsimp only [Bind.bind, Except.bind] at h
    split at h
    next => cases h
    next place _ => cases hplace : files.enter place with
      | error problem =>
        rw [hplace] at h
        cases h
      | ok _ =>
        rw [hplace] at h
        cases h

/-- What is written is at the place of the path, which is no directory. -/
theorem exists_of_writeBytes {bytes : ByteArray} (h : files.writeBytes path bytes = .ok files') :
  files'.directories = files.directories
  ∧ ∃ place, files.locate path = .ok place ∧ files.isDirectory place = false
    ∧ files'.contents.lookup place = some bytes
  := by
  rw [writeBytes, endsWith_of_writeBytes h] at h
  cases hlocate : files.locate path with
  | error problem =>
    rw [hlocate] at h
    cases h
  | ok place =>
    rw [hlocate] at h
    cases hdirectory : files.isDirectory place with
    | true =>
      simp only [hdirectory, Bind.bind, Except.bind] at h
      cases h
    | false =>
      simp only [hdirectory, Bind.bind, Except.bind] at h
      obtain rfl := Except.ok.inj h
      exact ⟨rfl, place, rfl, hdirectory, lookup_put⟩

theorem fromUTF8?_toUTF8 :
  String.fromUTF8? text.toUTF8 = some text
  := by
  have hvalid : text.toUTF8.IsValidUTF8 := text.isValidUTF8
  rw [String.fromUTF8?, dif_pos hvalid]
  rfl

/-- A file with the bytes of a text is read as that text. -/
theorem read_of_locate {place : List String} (hlocate : files.locate path = .ok place)
    (hdirectory : files.isDirectory place = false)
    (hlookup : files.contents.lookup place = some text.toUTF8)
    (hslash : path.endsWith "/" = false) :
  files.read path = .ok text
  := by
  have hbytes : files.readBytes path = .ok text.toUTF8 := by
    rw [readBytes, hlocate]
    simp only [Bind.bind, Except.bind, hdirectory, hlookup, hslash]
    rfl
  rw [read, hbytes]
  simp only [Bind.bind, Except.bind, fromUTF8?_toUTF8]
  rfl

/-- A text is read from the file that it was written to. -/
theorem read_write (h : files.write path text = .ok files') :
  files'.read path = .ok text
  := by
  have hslash := endsWith_of_writeBytes h
  obtain ⟨hsame, place, hlocate, hdirectory, hlookup⟩ := exists_of_writeBytes h
  have hdirectory' : files'.isDirectory place = false := by
    rw [← hdirectory, isDirectory, isDirectory, hsame]
  exact read_of_locate (locate_of_directories_eq hsame hlocate) hdirectory' hlookup hslash

end DetachedSchema.Files

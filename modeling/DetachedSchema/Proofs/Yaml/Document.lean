import DetachedSchema.Proofs.Yaml.Nodes
import DetachedSchema.Proofs.Yaml.Shown

/-!
# Reading documents

A record that has been printed as a document is read as the nodes of its tree: the text gives the
tokens of the tree, and those are put together to the nodes again.
-/

namespace DetachedSchema.Yaml

open Glyph Scalar Token

/-! ### The tokens of a document -/

/-- At the end of the text the last block ends. -/
theorem scanAll_end {limit i l n : Nat} {t : Token} {ts : List Token} (hlimit : limit ≠ 0)
    (hn : n ≠ 0) :
  ∃ s, scanAll n (((({} : Front).opened 0 t).push ts).lines limit i l []) = some ((), s)
    ∧ s.found.reverse = t :: ts ++ [.blockEnd, .textEnd]
  := by
  obtain ⟨n, rfl⟩ := Nat.exists_eq_succ_of_ne_zero hn
  have happroach : approach (((({} : Front).opened 0 t).push ts).lines limit i l (spaces 0 ++ []))
      = some ((), _) := approach_lines (by decide) hlimit
  -- The text ends in the column of the block, so that only its end mark ends the block.
  have hclosed : ((({} : Front).opened 0 t).push ts).closed (0 : Nat)
      = (({} : Front).opened 0 t).push ts := Front.closed_of_le (by simp)
  have hdone : ((({} : Front).opened 0 t).push ts).closed (-1)
      = ({} : Front).push (t :: ts ++ [.blockEnd]) := by
    rw [Front.closed_opened (by decide), Front.closed_of_le (by simp)]
  obtain ⟨s, hscan, hfound⟩ := scanToken_end ((({} : Front).opened 0 t).push ts) limit (i + 0) l 0
  rw [hclosed] at happroach
  refine ⟨s, ?_, ?_⟩
  · exact scanAll_token happroach hscan n
  · rw [hfound, hdone, Front.push_push]
    simp [Front.push]

/-- A text that is read to its end inside of one block has the tokens of the block. -/
theorem ofText?_of_leads {cs : List Char} {t : Token} {ts : List Token} (hcs : Shown cs)
    (h : ∀ limit, ∃ i l, Leads (({} : Front).lines limit 0 0 cs)
      (((({} : Front).opened 0 t).push ts).lines limit i l [])) :
  Token.ofText? cs = some (t :: ts ++ [.blockEnd, .textEnd])
  := by
  have hallowed : cs.all isAllowed := List.all_eq_true.mpr fun x hx =>
    isAllowed_of_isShown (hcs x hx)
  obtain ⟨i, l, hleads⟩ := h ((place 0 0 0 cs).length + 1)
  obtain ⟨n, hn, -, hscan⟩ := hleads _ (Nat.le_succ _) (Nat.lt_succ_self _)
  obtain ⟨s, hend, hfound⟩ := scanAll_end (Nat.succ_ne_zero _) (Nat.ne_of_gt hn)
  have hread : scanAll ((place 0 0 0 cs).length + 1)
      { rest := place 0 0 0 cs, limit := (place 0 0 0 cs).length + 1 } = some ((), s) :=
    hscan.trans hend
  rw [Token.ofText?, Glyph.ofText?, if_pos hallowed]
  simp only [Option.bind_eq_bind, Option.bind_some, hread, Option.pure_def, hfound]

section

variable {name : String} {t : Tree} {ms : List (String × Tree)}
  (h : (Tree.record ((name, t) :: ms)).HasNames)

include h

/-- The members of the record are read to the end of the text. -/
theorem leads_document (limit : Nat) :
  ∃ i l, Leads (({} : Front).lines limit 0 0 (membersAt 0 ((name, t) :: ms)))
    (((({} : Front).opened 0 .blockMapStart).push (Tree.memberTokens ((name, t) :: ms))).lines limit
      i l [])
  := by
  obtain ⟨i, l, hmember⟩ : ∃ i l, Leads
      (({} : Front).state limit (place (0 + 0) 0 0 _) true none) _ :=
    leads_member (readsAfterColon t h.2.1) (readsMembers ms h.2.2) h.1 h.2.2 (0 + 0) 0
      (by decide : ({} : Front).indent ≤ (0 : Nat)) (Nat.le_refl 0) ⟨[], rfl, by decide⟩
  have hlines := membersAt_append 0 name t ms []
  rw [List.append_nil] at hlines
  rw [hlines]
  exact ⟨i, l, (leads_lines (startsWord_name h.1 _)).trans hmember⟩

/-- A printed record has the tokens of its tree. -/
theorem tokens_print :
  Token.ofText? (print (.record ((name, t) :: ms))).toList
    = some ((Tree.record ((name, t) :: ms)).tokens false ++ [.textEnd])
  := by
  have hprint : (print (.record ((name, t) :: ms))).toList = membersAt 0 ((name, t) :: ms) :=
    String.toList_ofList
  rw [hprint, ofText?_of_leads (shown_membersAt _ h 0) (leads_document h)]
  simp [Tree.tokens]

/-- A record whose names can be keys is read back from what is printed for it. -/
theorem readsBack_record :
  ReadsBack (.record ((name, t) :: ms))
  := by
  have hlimit : ((Tree.record ((name, t) :: ms)).tokens false).length
      ≤ ((Tree.record ((name, t) :: ms)).tokens false ++ [Token.textEnd]).length := by
    rw [List.length_append]
    exact Nat.le_add_right _ _
  have hread : Node.ofText? (print (.record ((name, t) :: ms))).toList
      = (Token.ofText? (print (.record ((name, t) :: ms))).toList).bind fun tokens =>
        (Node.document (.ofTokens (tokens.length + 1) [] tokens)).bind fun p => some p.1 := rfl
  rw [ReadsBack, hread, tokens_print h, Option.bind_some, Node.document_tokens (name, t) ms hlimit]
  rfl

end

end DetachedSchema.Yaml

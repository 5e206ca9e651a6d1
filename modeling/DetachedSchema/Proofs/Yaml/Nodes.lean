import DetachedSchema.Proofs.Yaml.Tokens

/-!
# Nodes

The tokens of a tree are put together to the nodes of the tree.
-/

namespace DetachedSchema.Yaml.Node

/-- What is left of the tokens of a text without anchors. -/
def State.ofTokens (limit : Nat) (handles : List (String × Tag)) (rest : List Token) : State where
  rest := rest
  limit := limit
  handles := handles

variable {limit : Nat} {handles : List (String × Tag)} {us : List Token} {node : Compose Node}
  {missing : Token → Bool}

/-- A node that is there is not taken for an empty one. -/
theorem orEmpty_of_not_missing {rest : List Token} (h : missing (rest.headD .textEnd) = false) :
  orEmpty node missing (.ofTokens limit handles rest) = node (.ofTokens limit handles rest)
  := by
  have hread : orEmpty node missing (.ofTokens limit handles rest)
      = (if missing (rest.headD .textEnd) then pure empty else node)
        (.ofTokens limit handles rest) := rfl
  rw [hread, h]
  rfl

/-! ### Entries -/

/-- The next item of a list. -/
def item (node : Compose Node) (missing : Token → Bool) : Compose (Option Node) := do
  match ← peek with
  | .blockEntry => take; return some (← orEmpty node missing)
  | _ => return none

/-- There is no further item where no dash stands. -/
theorem item_of_ne (h : us.headD .textEnd ≠ .blockEntry) :
  item node missing (.ofTokens limit handles us) = some (none, .ofTokens limit handles us)
  := by
  cases us with
  | nil => rfl
  | cons u us =>
    cases u with
    | blockEntry => exact absurd rfl h
    | _ => rfl

/-- Behind a dash the item is read. -/
theorem item_blockEntry {rest : List Token} {a : Node}
    (h : orEmpty node missing (.ofTokens limit handles rest)
      = some (a, .ofTokens limit handles us)) :
  item node missing (.ofTokens limit handles (.blockEntry :: rest))
    = some (some a, .ofTokens limit handles us)
  := by
  have hread : item node missing (.ofTokens limit handles (.blockEntry :: rest))
      = (orEmpty node missing (.ofTokens limit handles rest)).bind fun p => some (some p.1, p.2) :=
    rfl
  rw [hread, h]
  rfl

/-- The next entry of a map in block notation. -/
def entry (node : Compose Node) : Compose (Option (Node × Node)) := do
  match ← peek with
  | .key =>
    take
    let key ← orEmpty node missingInMap
    match ← peek with
    | .value => take; return some (key, ← orEmpty node missingInMap)
    | _ => return some (key, empty)
  | _ => return none

/-- There is no further entry where no key stands. -/
theorem entry_of_ne (h : us.headD .textEnd ≠ .key) :
  entry node (.ofTokens limit handles us) = some (none, .ofTokens limit handles us)
  := by
  cases us with
  | nil => rfl
  | cons u us =>
    cases u with
    | key => exact absurd rfl h
    | _ => rfl

/-- Behind the mark of a key the key is read, and then the value behind its own mark. -/
theorem entry_key {rest rest' : List Token} {a b : Node}
    (hkey : orEmpty node missingInMap (.ofTokens limit handles rest)
      = some (a, .ofTokens limit handles (.value :: rest')))
    (hvalue : orEmpty node missingInMap (.ofTokens limit handles rest')
      = some (b, .ofTokens limit handles us)) :
  entry node (.ofTokens limit handles (.key :: rest))
    = some (some (a, b), .ofTokens limit handles us)
  := by
  have hread : entry node (.ofTokens limit handles (.key :: rest))
      = (orEmpty node missingInMap (.ofTokens limit handles rest)).bind fun p =>
        (match p.2.rest.headD .textEnd with
        | .value => do take; return some (p.1, ← orEmpty node missingInMap)
        | _ => return some (p.1, empty) : Compose (Option (Node × Node))) p.2 := rfl
  rw [hread, hkey]
  have hread : (orEmpty node missingInMap (.ofTokens limit handles rest')).bind
      (fun p => some (some (a, p.1), p.2)) = some (some (a, b), .ofTokens limit handles us) := by
    rw [hvalue]
    rfl
  exact hread

section

variable {α : Type} {step : Compose (Option α)} {n : Nat} {s s' : State}

theorem collect_succ :
  collect step (n + 1) s = (step s).bind fun p => (match p.1 with
    | some a => do return a :: (← collect step n)
    | none => return [] : Compose (List α)) p.2
  := rfl

/-- What is collected is over when a step has nothing. -/
theorem collect_none (h : step s = some (none, s')) :
  collect step (n + 1) s = some ([], s')
  := by
  rw [collect_succ, h]
  rfl

/-- What a step has comes before what is collected after it. -/
theorem collect_some {a : α} {as : List α} {s'' : State} (h : step s = some (some a, s'))
    (hrest : collect step n s' = some (as, s'')) :
  collect step (n + 1) s = some (a :: as, s'')
  := by
  have hgo : (collect step n s').bind (fun p => some (a :: p.1, p.2)) = some (a :: as, s'') := by
    rw [hrest]
    rfl
  rw [collect_succ, h]
  exact hgo

end

/-- The items of a list are collected when the tokens of each item are put together to its node. -/
theorem collect_items {ts : List Tree} {n : Nat} (hn : ts.length < n)
    (hnode : ∀ t ∈ ts, ∀ us, orEmpty node missing (.ofTokens limit handles (t.tokens false ++ us))
      = some (t.node, .ofTokens limit handles us))
    (hus : us.headD .textEnd ≠ .blockEntry) :
  collect (item node missing) n (.ofTokens limit handles (Tree.itemTokens ts ++ us))
    = some (Tree.nodes ts, .ofTokens limit handles us)
  := by
  obtain ⟨n, rfl⟩ : ∃ m, n = m + 1 := ⟨n - 1, by omega⟩
  induction ts generalizing n with
  | nil => exact collect_none (item_of_ne hus)
  | cons t ts ih =>
    obtain ⟨ht, hts⟩ := List.forall_mem_cons.mp hnode
    rw [List.length_cons] at hn
    obtain ⟨n, rfl⟩ : ∃ m, n = m + 1 := ⟨n - 1, by omega⟩
    have htokens : Tree.itemTokens (t :: ts) ++ us
        = .blockEntry :: (t.tokens false ++ (Tree.itemTokens ts ++ us)) := by simp [Tree.itemTokens]
    rw [htokens]
    exact collect_some (item_blockEntry (ht _)) (ih hts n (by omega))

/-- The members of a record are collected when the tokens of each value are put together to its
node. -/
theorem collect_members {ms : List (String × Tree)} {n : Nat} (hn : ms.length < n)
    (hkey : ∀ name us,
      orEmpty node missingInMap (.ofTokens limit handles (.scalar .plain name :: us))
        = some (.scalar {} .plain name, .ofTokens limit handles us))
    (hnode : ∀ m ∈ ms, ∀ us : List Token, us.headD .textEnd ≠ .blockEntry →
      orEmpty node missingInMap (.ofTokens limit handles (m.2.tokens true ++ us))
        = some (m.2.node, .ofTokens limit handles us))
    (hus : us.headD .textEnd ≠ .key) (hus' : us.headD .textEnd ≠ .blockEntry) :
  collect (entry node) n (.ofTokens limit handles (Tree.memberTokens ms ++ us))
    = some (Tree.entries ms, .ofTokens limit handles us)
  := by
  obtain ⟨n, rfl⟩ : ∃ m, n = m + 1 := ⟨n - 1, by omega⟩
  induction ms generalizing n with
  | nil => exact collect_none (entry_of_ne hus)
  | cons m ms ih =>
    obtain ⟨name, t⟩ := m
    obtain ⟨ht, hms⟩ := List.forall_mem_cons.mp hnode
    rw [List.length_cons] at hn
    obtain ⟨n, rfl⟩ : ∃ m, n = m + 1 := ⟨n - 1, by omega⟩
    have htokens : Tree.memberTokens ((name, t) :: ms) ++ us = .key :: .scalar .plain name ::
        .value :: (t.tokens true ++ (Tree.memberTokens ms ++ us)) := by simp [Tree.memberTokens]
    have hnext : (Tree.memberTokens ms ++ us).headD .textEnd ≠ .blockEntry := by
      cases ms with
      | nil => exact hus'
      | cons m ms => exact (by decide : Token.key ≠ .blockEntry)
    rw [htokens]
    exact collect_some (entry_key (hkey name _) (ht _ hnext)) (ih hms n (by omega))

/-! ### Nodes -/

section

variable {depth : Nat} {place : Place} {unindented : Bool}

/-- A scalar is a node by itself. -/
theorem node_scalar (style : Style) (text : String) :
  Node.node (depth + 1) place (.ofTokens limit handles (.scalar style text :: us))
    = some (.scalar {} style text, .ofTokens limit handles us)
  := rfl

/-- Brackets without anything between them are an empty list or map. -/
theorem node_brackets :
  Node.node (depth + 1) place (.ofTokens limit handles (.flowListStart :: .flowListEnd :: us))
      = some (.list {} [], .ofTokens limit handles us)
    ∧ Node.node (depth + 1) place (.ofTokens limit handles (.flowMapStart :: .flowMapEnd :: us))
      = some (.map {} [], .ofTokens limit handles us)
  := ⟨rfl, rfl⟩

variable {rest : List Token}

/-- A list without indentation starts at its first dash, and ends where something else stands. -/
theorem node_unindented {items : List Node}
    (h : collect (item (Node.node depth ⟨true, false⟩) fun t => t = .blockEntry || missingInMap t)
        limit (.ofTokens limit handles (.blockEntry :: rest))
      = some (items, .ofTokens limit handles us)) :
  Node.node (depth + 1) ⟨true, true⟩ (.ofTokens limit handles (.blockEntry :: rest))
    = some (.list {} items, .ofTokens limit handles us)
  := by
  have hread : Node.node (depth + 1) ⟨true, true⟩ (.ofTokens limit handles (.blockEntry :: rest))
      = (collect (item (Node.node depth ⟨true, false⟩) fun t => t = .blockEntry || missingInMap t)
        limit (.ofTokens limit handles (.blockEntry :: rest))).bind fun p =>
          some (.list {} p.1, p.2) := rfl
  rw [hread, h]
  rfl

/-- A list in a block of its own ends at the end of the block. -/
theorem node_list {items : List Node}
    (h : collect (item (Node.node depth ⟨true, false⟩) fun t => t = .blockEntry || t = .blockEnd)
        limit (.ofTokens limit handles rest)
      = some (items, .ofTokens limit handles (.blockEnd :: us))) :
  Node.node (depth + 1) ⟨true, unindented⟩
      (.ofTokens limit handles (.blockListStart :: rest))
    = some (.list {} items, .ofTokens limit handles us)
  := by
  have hread : Node.node (depth + 1) ⟨true, unindented⟩
        (.ofTokens limit handles (.blockListStart :: rest))
      = (collect (item (Node.node depth ⟨true, false⟩) fun t => t = .blockEntry || t = .blockEnd)
        limit (.ofTokens limit handles rest)).bind fun p =>
          (expect .blockEnd p.2).bind fun q => some (.list {} p.1, q.2) := rfl
  rw [hread, h]
  rfl

/-- A map ends at the end of its block. -/
theorem node_map {entries : List (Node × Node)}
    (h : collect (entry (Node.node depth ⟨true, true⟩)) limit (.ofTokens limit handles rest)
      = some (entries, .ofTokens limit handles (.blockEnd :: us))) :
  Node.node (depth + 1) ⟨true, unindented⟩ (.ofTokens limit handles (.blockMapStart :: rest))
    = some (.map {} entries, .ofTokens limit handles us)
  := by
  have hread : Node.node (depth + 1) ⟨true, unindented⟩
        (.ofTokens limit handles (.blockMapStart :: rest))
      = (collect (entry (Node.node depth ⟨true, true⟩)) limit
        (.ofTokens limit handles rest)).bind fun p =>
          (expect .blockEnd p.2).bind fun q => some (.map {} p.1, q.2) := rfl
  rw [hread, h]
  rfl

end

/-! ### Trees -/

/-- An item has fewer tokens than the list that it is in. -/
theorem length_lt_itemTokens {t : Tree} {ts : List Tree} (ht : t ∈ ts) :
  (t.tokens false).length < (Tree.itemTokens ts).length
  := by
  induction ts with
  | nil => cases ht
  | cons u ts ih =>
    simp only [Tree.itemTokens, List.cons_append, List.length_cons, List.length_append]
    obtain rfl | ht := List.mem_cons.mp ht
    · omega
    · have hlt := ih ht
      omega

/-- The value of a member has fewer tokens than its record. -/
theorem length_lt_memberTokens {m : String × Tree} {ms : List (String × Tree)} (hm : m ∈ ms) :
  (m.2.tokens true).length < (Tree.memberTokens ms).length
  := by
  induction ms with
  | nil => cases hm
  | cons u ms ih =>
    obtain ⟨name, t⟩ := u
    simp only [Tree.memberTokens, List.cons_append, List.length_cons, List.length_append]
    obtain rfl | hm := List.mem_cons.mp hm
    · dsimp only
      omega
    · have hlt := ih hm
      omega

/-- Every item has a token. -/
theorem length_le_itemTokens (ts : List Tree) :
  ts.length ≤ (Tree.itemTokens ts).length
  := by
  induction ts with
  | nil => exact Nat.zero_le _
  | cons t ts ih =>
    simp only [Tree.itemTokens, List.cons_append, List.length_cons, List.length_append]
    omega

theorem length_le_memberTokens (ms : List (String × Tree)) :
  ms.length ≤ (Tree.memberTokens ms).length
  := by
  induction ms with
  | nil => exact Nat.zero_le _
  | cons m ms ih =>
    obtain ⟨name, t⟩ := m
    simp only [Tree.memberTokens, List.cons_append, List.length_cons, List.length_append]
    omega

/-- The first token of a tree is neither a mark of an entry, unless the tree is a list without
indentation, nor the end of a block. -/
theorem headD_tokens (t : Tree) (us : List Token) :
  ((t.tokens false ++ us).headD .textEnd ≠ .blockEntry)
    ∧ missingInMap ((t.tokens false ++ us).headD .textEnd) = false
    ∧ missingInMap ((t.tokens true ++ us).headD .textEnd) = false
  := by
  cases t with
  | null | bool | number | text => exact ⟨by simp [Tree.tokens], rfl, rfl⟩
  | list ts =>
    cases ts with
    | nil => exact ⟨by simp [Tree.tokens], rfl, rfl⟩
    | cons t ts => exact ⟨by simp [Tree.tokens], rfl, rfl⟩
  | record ms =>
    cases ms with
    | nil => exact ⟨by simp [Tree.tokens], rfl, rfl⟩
    | cons m ms => exact ⟨by simp [Tree.tokens], rfl, rfl⟩

/-- There is no tree without tokens. -/
theorem length_tokens_pos (t : Tree) (unindented : Bool) :
  0 < (t.tokens unindented).length
  := by
  cases t with
  | null | bool | number | text => exact Nat.zero_lt_one
  | list ts =>
    cases ts with
    | nil => exact Nat.zero_lt_succ 1
    | cons t ts =>
      cases unindented with
      | true => exact Nat.zero_lt_succ _
      | false => exact Nat.zero_lt_succ _
  | record ms =>
    cases ms with
    | nil => exact Nat.zero_lt_succ 1
    | cons m ms => exact Nat.zero_lt_succ _

/-- Trees whose tokens are not more than the given number are put together to their nodes. -/
def Composes (limit : Nat) (handles : List (String × Tag)) (depth : Nat) : Prop :=
  ∀ ⦃t : Tree⦄ ⦃unindented : Bool⦄ ⦃us : List Token⦄, (t.tokens unindented).length ≤ depth →
    (t.tokens unindented).length < limit →
    (unindented = true → us.headD .textEnd ≠ .blockEntry) →
    Node.node depth ⟨true, unindented⟩ (.ofTokens limit handles (t.tokens unindented ++ us))
      = some (t.node, .ofTokens limit handles us)

section

variable {depth : Nat} (h : Composes limit handles depth)

include h

/-- Items whose trees are put together are collected, the bound on the depth being that of the list.
-/
theorem collect_itemTokens {ts : List Tree} (hdepth : (Tree.itemTokens ts).length ≤ depth + 1)
    (hlimit : (Tree.itemTokens ts).length < limit)
    (hmissing : ∀ (t : Tree) us, missing ((t.tokens false ++ us).headD .textEnd) = false)
    (hus : us.headD .textEnd ≠ .blockEntry) :
  collect (item (Node.node depth ⟨true, false⟩) missing) limit
      (.ofTokens limit handles (Tree.itemTokens ts ++ us))
    = some (Tree.nodes ts, .ofTokens limit handles us)
  := by
  have hcount := length_le_itemTokens ts
  refine collect_items (by omega) (fun t ht us => ?_) hus
  have hlength := length_lt_itemTokens ht
  rw [orEmpty_of_not_missing (hmissing t us)]
  exact h (by omega) (by omega) fun h => nomatch h

/-- Members whose trees are put together are collected, the bound on the depth being that of the
record. -/
theorem collect_memberTokens {ms : List (String × Tree)} (hpos : 0 < depth)
    (hdepth : (Tree.memberTokens ms).length ≤ depth)
    (hlimit : (Tree.memberTokens ms).length < limit)
    (hkey : us.headD .textEnd ≠ .key) (hentry : us.headD .textEnd ≠ .blockEntry) :
  collect (entry (Node.node depth ⟨true, true⟩)) limit
      (.ofTokens limit handles (Tree.memberTokens ms ++ us))
    = some (Tree.entries ms, .ofTokens limit handles us)
  := by
  have hcount := length_le_memberTokens ms
  refine collect_members (by omega) (fun name us => ?_) (fun m hm us hus => ?_) hkey hentry
  · obtain ⟨depth, rfl⟩ := Nat.exists_eq_add_of_lt hpos
    rw [orEmpty_of_not_missing rfl]
    exact node_scalar _ _
  · have hlength := length_lt_memberTokens hm
    rw [orEmpty_of_not_missing (headD_tokens m.2 us).2.2]
    exact h (by omega) (by omega) fun _ => hus

/-- A list that is not empty is put together from its items, in a block of its own or without
indentation. -/
theorem composes_list (t : Tree) (ts : List Tree) {unindented : Bool}
    (hdepth : ((Tree.list (t :: ts)).tokens unindented).length ≤ depth + 1)
    (hlimit : ((Tree.list (t :: ts)).tokens unindented).length < limit)
    (hus : unindented = true → us.headD .textEnd ≠ .blockEntry) :
  Node.node (depth + 1) ⟨true, unindented⟩
      (.ofTokens limit handles ((Tree.list (t :: ts)).tokens unindented ++ us))
    = some ((Tree.list (t :: ts)).node, .ofTokens limit handles us)
  := by
  cases unindented with
  | true =>
    refine node_unindented (collect_itemTokens h hdepth hlimit (fun t us => ?_) (hus rfl))
    obtain ⟨hentry, hmap, -⟩ := headD_tokens t us
    rw [hmap, decide_eq_false hentry]
    rfl
  | false =>
    have htokens : (Tree.list (t :: ts)).tokens false ++ us
        = .blockListStart :: (Tree.itemTokens (t :: ts) ++ (.blockEnd :: us)) := by
      simp [Tree.tokens]
    simp only [Tree.tokens, Bool.false_eq_true, if_false, List.length_append, List.length_cons,
      List.length_nil] at hdepth hlimit
    rw [htokens]
    refine node_list (collect_itemTokens h (by omega) (by omega) (fun t us => ?_)
      (by exact (by decide : Token.blockEnd ≠ .blockEntry)))
    obtain ⟨hentry, hmap, -⟩ := headD_tokens t us
    have hend : (t.tokens false ++ us).headD .textEnd ≠ .blockEnd := by
      intro heq
      rw [heq] at hmap
      cases hmap
    rw [decide_eq_false hentry, decide_eq_false hend]
    rfl

/-- A record that is not empty is put together from its members. -/
theorem composes_record (m : String × Tree) (ms : List (String × Tree)) {unindented : Bool}
    (hdepth : ((Tree.record (m :: ms)).tokens unindented).length ≤ depth + 1)
    (hlimit : ((Tree.record (m :: ms)).tokens unindented).length < limit) :
  Node.node (depth + 1) ⟨true, unindented⟩
      (.ofTokens limit handles ((Tree.record (m :: ms)).tokens unindented ++ us))
    = some ((Tree.record (m :: ms)).node, .ofTokens limit handles us)
  := by
  have htokens : (Tree.record (m :: ms)).tokens unindented ++ us
      = .blockMapStart :: (Tree.memberTokens (m :: ms) ++ (.blockEnd :: us)) := by
    simp [Tree.tokens]
  simp only [Tree.tokens, List.length_append, List.length_cons, List.length_nil] at hdepth hlimit
  have hcount := length_le_memberTokens (m :: ms)
  rw [List.length_cons] at hcount
  rw [htokens]
  exact node_map (collect_memberTokens h (by omega) (by omega) (by omega)
    (by exact (by decide : Token.blockEnd ≠ .key))
    (by exact (by decide : Token.blockEnd ≠ .blockEntry)))

end

/-- The tokens of a tree are put together to its node. -/
theorem composes (limit : Nat) (handles : List (String × Tag)) (depth : Nat) :
  Composes limit handles depth
  := by
  -- The depth counts tokens, and every tree has more of them than the trees in it.
  induction depth with
  | zero =>
    intro t unindented us hdepth
    exact absurd hdepth (Nat.not_le.mpr (length_tokens_pos t unindented))
  | succ depth ih =>
    intro t unindented us hdepth hlimit hus
    cases t with
    | null | bool | number | text => exact node_scalar _ _
    | list ts =>
      cases ts with
      | nil => exact node_brackets.1
      | cons t ts => exact composes_list ih t ts hdepth hlimit hus
    | record ms =>
      cases ms with
      | nil => exact node_brackets.2
      | cons m ms => exact composes_record ih m ms hdepth hlimit

/-! ### Documents -/

/-- A document that starts with a block is a single node up to the end of the text. -/
theorem document_blockMapStart {rest : List Token} {root : Node}
    (h : Node.node (limit + 1) ⟨true, false⟩
        (.ofTokens (limit + 1) usualHandles (.blockMapStart :: rest))
      = some (root, .ofTokens (limit + 1) usualHandles [.textEnd])) :
  document (.ofTokens (limit + 1) [] (.blockMapStart :: rest))
    = some (root, .ofTokens (limit + 1) usualHandles [])
  := by
  have hread : document (.ofTokens (limit + 1) [] (.blockMapStart :: rest))
      = (Node.node (limit + 1) ⟨true, false⟩
        (.ofTokens (limit + 1) usualHandles (.blockMapStart :: rest))).bind fun p =>
          ((discard (collectAll do
            if (← peek) = .documentEnd then do take; return some () else return none) :
              Compose Unit) p.2).bind fun q =>
            (expect .textEnd q.2).bind fun r => some (p.1, r.2) := rfl
  rw [hread, h]
  rfl

/-- The tokens of a record alone are a document. -/
theorem document_tokens (m : String × Tree) (ms : List (String × Tree))
    (hlimit : ((Tree.record (m :: ms)).tokens false).length ≤ limit) :
  document (.ofTokens (limit + 1) [] ((Tree.record (m :: ms)).tokens false ++ [.textEnd]))
    = some ((Tree.record (m :: ms)).node, .ofTokens (limit + 1) usualHandles [])
  := document_blockMapStart (composes (limit + 1) usualHandles (limit + 1)
    (Nat.le_succ_of_le hlimit) (Nat.lt_succ_of_le hlimit) fun h => nomatch h)

end DetachedSchema.Yaml.Node

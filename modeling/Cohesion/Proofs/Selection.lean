import Cohesion.Module
import Cohesion.Proofs.Encoding
import Cohesion.Proofs.Topmost

/-!
# Selecting subtrees

The subtrees that a cut selects can be searched for one node at a time, with the nodes that remain
to be looked at on a stack.  At every stage of such a search the nodes found so far, followed by the
topmost nodes of the subtrees that remain, are the topmost nodes of the whole subtree, and the search
ends: `Search.found_append_of_reaches` and `Search.reaches_topmost`.  Every join that passes is below
exactly one topmost node, and these stand in the order of the leaves below them:
`Dendrogram.topmost_isSelection`.
-/

namespace Cohesion

namespace Dendrogram

variable {S : Type} [Score S] {t : Dendrogram S} {test : S → Bool} {id l r top : Nat}

/-! ### One node after the other -/

/-- A stage of a search: the nodes that are found, and those that remain to be looked at. -/
structure Search where
  found : List Nat
  pending : List Nat

namespace Search

/-- The stage at which the whole subtree at `top` remains to be looked at. -/
def start (top : Nat) : Search :=
  ⟨[], [top]⟩

/-- The stage after the next node, if one remains.  A leaf is passed over, a join that passes is
found, and in the place of any other join its children remain, the left one first. -/
def next? (t : Dendrogram S) (test : S → Bool) : Search → Option Search
  | ⟨_, []⟩ => none
  | ⟨found, id :: pending⟩ =>
    match t.children id with
    | none => some ⟨found, pending⟩
    | some (l, r) =>
      if test (t.height id) then some ⟨found ++ [id], pending⟩
      else some ⟨found, l :: r :: pending⟩

/-- The stage `s'` is `s` or a later one. -/
def Reaches (t : Dendrogram S) (test : S → Bool) : Search → Search → Prop :=
  Relation.ReflTransGen fun s s' => s.next? t test = some s'

variable {s s' s'' : Search} {found pending : List Nat}

theorem Reaches.of_next? (h : s.next? t test = some s') :
  Reaches t test s s'
  := Relation.ReflTransGen.single h

/-- Walks of the selection put together are a walk. -/
theorem Reaches.trans (h : Reaches t test s s') (h' : Reaches t test s' s'') :
  Reaches t test s s''
  := Relation.ReflTransGen.trans h h'

theorem next?_of_children_eq_none (h : t.children id = none) :
  next? t test ⟨found, id :: pending⟩ = some ⟨found, pending⟩
  := by
  rw [next?, h]

/-- An inner node on top of the stack is selected when it passes, and gives way to its children
otherwise. -/
theorem next?_of_children (test : S → Bool) (found pending : List Nat)
    (h : t.children id = some (l, r)) :
  next? t test ⟨found, id :: pending⟩
    = if test (t.height id) then some ⟨found ++ [id], pending⟩
      else some ⟨found, l :: r :: pending⟩
  := by
  rw [next?, h]

/-- The search goes through a subtree and finds its topmost nodes before it looks at what remains
besides. -/
theorem reaches_append_topmost (t : Dendrogram S) (test : S → Bool) (found : List Nat) (top : Nat)
    (pending : List Nat) :
  Reaches t test ⟨found, top :: pending⟩ ⟨found ++ t.topmost test top, pending⟩
  := by
  induction top using t.induction_on generalizing found pending with
  | leaf top h =>
    rw [topmost_of_children_eq_none h, List.append_nil]
    apply Reaches.of_next? (next?_of_children_eq_none h)
  | join top l r h ihl ihr =>
    have hnext := next?_of_children test found pending h
    rw [topmost_of_children h]
    split
    · rename_i htop
      rw [if_pos htop] at hnext
      apply Reaches.of_next? hnext
    · rename_i htop
      rw [if_neg htop] at hnext
      rw [← List.append_assoc]
      apply (Reaches.of_next? hnext).trans
      apply (ihl found (r :: pending)).trans
      apply ihr

/-- The search of a subtree ends with its topmost nodes. -/
theorem reaches_topmost (t : Dendrogram S) (test : S → Bool) (top : Nat) :
  Reaches t test (start top) ⟨t.topmost test top, []⟩
  := reaches_append_topmost t test [] top []

/-- One node moves none of the topmost nodes away: it is found, or its children remain. -/
theorem found_append_of_next? (h : s.next? t test = some s') :
  s'.found ++ s'.pending.flatMap (t.topmost test) = s.found ++ s.pending.flatMap (t.topmost test)
  := by
  obtain ⟨found, _ | ⟨id, pending⟩⟩ := s
  · cases h
  · rw [List.flatMap_cons]
    cases hchildren : t.children id with
    | none =>
      rw [next?_of_children_eq_none hchildren] at h
      cases h
      rw [topmost_of_children_eq_none hchildren, List.nil_append]
    | some lr =>
      rw [next?_of_children test found pending hchildren] at h
      rw [topmost_of_children hchildren]
      split at h
      · rename_i hid
        cases h
        rw [if_pos hid, List.append_assoc]
      · rename_i hid
        cases h
        rw [if_neg hid, List.flatMap_cons, List.flatMap_cons, List.append_assoc]

/-- At every stage the nodes found and the topmost nodes of what remains are all topmost nodes. -/
theorem found_append_of_reaches (h : Reaches t test (start top) s) :
  s.found ++ s.pending.flatMap (t.topmost test) = t.topmost test top
  := by
  induction h with
  | refl => apply List.append_nil
  | tail _ hnext ih => rw [found_append_of_next? hnext, ih]

end Search

/-! ### From left to right -/

omit [Score S] in
theorem leaves_of_children (h : t.children id = some (l, r)) :
  t.leaves id = t.leaves l ++ t.leaves r
  := by
  obtain ⟨n, hn, hchildren⟩ := children_eq_some_iff.mp h
  apply leaves_of_children_eq_some hn hchildren

/-- The topmost nodes stand in the order of the leaves below them. -/
theorem leaves_topmost_sublist (t : Dendrogram S) (test : S → Bool) (top : Nat) :
  ((t.topmost test top).flatMap t.leaves).Sublist (t.leaves top)
  := by
  induction top using t.induction_on with
  | leaf top h =>
    rw [topmost_of_children_eq_none h]
    apply List.nil_sublist
  | join top l r h ihl ihr =>
    rw [topmost_of_children h]
    split
    · rw [List.flatMap_singleton]
    · rw [List.flatMap_append, leaves_of_children h]
      apply ihl.append ihr

/-- No leaf below a node is listed twice. -/
theorem IsSound.nodup_leaves (ht : t.IsSound) (id : Nat) :
  (t.leaves id).Nodup
  := (ht.leaves_perm id).nodup_iff.mpr (NameSet.nodup _)

/-! ### The selection of a cut -/

/-- A node is in the subtree at one topmost node only. -/
theorem IsSound.eq_of_mem_topmost (ht : t.IsSound) {a b : Nat} (ha : a ∈ t.topmost test top)
    (hb : b ∈ t.topmost test top) (hida : t.Below id a) (hidb : t.Below id b) :
  a = b
  := by
  have hsymm : Std.Symm fun a b => (t.members a).Disjoint (t.members b) :=
    ⟨fun _ _ => NameSet.Disjoint.symm⟩
  have hlt := lt_size_of_children_ne_none (ht.mem_topmost_iff.mp ha).children_ne_none
  obtain ⟨x, hx⟩ := NameSet.ne_empty_iff.mp (ht.members_ne_empty (hida.le.trans_lt hlt))
  by_contra hne
  apply (ht.pairwise_disjoint_topmost test top).forall ha hb hne x
  · apply ht.mem_of_below hida hx
  · apply ht.mem_of_below hidb hx

/-- A search of the subtree at `top` ends, and always with `ids`.  These are, each of them once, the
joins of the subtree that pass the cut while none of their ancestors in it does.  They have no common
members, every join of the subtree that passes is below exactly one of them, and they stand in the
order in which the leaves below them are leaves of the subtree. -/
structure IsSelection (t : Dendrogram S) (c : Cut S) (top : Nat) (ids : List Nat) : Prop where
  reached : Search.Reaches t c.passes (.start top) ⟨ids, []⟩
  eq_of_reached : ∀ found, Search.Reaches t c.passes (.start top) ⟨found, []⟩ → found = ids
  nodup : ids.Nodup
  mem_iff : ∀ id, id ∈ ids ↔ t.IsTopmost c.passes top id
  disjoint : ids.Pairwise fun a b => (t.members a).Disjoint (t.members b)
  existsUnique_above : ∀ id, t.Below id top → t.children id ≠ none → c.passes (t.height id) →
    ∃! a, a ∈ ids ∧ t.Below id a
  nodup_leaves : (t.leaves top).Nodup
  leaves_sublist : (ids.flatMap t.leaves).Sublist (t.leaves top)

/-- In the tree of a merge sequence the topmost nodes below any node are the selection of a cut. -/
theorem topmost_isSelection {merges : List (Merge S)} (h : ofMerges merges = .ok t) (c : Cut S)
    (top : Nat) :
  t.IsSelection c top (t.topmost c.passes top)
  := by
  have ht := isSound_ofMerges h
  constructor
  · apply Search.reaches_topmost
  · intro found hfound
    have hall := Search.found_append_of_reaches hfound
    rw [List.flatMap_nil, List.append_nil] at hall
    apply hall
  · apply ht.nodup_topmost
  · intro id
    apply ht.mem_topmost_iff
  · apply ht.pairwise_disjoint_topmost
  · intro id hid hchildren hpasses
    obtain ⟨a, ha, hida⟩ := exists_mem_topmost hid hchildren hpasses
    use a, ⟨ha, hida⟩
    rintro b ⟨hb, hidb⟩
    apply ht.eq_of_mem_topmost hb ha hidb hida
  · apply ht.nodup_leaves
  · apply leaves_topmost_sublist

/-- Below a root whose height is no number the two pairs of classes are selected, from left to
right. -/
theorem topmost_isSelection_of_undefined :
  let ab := NameSet.ofList ["A", "B"]
  let cd := NameSet.ofList ["C", "D"]
  let merges : List (Merge Float) :=
    [⟨.singleton "C", .singleton "D", 0.5⟩, ⟨.singleton "A", .singleton "B", 0.25⟩,
      ⟨ab, cd, 0.0 / 0.0⟩]
  let c : Cut Float := ⟨0.25, .similarity⟩
  ∃ t, ofMerges merges = .ok t ∧ t.root? = some 6 ∧ t.topmost c.passes 6 = [5, 4]
    ∧ t.IsSelection c 6 [5, 4]
  := by
  intro ab cd merges c
  have hread : (ofMerges merges).toOption.map (fun t =>
      (t.root?, [6, 5, 4].map t.children, [6, 5, 4].map fun id => c.passes (t.height id)))
      = some (some 6, [some (5, 4), some (2, 3), some (0, 1)], [false, true, true]) := by
    decide +kernel
  cases h : ofMerges merges with
  | error fault =>
    rw [h] at hread
    cases hread
  | ok t =>
    rw [h] at hread
    simp only [Except.toOption, Option.map_some, Option.some.injEq, Prod.mk.injEq, List.map_cons,
      List.map_nil, List.cons.injEq, and_true] at hread
    obtain ⟨hroot, ⟨hsix, hfive, hfour⟩, hlow, hab, hcd⟩ := hread
    have htopmost : t.topmost c.passes 6 = [5, 4] := by
      rw [topmost_of_children hsix, hlow, topmost_of_children hfive, hab,
        topmost_of_children hfour, hcd]
      rfl
    use t, rfl, hroot, htopmost
    rw [← htopmost]
    apply topmost_isSelection h

end Dendrogram

end Cohesion

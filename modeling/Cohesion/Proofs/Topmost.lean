import Cohesion.Proofs.Lineage

/-!
# The topmost nodes that pass a test

`t.IsTopmost test top id` says that `id` is a join in the subtree at `top` whose height passes a test
that the heights of its ancestors up to `top` fail.  The walk down a tree of sound nodes finds
exactly these nodes: `Dendrogram.IsSound.mem_topmost_iff`.  They have no common members, hence there
are at most half as many of them as members of `top`, and every join that passes is below one of
them.
-/

namespace Cohesion

namespace Dendrogram

variable {S : Type} [Score S] {t : Dendrogram S} {test : S → Bool} {id l r top : Nat}

/-- `id` is a join in the subtree at `top`, it passes, and none of its ancestors up to `top` does. -/
structure IsTopmost (t : Dendrogram S) (test : S → Bool) (top id : Nat) : Prop where
  below : t.Below id top
  children_ne_none : t.children id ≠ none
  passes : test (t.height id)
  not_passes : ∀ a, t.Below a top → t.StrictlyBelow id a → ¬ test (t.height a)

omit [Score S] in
theorem topmost_of_children_eq_none (h : t.children top = none) :
  t.topmost test top = []
  := by
  rw [topmost]
  split
  · rename_i hlt
    rw [children_of_eq_some (Array.getElem?_eq_getElem hlt)] at h
    split
    · rfl
    · rename_i hsome
      rw [h] at hsome
      cases hsome
  · rfl

/-- An inner node is topmost itself when it passes, and leaves it to its children otherwise. -/
theorem topmost_of_children (h : t.children top = some (l, r)) :
  t.topmost test top
    = if test (t.height top) then [top] else t.topmost test l ++ t.topmost test r
  := by
  have hlt : top < t.nodes.size := lt_size_of_children h
  have hnode := Array.getElem?_eq_getElem hlt
  rw [children_of_eq_some hnode] at h
  rw [topmost, dif_pos hlt, height_of_eq_some hnode]
  split
  · rename_i hnone
    rw [h] at hnone
    cases hnone
  · rename_i l' r' hsome
    rw [h] at hsome
    cases hsome
    rfl

/-- Where the walk stops the only topmost node is the one at which it does. -/
theorem isTopmost_iff_of_passes (h : t.children top = some (l, r)) (htop : test (t.height top)) :
  t.IsTopmost test top id ↔ id = top
  := by
  constructor
  · rintro ⟨hbelow, -, -, hnot⟩
    by_contra hne
    apply hnot top (Below.refl t top) ((below_iff.mp hbelow).resolve_left hne) htop
  · rintro rfl
    constructor
    · apply Below.refl
    · rw [h]
      apply Option.some_ne_none
    · apply htop
    · intro a ha hid
      apply absurd hid.lt (not_lt_of_ge ha.le)

/-- Where the walk goes on the topmost nodes are those of the two subtrees. -/
theorem IsSound.isTopmost_iff_of_not_passes (ht : t.IsSound) (h : t.children top = some (l, r))
    (htop : ¬ test (t.height top)) :
  t.IsTopmost test top id ↔ t.IsTopmost test l id ∨ t.IsTopmost test r id
  := by
  constructor
  · rintro ⟨hbelow, hchildren, hpasses, hnot⟩
    rcases (below_iff_of_children h).mp hbelow with rfl | hl | hr
    · apply absurd hpasses htop
    · left
      use hl, hchildren, hpasses
      intro a ha hid
      apply hnot a ((below_iff_of_children h).mpr (Or.inr (Or.inl ha))) hid
    · right
      use hr, hchildren, hpasses
      intro a ha hid
      apply hnot a ((below_iff_of_children h).mpr (Or.inr (Or.inr ha))) hid
  · -- An ancestor of a node in one subtree is `top` or in the same subtree.
    rintro (⟨hl, hchildren, hpasses, hnot⟩ | ⟨hr, hchildren, hpasses, hnot⟩)
    · use (below_iff_of_children h).mpr (Or.inr (Or.inl hl)), hchildren, hpasses
      intro a ha hid
      rcases (below_iff_of_children h).mp ha with rfl | ha | ha
      · apply htop
      · apply hnot a ha hid
      · apply absurd (hid.below.trans ha) (ht.not_below_right h hl)
    · use (below_iff_of_children h).mpr (Or.inr (Or.inr hr)), hchildren, hpasses
      intro a ha hid
      rcases (below_iff_of_children h).mp ha with rfl | ha | ha
      · apply htop
      · apply absurd hr (ht.not_below_right h (hid.below.trans ha))
      · apply hnot a ha hid

/-- The walk finds the topmost nodes and nothing else. -/
theorem IsSound.mem_topmost_iff (ht : t.IsSound) :
  id ∈ t.topmost test top ↔ t.IsTopmost test top id
  := by
  induction top using t.induction_on with
  | leaf top h =>
    rw [topmost_of_children_eq_none h]
    constructor
    · intro hid
      apply absurd hid List.not_mem_nil
    · rintro ⟨hbelow, hchildren, -, -⟩
      obtain rfl := (below_iff_of_children_eq_none h).mp hbelow
      apply absurd h hchildren
  | join top l r h ihl ihr =>
    rw [topmost_of_children h]
    split
    · rename_i htop
      rw [List.mem_singleton, isTopmost_iff_of_passes h htop]
    · rename_i htop
      rw [List.mem_append, ihl, ihr, ht.isTopmost_iff_of_not_passes h htop]

/-- Different topmost nodes have no common members. -/
theorem IsSound.pairwise_disjoint_topmost (ht : t.IsSound) (test : S → Bool) (top : Nat) :
  (t.topmost test top).Pairwise fun a b => (t.members a).Disjoint (t.members b)
  := by
  induction top using t.induction_on with
  | leaf top h =>
    rw [topmost_of_children_eq_none h]
    apply List.Pairwise.nil
  | join top l r h ihl ihr =>
    rw [topmost_of_children h]
    split
    · apply List.pairwise_singleton
    · apply List.pairwise_append.mpr
      use ihl, ihr
      intro a ha b hb x hxa hxb
      apply ht.disjoint_of_children h x
      · apply ht.mem_of_below (ht.mem_topmost_iff.mp ha).below hxa
      · apply ht.mem_of_below (ht.mem_topmost_iff.mp hb).below hxb

/-- No topmost node is listed twice. -/
theorem IsSound.nodup_topmost (ht : t.IsSound) (test : S → Bool) (top : Nat) :
  (t.topmost test top).Nodup
  := by
  apply List.Pairwise.imp_of_mem _ (ht.pairwise_disjoint_topmost test top)
  rintro a b ha - hdisjoint rfl
  have hlt := lt_size_of_children_ne_none (ht.mem_topmost_iff.mp ha).children_ne_none
  apply ht.members_ne_empty hlt hdisjoint.eq_empty

/-- A join has two members at least. -/
theorem IsSound.two_le_size (ht : t.IsSound) (h : t.children id ≠ none) :
  2 ≤ (t.members id).size
  := by
  obtain ⟨⟨l, r⟩, hchildren⟩ := Option.ne_none_iff_exists'.mp h
  have hsize := ht.size_of_children hchildren
  omega

/-- Each topmost node has two members of its own. -/
theorem IsSound.two_mul_length_topmost_le (ht : t.IsSound) (test : S → Bool) (top : Nat) :
  2 * (t.topmost test top).length ≤ (t.members top).size
  := by
  induction top using t.induction_on with
  | leaf top h =>
    rw [topmost_of_children_eq_none h]
    apply Nat.zero_le
  | join top l r h ihl ihr =>
    have hsize := ht.size_of_children h
    rw [topmost_of_children h]
    split
    · rw [List.length_singleton]
      omega
    · rw [List.length_append]
      omega

/-- A join that passes is in the subtree at a topmost node. -/
theorem exists_mem_topmost (hid : t.Below id top) (hchildren : t.children id ≠ none)
    (hpasses : test (t.height id)) :
  ∃ a ∈ t.topmost test top, t.Below id a
  := by
  induction top using t.induction_on with
  | leaf top h =>
    obtain rfl := (below_iff_of_children_eq_none h).mp hid
    apply absurd h hchildren
  | join top l r h ihl ihr =>
    rw [topmost_of_children h]
    split
    · use top, List.mem_singleton_self top
    · rename_i htop
      rcases (below_iff_of_children h).mp hid with rfl | hl | hr
      · apply absurd hpasses htop
      · obtain ⟨a, ha, hida⟩ := ihl hl
        use a, List.mem_append_left _ ha
      · obtain ⟨a, ha, hida⟩ := ihr hr
        use a, List.mem_append_right _ ha

end Dendrogram

end Cohesion

import Cohesion.Proofs.FloatOrder
import Cohesion.Proofs.Selection

/-!
# Finer cuts

A cut is finer than another one when every height that passes it passes the other one as well.  A
higher point makes a cut by similarity finer and a cut by distance coarser.  Whatever the heights
of a tree are, each node that the finer cut selects passes the coarser one and is therefore below
exactly one node that this one selects: `Dendrogram.IsSound.existsUnique_topmost_above`.
-/

namespace Cohesion

/-- Every height that passes `c` passes `d`. -/
def Cut.Finer {S : Type} [Score S] (c d : Cut S) : Prop :=
  ∀ height, c.passes height → d.passes height

namespace Dendrogram

variable {S : Type} [Score S] {t : Dendrogram S} {c d : Cut S} {id top : Nat}

/-- What a finer cut selects is in exactly one of the subtrees that a coarser cut selects. -/
theorem IsSound.existsUnique_topmost_above (ht : t.IsSound) (hfiner : c.Finer d)
    (hid : id ∈ t.topmost c.passes top) :
  ∃! a, a ∈ t.topmost d.passes top ∧ t.Below id a
  := by
  obtain ⟨hbelow, hchildren, hpasses, -⟩ := ht.mem_topmost_iff.mp hid
  obtain ⟨a, ha, hida⟩ := exists_mem_topmost hbelow hchildren (hfiner _ hpasses)
  use a, ⟨ha, hida⟩
  rintro b ⟨hb, hidb⟩
  apply ht.eq_of_mem_topmost hb ha hidb hida

end Dendrogram

/-! ### Points in order -/

namespace Cut

variable {low high : Float}

/-- By similarity, a higher point is passed by fewer heights. -/
theorem finer_similarity (h : low ≤ high) :
  (Cut.mk high .similarity).Finer ⟨low, .similarity⟩
  := by
  intro height hpasses
  apply decide_eq_true
  apply FloatOrder.float_le_trans h (of_decide_eq_true hpasses)

/-- By distance, a higher point is passed by more heights. -/
theorem finer_distance (h : low ≤ high) :
  (Cut.mk low .distance).Finer ⟨high, .distance⟩
  := by
  intro height hpasses
  apply decide_eq_true
  apply FloatOrder.float_le_trans (of_decide_eq_true hpasses) h

end Cut

namespace Dendrogram

/-- In the tree of any merge sequence, and below any of its nodes, the subtrees selected by
similarity at the higher of two points each lie in exactly one of those selected at the lower one,
and by distance it is the other way round. -/
theorem topmost_nested {merges : List (Merge Float)} {t : Dendrogram Float}
    (ht : ofMerges merges = .ok t) (top : Nat) {low high : Float} (h : low ≤ high) :
  let selected (point : Float) (mode : CutMode) : List Nat :=
    t.topmost (Cut.mk point mode).passes top
  (∀ id ∈ selected high .similarity, ∃! a, a ∈ selected low .similarity ∧ t.Below id a)
    ∧ ∀ id ∈ selected low .distance, ∃! a, a ∈ selected high .distance ∧ t.Below id a
  := by
  intro selected
  have hsound := isSound_ofMerges ht
  constructor
  · intro id hid
    apply hsound.existsUnique_topmost_above (Cut.finer_similarity h) hid
  · intro id hid
    apply hsound.existsUnique_topmost_above (Cut.finer_distance h) hid

/-- A root between its two children in height: the pair that is higher is selected by similarity
above the root, the pair that is lower by distance below it. -/
theorem topmost_nested_between :
  let ab := NameSet.ofList ["A", "B"]
  let cd := NameSet.ofList ["C", "D"]
  let merges : List (Merge Float) :=
    [⟨.singleton "A", .singleton "B", 0.5⟩, ⟨.singleton "C", .singleton "D", 0.125⟩,
      ⟨ab, cd, 0.25⟩]
  ∃ t, ofMerges merges = .ok t
    ∧ (t.topmost (Cut.mk 0.375 .similarity).passes 6 = [4]
      ∧ ∃! a, a ∈ t.topmost (Cut.mk 0.1875 .similarity).passes 6 ∧ t.Below 4 a)
    ∧ t.topmost (Cut.mk 0.1875 .distance).passes 6 = [5]
      ∧ ∃! a, a ∈ t.topmost (Cut.mk 0.375 .distance).passes 6 ∧ t.Below 5 a
  := by
  intro ab cd merges
  have hread : (ofMerges merges).toOption.map (fun t =>
      ([6, 5, 4, 3, 2, 1, 0].map t.children, [6, 5, 4].map t.height))
      = some ([some (4, 5), some (2, 3), some (0, 1), none, none, none, none],
        [0.25, 0.125, 0.5]) := by
    decide +kernel
  cases ht : ofMerges merges with
  | error fault =>
    rw [ht] at hread
    cases hread
  | ok t =>
    rw [ht] at hread
    simp only [Except.toOption, Option.map_some, Option.some.injEq, Prod.mk.injEq, List.map_cons,
      List.map_nil, List.cons.injEq, and_true] at hread
    obtain ⟨⟨hsix, hfive, hfour, hthree, htwo, hone, hzero⟩, hroot, hcd, hab⟩ := hread
    have hle : (0.1875 : Float) ≤ 0.375 := by decide +kernel
    obtain ⟨hsimilarity, hdistance⟩ := topmost_nested ht 6 hle
    have hhigh : t.topmost (Cut.mk 0.375 .similarity).passes 6 = [4] := by
      rw [topmost_of_children hsix, hroot, if_neg (by decide +kernel), topmost_of_children hfour,
        hab, if_pos (by decide +kernel), topmost_of_children hfive, hcd, if_neg (by decide +kernel),
        topmost_of_children_eq_none htwo, topmost_of_children_eq_none hthree]
      rfl
    have hlow : t.topmost (Cut.mk 0.1875 .distance).passes 6 = [5] := by
      rw [topmost_of_children hsix, hroot, if_neg (by decide +kernel), topmost_of_children hfour,
        hab, if_neg (by decide +kernel), topmost_of_children_eq_none hzero,
        topmost_of_children_eq_none hone, topmost_of_children hfive, hcd,
        if_pos (by decide +kernel)]
      rfl
    use t, rfl
    constructor
    · use hhigh
      apply hsimilarity
      apply hhigh ▸ List.mem_singleton_self 4
    · use hlow
      apply hdistance
      apply hlow ▸ List.mem_singleton_self 5

end Dendrogram

end Cohesion

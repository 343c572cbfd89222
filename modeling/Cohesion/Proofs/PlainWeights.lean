import Cohesion.Module
import Cohesion.Clustering
import Cohesion.Proofs.CallCounts
import Mathlib.Data.Finset.Card
import Mathlib.Data.Finset.Dedup
import Mathlib.Data.Sym.Sym2

/-!
# Maps of plain weights

A list of weights, each of them for two names, makes a coupling map.  The map holds the last weight for
every two names, in whichever order they are given, and nothing else: `CouplingMap.holdsLast_ofWeights`.
So the order of the list matters only among the weights for the same two names, and without such the
clustering and the modules are those of any rearrangement: `CouplingMap.ofWeights_holds_last`.
-/

namespace Cohesion

namespace NamePair

/-- The two names without any order. -/
def toSym2 (p : NamePair) : Sym2 String :=
  s(p.first, p.second)

@[simp]
theorem toSym2_of (a b : String) :
  (of a b).toSym2 = s(a, b)
  := by
  rw [of]
  split
  · rfl
  · apply Sym2.eq_swap

theorem toSym2_injective :
  Function.Injective toSym2
  := by
  intro p q h
  rw [← of_first_second p, ← of_first_second q, of_eq_of_iff]
  apply Sym2.eq_iff.mp h

/-- Two pairs of names are one exactly when they are so without their order. -/
theorem of_eq_of_iff_mk {a b c d : String} :
  of a b = of c d ↔ s(a, b) = s(c, d)
  := by rw [← toSym2_of, ← toSym2_of, toSym2_injective.eq_iff]

end NamePair

namespace CouplingMap

variable {S : Type} {weights weights' : List (String × String × S)} {x y : String}

/-- The two names that a weight is for. -/
def namesOf (w : String × String × S) : Sym2 String :=
  s(w.1, w.2.1)

/-- The last weight for two names, if there is one. -/
def lastFor? (weights : List (String × String × S)) (names : Sym2 String) : Option S :=
  ((weights.filter fun w => namesOf w = names).getLast?).map fun w => w.2.2

/-- The last weight for two names is the first found from the end of the list. -/
theorem lastFor?_eq_find? (weights : List (String × String × S)) (names : Sym2 String) :
  lastFor? weights names = (weights.reverse.find? fun w => namesOf w = names).map fun w => w.2.2
  := by rw [lastFor?, ← List.head?_reverse, ← List.filter_reverse, List.head?_filter]

/-- The map holds for two names the last weight listed for them, and no calls. -/
theorem entry?_ofWeights (weights : List (String × String × S)) (x y : String) :
  entry? (ofWeights weights) x y = (lastFor? weights s(x, y)).map fun weight => ⟨0, weight⟩
  := by
  have hnames : ∀ w : String × String × S,
      decide (NamePair.of w.1 w.2.1 = NamePair.of x y) = decide (namesOf w = s(x, y)) := by
    intro w
    rw [decide_eq_decide]
    apply NamePair.of_eq_of_iff_mk
  unfold entry?
  rw [ofWeights, ofEntries, getElem?_foldl_insert, ← List.map_reverse, List.find?_map,
    lastFor?_eq_find?, Std.ExtTreeMap.getElem?_empty, Option.or_none, Option.map_map, Option.map_map]
  simp only [Function.comp_def, hnames]

/-- The pairs of the map are those of the listed names. -/
theorem mem_pairs_ofWeights {p : NamePair} :
  p ∈ (ofWeights weights).pairs ↔ ∃ w ∈ weights, namesOf w = p.toSym2
  := by
  rw [ofWeights, mem_pairs_ofEntries, List.map_map, List.mem_map]
  apply exists_congr
  intro w
  apply and_congr_right'
  rw [← NamePair.toSym2_injective.eq_iff, Function.comp_apply, NamePair.toSym2_of, namesOf]

/-- The classes of the map are the listed names. -/
theorem mem_classes_ofWeights :
  x ∈ (ofWeights weights).classes ↔ ∃ w ∈ weights, x ∈ namesOf w
  := by
  rw [mem_classes]
  simp only [mem_pairs_ofWeights]
  constructor
  · rintro ⟨p, ⟨w, hw, hnames⟩, hx⟩
    use w, hw
    rw [hnames, NamePair.toSym2, Sym2.mem_iff]
    apply hx
  · rintro ⟨w, hw, hx⟩
    use NamePair.of w.1 w.2.1, ⟨w, hw, (NamePair.toSym2_of _ _).symm⟩
    apply NamePair.eq_first_or_eq_second_iff.mpr (Sym2.mem_iff.mp hx)

/-- The map has as many entries as there are different pairs in the list. -/
theorem size_ofWeights (weights : List (String × String × S)) :
  (ofWeights weights).size = (weights.map namesOf).toFinset.card
  := by
  have hnodup := (nodup_map_pair_rows (ofWeights weights)).map NamePair.toSym2_injective
  have hnames : (weights.map namesOf).toFinset
      = (((ofWeights weights).rows.map (·.pair)).map NamePair.toSym2).toFinset := by
    ext names
    simp only [List.mem_toFinset, List.mem_map]
    constructor
    · rintro ⟨w, hw, rfl⟩
      obtain ⟨r, hr, hpair⟩ := exists_mem_rows.mpr
        (mem_pairs_ofWeights.mpr ⟨w, hw, (NamePair.toSym2_of w.1 w.2.1).symm⟩)
      use r.pair, ⟨r, hr, rfl⟩
      rw [hpair, NamePair.toSym2_of, namesOf]
    · rintro ⟨p, ⟨r, hr, rfl⟩, rfl⟩
      apply mem_pairs_ofWeights.mp (exists_mem_rows.mp ⟨r, hr, rfl⟩)
  rw [hnames, List.toFinset_card_of_nodup hnodup, List.length_map, List.length_map, rows,
    List.length_map, Std.ExtTreeMap.length_toList, size]

/-! ### The order of the weights -/

/-- Without two weights for the same names, every weight is the last one for its names. -/
theorem lastFor?_eq_some_iff (h : (weights.map namesOf).Nodup) {names : Sym2 String} {weight : S} :
  lastFor? weights names = some weight ↔ ∃ w ∈ weights, namesOf w = names ∧ w.2.2 = weight
  := by
  rw [lastFor?_eq_find?, Option.map_eq_some_iff]
  constructor
  · rintro ⟨w, hw, rfl⟩
    use w, List.mem_reverse.mp (List.mem_of_find?_eq_some hw)
    use of_decide_eq_true (List.find?_some hw :)
  · rintro ⟨w, hw, rfl, rfl⟩
    cases hfind : weights.reverse.find? fun v => namesOf v = namesOf w with
    | none =>
      have hnone := List.find?_eq_none.mp hfind w (List.mem_reverse.mpr hw)
      apply absurd (decide_eq_true rfl) hnone
    | some v =>
      have hnames : namesOf v = namesOf w := of_decide_eq_true (List.find?_some hfind :)
      have hv := List.mem_reverse.mp (List.mem_of_find?_eq_some hfind)
      use v, rfl
      rw [List.inj_on_of_nodup_map h hv hw hnames]

/-- Where no pair is listed twice, the order of the list does not matter. -/
theorem lastFor?_perm (hperm : weights.Perm weights') (h : (weights.map namesOf).Nodup)
    (names : Sym2 String) :
  lastFor? weights names = lastFor? weights' names
  := by
  apply Option.ext
  intro weight
  rw [lastFor?_eq_some_iff h, lastFor?_eq_some_iff ((hperm.map namesOf).nodup_iff.mp h)]
  simp only [hperm.mem_iff]

/-- Lists with the same last weights make the same map. -/
theorem ofWeights_congr (h : ∀ names, lastFor? weights names = lastFor? weights' names) :
  ofWeights weights = ofWeights weights'
  := by
  have hpairs : (ofWeights weights).pairs = (ofWeights weights').pairs := by
    apply Std.ExtTreeMap.ext_getElem?
    intro p
    have hentry := entry?_ofWeights weights p.first p.second
    rw [h, ← entry?_ofWeights, entry?, entry?, NamePair.of_first_second] at hentry
    apply hentry
  apply congrArg₂ CouplingMap.mk hpairs rfl

/-! ### What the map holds -/

variable [Score S]

/-- A map holds the last of some weights for every two names, in either order of the names.  Two names
for which there is no weight weigh nothing. -/
structure HoldsLast (m : CouplingMap S) (weights : List (String × String × S)) : Prop where
  get_eq : ∀ x y, m.get x y = (lastFor? weights s(x, y)).getD Score.zero
  get_symm : ∀ x y, m.get x y = m.get y x
  mem_classes_iff : ∀ x, x ∈ m.classes ↔ ∃ w ∈ weights, x ∈ namesOf w
  size_eq : m.size = (weights.map namesOf).toFinset.card

/-- The map built from a list holds the last weight of every pair. -/
theorem holdsLast_ofWeights (weights : List (String × String × S)) :
  (ofWeights weights).HoldsLast weights
  := by
  constructor
  · intro x y
    rw [get, entry?_ofWeights]
    cases lastFor? weights s(x, y) with
    | none => rfl
    | some weight => rfl
  · apply get_comm
  · intro x
    apply mem_classes_ofWeights
  · apply size_ofWeights

/-- The map of some weights holds the last one for every two names.  If no two of them are for the same
names, their order matters neither to the map nor to what is computed from it. -/
theorem ofWeights_holds_last (weights : List (String × String × S)) :
  (ofWeights weights).HoldsLast weights
    ∧ ∀ weights', weights.Perm weights' → (weights.map namesOf).Nodup →
      ofWeights weights' = ofWeights weights
      ∧ cluster (ofWeights weights') = cluster (ofWeights weights)
      ∧ ∀ cut, modulesOfMerges (cluster (ofWeights weights')).merges (ofWeights weights') cut
        = modulesOfMerges (cluster (ofWeights weights)).merges (ofWeights weights) cut
  := by
  use holdsLast_ofWeights weights
  intro weights' hperm hnodup
  have hmap : ofWeights weights' = ofWeights weights := by
    apply ofWeights_congr
    intro names
    rw [lastFor?_perm hperm hnodup]
  rw [hmap]
  use rfl, rfl
  intro cut
  rfl

/-- Three weights in reverse, one of them for a class and itself. -/
theorem ofWeights_holds_last_in_reverse :
  let weights : List (String × String × Float) := [("B", "A", 0.5), ("C", "C", 0.25), ("B", "C", 0.25)]
  (weights.map namesOf).Nodup ∧ weights.Perm weights.reverse
    ∧ ofWeights weights.reverse = ofWeights weights
    ∧ (ofWeights weights.reverse).get "A" "B" = 0.5 ∧ (ofWeights weights.reverse).size = 3
  := by
  intro weights
  have hnodup : (weights.map namesOf).Nodup := by decide +kernel
  have hperm : weights.Perm weights.reverse := weights.reverse_perm.symm
  obtain ⟨hholds, hreordered⟩ := ofWeights_holds_last weights
  obtain ⟨hmap, -, -⟩ := hreordered weights.reverse hperm hnodup
  use hnodup, hperm, hmap
  rw [hmap, hholds.get_eq, hholds.size_eq]
  decide +kernel

end CouplingMap

end Cohesion

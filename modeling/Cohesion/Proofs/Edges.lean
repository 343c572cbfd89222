import Cohesion.Proofs.Amounts
import Cohesion.Proofs.CallCounts

/-!
# The edges of the graph of couplings

The edges of a coupling map are its pairs above a threshold, each of them once, sorted by descending
weight and then by name: `CouplingMap.mem_edges`, `CouplingMap.pairwise_edges`.  A higher threshold
only cuts off the end of the list, `CouplingMap.edges_prefix`.  In floating point the threshold
grows with the percentage in spite of rounding, and at a hundred percent it is not below any weight:
`CouplingMap.sorted_prefix_edges`.
-/

namespace Cohesion

/-! ### Sorting what passes a test -/

section Sorting

variable {α : Type} {p q : α → Bool} {before : α → α → Bool} {xs : List α}

/-- If the test fails for all that follows a failure, what passes it is an initial part. -/
theorem filter_prefix_of_pairwise (h : xs.Pairwise fun a b => q b → q a) :
  xs.filter q <+: xs
  := by
  induction xs with
  | nil => apply List.nil_prefix
  | cons x xs ih =>
    obtain ⟨hx, hxs⟩ := List.pairwise_cons.mp h
    rw [List.filter_cons]
    split
    · apply (List.prefix_cons_inj x).mpr (ih hxs)
    · rename_i hqx
      have hnone : xs.filter q = [] := by
        rw [List.filter_eq_nil_iff]
        intro y hy hqy
        apply hqx (hx y hy hqy)
      rw [hnone]
      apply List.nil_prefix

/-- A stricter test cuts off the end of the sorted list, if it holds of all that comes before
something of which it holds. -/
theorem mergeSort_filter_prefix (hsorted : ((xs.filter p).mergeSort before).Pairwise (before · ·))
    (hsorted' : ((xs.filter q).mergeSort before).Pairwise (before · ·))
    (hanti : ∀ a b, a ∈ xs → b ∈ xs → before a b → before b a → a = b)
    (hqp : ∀ a ∈ xs, q a → p a) (hq : ∀ a b, a ∈ xs → b ∈ xs → before a b → q b → q a) :
  (xs.filter q).mergeSort before <+: (xs.filter p).mergeSort before
  := by
  have hmem : ∀ a, a ∈ (xs.filter p).mergeSort before → a ∈ xs := by
    intro a ha
    apply List.mem_of_mem_filter (List.mem_mergeSort.mp ha)
  -- The order leaves no choice, so sorting first and filtering first come to the same.
  have hfilter : (xs.filter q).mergeSort before = ((xs.filter p).mergeSort before).filter q := by
    apply List.Perm.eq_of_pairwise _ hsorted' (hsorted.sublist List.filter_sublist)
    · have hperm := (List.mergeSort_perm (xs.filter p) before).filter q
      rw [List.filter_filter] at hperm
      have hboth : (xs.filter fun a => q a && p a) = xs.filter q := by
        apply List.filter_congr
        intro a ha
        rw [Bool.and_eq_left_iff_imp]
        apply hqp a ha
      rw [hboth] at hperm
      apply (List.mergeSort_perm _ _).trans hperm.symm
    · intro a b ha hb
      apply hanti a b
      · apply List.mem_of_mem_filter (List.mem_mergeSort.mp ha)
      · apply hmem b (List.mem_of_mem_filter hb)
  rw [hfilter]
  apply filter_prefix_of_pairwise
  apply hsorted.imp_of_mem
  intro a b ha hb
  apply hq a b (hmem a ha) (hmem b hb)

end Sorting

namespace NamePair

/-- Pairs are compared by their first names, and then by their second. -/
theorem compare_eq_lt_iff {p q : NamePair} :
  compare p q = .lt ↔ p.first < q.first ∨ p.first = q.first ∧ p.second < q.second
  := by
  rw [compare_eq, compareLex, Ordering.then_eq_lt, compareOn, compareOn,
    Std.LawfulEqCmp.compare_eq_iff_eq, compare_lt_iff_lt, compare_lt_iff_lt]

end NamePair

namespace Score

variable {S : Type} [Score S] {P : S → Prop}

/-- The maximum of comparable scores is comparable, and at least as great as each of them. -/
theorem IsTotalOn.foldl_max (h : IsTotalOn P) {xs : List S} {start : S} (hstart : P start)
    (hxs : ∀ x ∈ xs, P x) :
  P (xs.foldl max start) ∧ ∀ x ∈ start :: xs, le x (xs.foldl max start)
  := by
  have hrefl : ∀ x, P x → le x x := fun x hx => or_self_iff.mp (h.le_total hx hx)
  induction xs generalizing start with
  | nil =>
    use hstart
    intro x hx
    obtain rfl := List.mem_singleton.mp hx
    apply hrefl x hstart
  | cons y ys ih =>
    obtain ⟨hy, hys⟩ := List.forall_mem_cons.mp hxs
    obtain ⟨hmax, hstartMax, hyMax⟩ : P (max start y) ∧ le start (max start y)
        ∧ le y (max start y) := by
      rw [max]
      split
      · rename_i hle
        use hy, hle, hrefl y hy
      · rename_i hnle
        use hstart, hrefl start hstart, (h.le_total hstart hy).resolve_left hnle
    obtain ⟨hfold, hle⟩ := ih hmax hys
    obtain ⟨hmaxFold, hysFold⟩ := List.forall_mem_cons.mp hle
    use hfold
    rw [List.foldl_cons, List.forall_mem_cons, List.forall_mem_cons]
    use h.le_trans hstart hmax hfold hstartMax hmaxFold
    use h.le_trans hy hmax hfold hyMax hmaxFold

end Score

namespace CouplingMap

variable {S : Type} [Score S] {m : CouplingMap S} {p q : S} {P : S → Prop} {r s : CouplingRow S}

/-! ### The rows that are edges -/

/-- The edges are the rows that weigh anything, and more than the threshold. -/
theorem mem_edges :
  r ∈ m.edges p ↔ r ∈ m.rows ∧ Score.lt Score.zero r.weight
    ∧ Score.lt (Score.percentOf p m.maxWeight) r.weight
  := by rw [edges, List.mem_mergeSort, List.mem_filter, Bool.and_eq_true]

/-- No pair is an edge twice. -/
theorem nodup_map_pair_edges (m : CouplingMap S) (p : S) :
  ((m.edges p).map (·.pair)).Nodup
  := by
  rw [edges, ((List.mergeSort_perm _ _).map _).nodup_iff]
  apply List.Nodup.sublist _ (nodup_map_pair_rows m)
  apply List.filter_sublist.map

/-! ### The order of the edges -/

theorem heavierFirst_eq :
  heavierFirst (S := S) = Score.higherFirst (·.weight) (compareOn (·.pair))
  := by
  funext r s
  rw [heavierFirst, Score.higherFirst, compareOn]
  cases Score.compare s.weight r.weight with
  | lt | eq | gt => rfl

/-- A row comes before another when it is heavier, or as heavy and not behind it by its pair. -/
theorem heavierFirst_iff (h : Score.IsTotalOn P) (hr : P r.weight) (hs : P s.weight) :
  heavierFirst r s ↔ Score.lt s.weight r.weight
    ∨ (Score.le r.weight s.weight ∧ Score.le s.weight r.weight) ∧ (compare r.pair s.pair).isLE
  := by
  rw [heavierFirst_eq]
  apply Score.higherFirst_iff h hr hs

/-- A row that comes after another is at most as heavy. -/
theorem weight_le_of_heavierFirst (h : Score.IsTotalOn P) (hr : P r.weight) (hs : P s.weight)
    (hfirst : heavierFirst r s) :
  Score.le s.weight r.weight
  := by
  obtain hlt | ⟨⟨-, hle⟩, -⟩ := (heavierFirst_iff h hr hs).mp hfirst
  · apply h.le_of_lt hs hr hlt
  · apply hle

variable (h : Score.IsTotalOn P) (hm : ∀ r ∈ m.rows, P r.weight)
include h hm

/-- Two rows of which each may come first are one. -/
theorem eq_of_heavierFirst (hr : r ∈ m.rows) (hs : s ∈ m.rows) (hrs : heavierFirst r s)
    (hsr : heavierFirst s r) :
  r = s
  := by
  have hr' := hm r hr
  have hs' := hm s hs
  rw [heavierFirst_iff h hr' hs'] at hrs
  rw [heavierFirst_iff h hs' hr'] at hsr
  apply List.inj_on_of_nodup_map (nodup_map_pair_rows m) hr hs
  obtain hlt | ⟨⟨hle, hge⟩, hpair⟩ := hrs
  · obtain hlt' | ⟨⟨-, hle⟩, -⟩ := hsr
    · apply absurd hlt' (h.lt_asymm hs' hr' hlt)
    · apply absurd hle ((h.lt_iff hs' hr').mp hlt)
  · obtain hlt' | ⟨-, hpair'⟩ := hsr
    · apply absurd hge ((h.lt_iff hr' hs').mp hlt')
    · have heq : compare r.pair s.pair = .eq := Std.OrientedCmp.isLE_antisymm hpair hpair'
      apply Std.LawfulEqCmp.compare_eq_iff_eq.mp heq

/-- Sorting rows of the map puts every row behind those that come before it. -/
theorem pairwise_mergeSort_rows {rows : List (CouplingRow S)} (hrows : rows ⊆ m.rows) :
  (rows.mergeSort heavierFirst).Pairwise fun r s => heavierFirst r s
  := by
  rw [heavierFirst_eq]
  apply Score.pairwise_mergeSort_higherFirst h
  intro r hr
  apply hm r (hrows hr)

/-- Of two edges the heavier one comes first, and of two equally heavy ones that whose names are
smaller. -/
theorem pairwise_edges (p : S) :
  (m.edges p).Pairwise fun r s => Score.lt s.weight r.weight
    ∨ (Score.le r.weight s.weight ∧ Score.le s.weight r.weight) ∧ compare r.pair s.pair = .lt
  := by
  have hsorted : (m.edges p).Pairwise fun r s => heavierFirst r s :=
    pairwise_mergeSort_rows h hm (List.filter_subset_self _)
  have hdistinct := List.pairwise_map.mp (nodup_map_pair_edges m p)
  apply (hsorted.and hdistinct).imp_of_mem
  rintro r s hr hs ⟨hfirst, hne⟩
  rw [heavierFirst_iff h (hm r (mem_edges.mp hr).1) (hm s (mem_edges.mp hs).1),
    Ordering.isLE_iff_eq_lt_or_eq_eq] at hfirst
  obtain hlt | ⟨htie, hlt | heq⟩ := hfirst
  · apply Or.inl hlt
  · apply Or.inr ⟨htie, hlt⟩
  · apply absurd (Std.LawfulEqCmp.compare_eq_iff_eq.mp heq) hne

/-! ### The threshold -/

variable (hzero : P Score.zero)
include hzero

/-- The greatest weight is comparable with every other, like the weights it is taken from. -/
theorem maxWeight_comparable :
  P m.maxWeight
  := by
  apply (h.foldl_max hzero _).1
  apply List.forall_mem_map.mpr hm

/-- No weight is greater than the greatest one, which is not below zero. -/
theorem weight_le_maxWeight :
  Score.le Score.zero m.maxWeight ∧ ∀ r ∈ m.rows, Score.le r.weight m.maxWeight
  := by
  obtain ⟨-, hle⟩ := h.foldl_max hzero (List.forall_mem_map.mpr hm)
  obtain ⟨hstart, hweights⟩ := List.forall_mem_cons.mp hle
  use hstart, List.forall_mem_map.mp hweights

/-- Nothing is heavier than a threshold of all of the greatest weight. -/
theorem edges_eq_nil (hq : P (Score.percentOf q m.maxWeight))
    (hle : Score.le m.maxWeight (Score.percentOf q m.maxWeight)) :
  m.edges q = []
  := by
  rw [List.eq_nil_iff_forall_not_mem]
  intro r hr
  obtain ⟨hrow, -, hlt⟩ := mem_edges.mp hr
  apply (h.lt_iff hq (hm r hrow)).mp hlt
  apply h.le_trans (hm r hrow) (maxWeight_comparable h hm hzero) hq _ hle
  apply (weight_le_maxWeight h hm hzero).2 r hrow

/-- A higher threshold cuts off the end of the list. -/
theorem edges_prefix (hp : P (Score.percentOf p m.maxWeight))
    (hq : P (Score.percentOf q m.maxWeight))
    (hle : Score.le (Score.percentOf p m.maxWeight) (Score.percentOf q m.maxWeight)) :
  m.edges q <+: m.edges p
  := by
  apply mergeSort_filter_prefix
  · apply pairwise_mergeSort_rows h hm (List.filter_subset_self _)
  · apply pairwise_mergeSort_rows h hm (List.filter_subset_self _)
  · intro r s
    apply eq_of_heavierFirst h hm
  · intro r hr hpass
    rw [Bool.and_eq_true] at hpass ⊢
    use hpass.1
    apply h.lt_of_le_of_lt hp hq (hm r hr) hle hpass.2
  · intro r s hr hs hfirst hpass
    rw [Bool.and_eq_true] at hpass ⊢
    have hweights := weight_le_of_heavierFirst h (hm r hr) (hm s hs) hfirst
    use h.lt_of_lt_of_le hzero (hm s hs) (hm r hr) hpass.1 hweights
    apply h.lt_of_lt_of_le hq (hm s hs) (hm r hr) hpass.2 hweights

end CouplingMap

/-! ### Percentages in floating point -/

namespace FloatOrder

variable {p q a : Float}

theorem isFiniteAmount_zero :
  IsFiniteAmount 0.0
  := isAmount_zero.isFiniteAmount (by decide)

theorem one_le_hundred :
  (1.0 : Float) ≤ 100.0
  := by decide

theorem isFiniteAmount_hundred :
  IsFiniteAmount 100.0
  := by
  constructor
  · rfl
  · apply float_le_trans (isAmount_one.isFiniteAmount (by decide)).zero_le one_le_hundred

/-- The part of an amount grows with the percentage, in spite of rounding. -/
theorem IsFiniteAmount.percentOf_le (hp : IsFiniteAmount p) (hq : IsFiniteAmount q)
    (ha : IsFiniteAmount a) (h : p ≤ q) :
  Score.percentOf p a ≤ Score.percentOf q a
  := by
  apply IsFiniteAmount.mul_le_mul (hp.div isFiniteAmount_hundred one_le_hundred)
    (hq.div isFiniteAmount_hundred one_le_hundred) ha
  apply hp.div_le_div hq isFiniteAmount_hundred one_le_hundred h

/-- A hundred percent of an amount is all of it. -/
theorem IsFiniteAmount.le_percentOf (hq : IsFiniteAmount q) (ha : IsFiniteAmount a)
    (h : 100.0 ≤ q) :
  a ≤ Score.percentOf q a
  := by
  have hall : (100.0 / 100.0 : Float) = 1.0 := by decide +kernel
  apply float_le_trans _ (isFiniteAmount_hundred.percentOf_le hq ha h)
  change a ≤ 100.0 / 100.0 * a
  rw [hall]
  apply ha.le_one_mul

/-- A percentage of a finite amount is a number. -/
theorem IsFiniteAmount.isNaN_percentOf (hp : IsFiniteAmount p) (ha : IsFiniteAmount a) :
  (Score.percentOf p a).isNaN = false
  := IsFiniteAmount.isNaN_mul (hp.div isFiniteAmount_hundred one_le_hundred) ha

theorem isNaN_of_isFinite (h : a.isFinite) :
  a.isNaN = false
  := by
  change a.toModel.unpack.isFinite = true at h
  change a.toModel.unpack.isNaN = false
  cases hunpack : a.toModel.unpack with
  | notANumber =>
    rw [hunpack] at h
    cases h
  | infinity | zero | finite => rfl

end FloatOrder

open FloatOrder

namespace CouplingMap

/-- The greatest of finite weights is finite. -/
theorem isFiniteAmount_maxWeight {m : CouplingMap Float} (hm : ∀ r ∈ m.rows, r.weight.isFinite) :
  IsFiniteAmount m.maxWeight
  := by
  have htotal : Score.IsTotalOn fun x : Float => x.isFinite := by
    constructor
    · intro a b ha hb
      apply Score.isTotalOn_float.le_total (isNaN_of_isFinite ha) (isNaN_of_isFinite hb)
    · intro a b c ha hb hc
      apply Score.isTotalOn_float.le_trans (isNaN_of_isFinite ha) (isNaN_of_isFinite hb)
        (isNaN_of_isFinite hc)
    · intro a b ha hb
      apply Score.isTotalOn_float.lt_iff (isNaN_of_isFinite ha) (isNaN_of_isFinite hb)
  have hzero : (Score.zero : Float).isFinite := isFiniteAmount_zero.isFinite
  constructor
  · apply maxWeight_comparable htotal hm hzero
  · apply of_decide_eq_true (weight_le_maxWeight htotal hm hzero).1

/-- Of a map of finite weights the edges at a percentage are the pairs heavier than nothing and than
so much of the heaviest one, each of them once, the heavier ones first and equally heavy ones in the
order of their names.  A greater percentage only cuts off the end of the list, and a hundred percent
leaves nothing. -/
theorem sorted_prefix_edges {m : CouplingMap Float} {p q : Float}
    (hm : ∀ r ∈ m.rows, r.weight.isFinite) (hp : p.isFinite) (hq : q.isFinite) (hzero : 0.0 ≤ p)
    (hpq : p ≤ q) :
  (∀ r, r ∈ m.edges p ↔ r ∈ m.rows ∧ 0.0 < r.weight ∧ p / 100.0 * m.maxWeight < r.weight)
    ∧ ((m.edges p).map (·.pair)).Nodup
    ∧ ((m.edges p).Pairwise fun r s => s.weight < r.weight
        ∨ r.weight == s.weight ∧ (r.pair.first < s.pair.first
          ∨ r.pair.first = s.pair.first ∧ r.pair.second < s.pair.second))
    ∧ m.edges q <+: m.edges p
    ∧ (100.0 ≤ q → m.edges q = [])
  := by
  have hmax := isFiniteAmount_maxWeight hm
  have hpAmount : IsFiniteAmount p := ⟨hp, hzero⟩
  have hqAmount : IsFiniteAmount q := ⟨hq, float_le_trans hzero hpq⟩
  have hnumbers : ∀ r ∈ m.rows, r.weight.isNaN = false :=
    fun r hr => isNaN_of_isFinite (hm r hr)
  have hnumber : (Score.zero : Float).isNaN = false :=
    isNaN_of_isFinite isFiniteAmount_zero.isFinite
  have htotal := Score.isTotalOn_float
  refine ⟨?_, nodup_map_pair_edges m p, ?_, ?_, ?_⟩
  · intro r
    rw [mem_edges]
    simp only [Score.lt, decide_eq_true_eq]
    rfl
  · apply (pairwise_edges htotal hnumbers p).imp_of_mem
    intro r s hr hs horder
    have hr' := hnumbers r (mem_edges.mp hr).1
    have hs' := hnumbers s (mem_edges.mp hs).1
    rw [NamePair.compare_eq_lt_iff] at horder
    rw [beq_iff_le_and_le hr' hs']
    simpa only [Score.lt, Score.le, decide_eq_true_eq] using horder
  · apply edges_prefix htotal hnumbers hnumber (hpAmount.isNaN_percentOf hmax)
      (hqAmount.isNaN_percentOf hmax)
    -- A greater percentage gives a threshold that is not lower, also after rounding.
    apply decide_eq_true (hpAmount.percentOf_le hqAmount hmax hpq)
  · intro hall
    apply edges_eq_nil htotal hnumbers hnumber (hqAmount.isNaN_percentOf hmax)
    apply decide_eq_true (hqAmount.le_percentOf hmax hall)

theorem sorted_prefix_edges_of_four :
  let m := ofWeights [("A", "B", 0.6), ("B", "C", 0.3), ("A", "C", 0.1), ("C", "D", 0.0)]
  m.edges 50.0 <+: m.edges 0.0 ∧ m.edges 100.0 = []
  := by
  intro m
  have hm : ∀ r ∈ m.rows, r.weight.isFinite := by decide +kernel
  obtain ⟨hfinite, hself, hle, hall⟩ : (∀ p ∈ [0.0, 50.0, (100.0 : Float)], p.isFinite)
      ∧ (100.0 : Float) ≤ 100.0 ∧ (0.0 : Float) ≤ 50.0 ∧ (50.0 : Float) ≤ 100.0 := by decide
  simp only [List.forall_mem_cons] at hfinite
  obtain ⟨hfinite₀, hfinite₁, hfinite₂, -⟩ := hfinite
  have hhalf := sorted_prefix_edges hm hfinite₀ hfinite₁ isFiniteAmount_zero.zero_le hle
  have hwhole := sorted_prefix_edges hm hfinite₁ hfinite₂ hle hall
  use hhalf.2.2.2.1, hwhole.2.2.2.2 hself

end CouplingMap

end Cohesion

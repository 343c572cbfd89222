import Cohesion.Proofs.CrossCalls
import Mathlib.Algebra.Field.Rat
import Mathlib.Algebra.Order.Field.Basic
import Mathlib.Algebra.Order.Ring.Rat

/-!
# The calls behind the couplings

Two different classes of a list have an entry in its coupling map, which holds the calls of the one
on the other in both directions and their share of all: `CouplingMap.getElem?_pairs_ofFacts`.  So the
map is determined by the first class of each name and by the number of all calls.  Every cross call
is counted in one entry, and the entries count nothing else: `CouplingMap.ofFacts_counts_crossCalls`.
-/

namespace Cohesion

/-! ### Rows of traffic -/

/-- In a list without repetitions no pair of names stands twice. -/
theorem nodup_map_of_pairsOf {names : List String} (h : names.Nodup) :
  ((pairsOf names).map fun p => NamePair.of p.1 p.2).Nodup
  := by
  induction names with
  | nil => apply List.nodup_nil
  | cons x xs ih =>
    obtain ⟨hx, hxs⟩ := List.nodup_cons.mp h
    rw [pairsOf, List.map_append, List.map_map]
    apply List.Nodup.append _ (ih hxs)
    · intro p hp hp'
      obtain ⟨y, hy, rfl⟩ := List.mem_map.mp hp
      obtain ⟨⟨z, w⟩, hzw, heq⟩ := List.mem_map.mp hp'
      obtain ⟨hz, hw⟩ := mem_of_mem_pairsOf hzw
      rcases NamePair.of_eq_of_iff.mp heq with ⟨rfl, -⟩ | ⟨-, rfl⟩
      · apply hx hz
      · apply hx hw
    · apply hxs.map
      intro y z hyz
      rcases NamePair.of_eq_of_iff.mp hyz with ⟨-, hyz⟩ | ⟨hxz, hyx⟩
      · apply hyz
      · apply hyx.trans hxz

namespace ClassFacts

variable {facts : List ClassFacts} {c d : ClassFacts} {x y : String}

/-- No pair of classes has two rows of traffic. -/
theorem nodup_keys_trafficRows (facts : List ClassFacts) :
  ((trafficRows facts).map Prod.fst).Nodup
  := by
  have hnames : ((firstByName facts).map ClassFacts.name).Nodup :=
    List.pairwise_map.mpr (pairwise_firstByName facts)
  have h := nodup_map_of_pairsOf hnames
  rw [pairsOf_map, List.map_map] at h
  rw [trafficRows_eq, List.map_map]
  apply h

/-- Every two classes have a row with the traffic between them. -/
theorem mem_trafficRows (hc : named? facts x = some c) (hd : named? facts y = some d)
    (hne : x ≠ y) :
  (NamePair.of x y, c.traffic d) ∈ trafficRows facts
  := by
  obtain rfl := name_of_named? hc
  obtain rfl := name_of_named? hd
  have hcd : c ≠ d := by
    rintro rfl
    apply hne rfl
  rw [trafficRows_eq, List.mem_map]
  rcases mem_pairsOf_or_mem_pairsOf (mem_firstByName_of_named? hc) (mem_firstByName_of_named? hd)
    hcd with h | h
  · use (c, d), h
  · use (d, c), h
    rw [NamePair.of_comm, traffic_comm]

end ClassFacts

namespace CouplingMap

open ClassFacts

variable {S : Type}

/-! ### Entries -/

/-- Of several entries for one pair the last counts. -/
theorem getElem?_foldl_insert (entries : List (NamePair × Coupling S))
    (pairs : Std.ExtTreeMap NamePair (Coupling S)) (p : NamePair) :
  (entries.foldl (fun pairs e => pairs.insert e.1 e.2) pairs)[p]?
    = ((entries.reverse.find? (·.1 = p)).map Prod.snd).or pairs[p]?
  := by
  induction entries generalizing pairs with
  | nil => rfl
  | cons e entries ih =>
    rw [List.foldl_cons, ih, Std.ExtTreeMap.getElem?_insert, List.reverse_cons, List.find?_append,
      List.find?_singleton]
    simp only [Std.LawfulEqCmp.compare_eq_iff_eq, decide_eq_true_iff]
    cases entries.reverse.find? (·.1 = p) with
    | some e' => rfl
    | none =>
      split
      · rfl
      · rfl

/-- If no pair has two entries, every entry counts. -/
theorem getElem?_pairs_ofEntries {entries : List (NamePair × Coupling S)}
    (h : (entries.map Prod.fst).Nodup) {p : NamePair} {c : Coupling S} (hmem : (p, c) ∈ entries)
    (totalCalls : Nat) :
  (ofEntries entries totalCalls).pairs[p]? = some c
  := by
  have hfind : entries.reverse.find? (·.1 = p) = some (p, c) := by
    cases hfind : entries.reverse.find? (·.1 = p) with
    | none =>
      have hnone := List.find?_eq_none.mp hfind (p, c) (List.mem_reverse.mpr hmem)
      apply absurd (decide_eq_true rfl) hnone
    | some e =>
      have hkey : e.1 = p := by simpa using List.find?_some hfind
      have he := List.mem_reverse.mp (List.mem_of_find?_eq_some hfind)
      rw [List.inj_on_of_nodup_map h he hmem hkey]
  rw [ofEntries, getElem?_foldl_insert, hfind]
  rfl

variable [Score S] {facts : List ClassFacts} {x y : String} {c d : ClassFacts}

/-- Two classes have an entry with their traffic, weighed by its share of all calls. -/
theorem getElem?_pairs_ofFacts_of_named? (hc : named? facts x = some c)
    (hd : named? facts y = some d) (hne : x ≠ y) :
  (ofFacts facts : CouplingMap S).pairs[NamePair.of x y]?
    = some ⟨c.traffic d, Score.share (c.traffic d) (ofFacts facts : CouplingMap S).totalCalls⟩
  := by
  apply getElem?_pairs_ofEntries
  · rw [List.map_map]
    apply nodup_keys_trafficRows
  · apply List.mem_map_of_mem (mem_trafficRows hc hd hne)

/-- The entry of a pair is that of its two classes. -/
theorem exists_named?_of_mem_pairs {p : NamePair} (hp : p ∈ (ofFacts facts : CouplingMap S).pairs) :
  ∃ c d, named? facts p.first = some c ∧ named? facts p.second = some d ∧ p.first ≠ p.second
    ∧ (ofFacts facts : CouplingMap S).pairs[p]?
      = some ⟨c.traffic d, Score.share (c.traffic d) (ofFacts facts : CouplingMap S).totalCalls⟩
  := by
  obtain ⟨hne, hfirst, hsecond⟩ := mem_pairs_ofFacts.mp hp
  obtain ⟨c, hc⟩ := exists_named?_iff.mpr hfirst
  obtain ⟨d, hd⟩ := exists_named?_iff.mpr hsecond
  have hentry := getElem?_pairs_ofFacts_of_named? (S := S) hc hd hne
  rw [NamePair.of_first_second] at hentry
  use c, d

/-- The entries of a map of facts, looked up by pair. -/
theorem getElem?_pairs_ofFacts (facts : List ClassFacts) (p : NamePair) :
  (ofFacts facts : CouplingMap S).pairs[p]?
    = if p.first = p.second then none
      else (named? facts p.first).bind fun c => (named? facts p.second).map fun d =>
        ⟨c.traffic d, Score.share (c.traffic d) (ofFacts facts : CouplingMap S).totalCalls⟩
  := by
  by_cases hp : p ∈ (ofFacts facts : CouplingMap S).pairs
  · obtain ⟨c, d, hc, hd, hne, hentry⟩ := exists_named?_of_mem_pairs hp
    rw [hentry, if_neg hne, hc, hd]
    rfl
  · rw [Std.ExtTreeMap.getElem?_eq_none hp]
    split
    · rfl
    · rename_i hne
      cases hc : named? facts p.first with
      | none => rfl
      | some c =>
        cases hd : named? facts p.second with
        | none => rfl
        | some d =>
          have hfirst := exists_named?_iff.mp ⟨c, hc⟩
          have hsecond := exists_named?_iff.mp ⟨d, hd⟩
          apply absurd (mem_pairs_ofFacts.mpr ⟨hne, hfirst, hsecond⟩) hp

/-- The entry of two classes holds the calls of the one on the other in both directions. -/
theorem entry?_ofFacts (hc : named? facts x = some c) (hd : named? facts y = some d) (hne : x ≠ y) :
  CouplingMap.entry? (ofFacts facts : CouplingMap S) x y
    = some ⟨c.callsTo y + d.callsTo x,
        Score.share (c.callsTo y + d.callsTo x) (ofFacts facts : CouplingMap S).totalCalls⟩
  := by
  rw [CouplingMap.entry?, getElem?_pairs_ofFacts_of_named? hc hd hne, traffic, name_of_named? hc,
    name_of_named? hd]

/-- Two names have an entry when they are different names of the list. -/
theorem exists_entry?_ofFacts_iff :
  (∃ e, CouplingMap.entry? (ofFacts facts : CouplingMap S) x y = some e)
    ↔ x ≠ y ∧ x ∈ facts.map ClassFacts.name ∧ y ∈ facts.map ClassFacts.name
  := by
  constructor
  · rintro ⟨e, he⟩
    have hpair : NamePair.of x y ∈ (ofFacts facts : CouplingMap S).pairs := by
      rw [Std.ExtTreeMap.mem_iff_isSome_getElem?, ← entry?, he]
      rfl
    rw [NamePair.of] at hpair
    split at hpair
    · apply mem_pairs_ofFacts.mp hpair
    · obtain ⟨hne, hy, hx⟩ := mem_pairs_ofFacts.mp hpair
      use hne.symm
  · rintro ⟨hne, hx, hy⟩
    obtain ⟨c, hc⟩ := exists_named?_iff.mpr hx
    obtain ⟨d, hd⟩ := exists_named?_iff.mpr hy
    apply Exists.intro
    apply entry?_ofFacts hc hd hne

/-! ### Totals -/

/-- The total of the map counts the calls between different classes of the project. -/
theorem totalCalls_ofFacts (facts : List ClassFacts) :
  (ofFacts facts : CouplingMap S).totalCalls = (crossCalls facts).length
  := by
  have hcounts : (trafficRows facts).map Prod.snd
      = ((trafficRows facts).map Prod.fst).map fun p =>
        (crossCalls facts).countP fun call => call.pair = p := by
    rw [trafficRows_eq, List.map_map, List.map_map, List.map_map]
    apply List.map_congr_left
    rintro ⟨c, d⟩ hcd
    obtain ⟨hc, hd⟩ := mem_of_mem_pairsOf hcd
    have hne := pairwise_iff_forall_mem_pairsOf.mp (pairwise_firstByName facts) c d hcd
    symm
    apply countP_pair_crossCalls (mem_firstByName_iff.mp hc) (mem_firstByName_iff.mp hd) hne
  have htotal : (ofFacts facts : CouplingMap S).totalCalls
      = total ((trafficRows facts).map Prod.snd) := rfl
  rw [htotal, hcounts, total_countP_crossCalls (nodup_keys_trafficRows facts)]
  intro call hcall
  obtain ⟨hne, ⟨c, hc⟩, d, hd⟩ := exists_named?_of_mem_crossCalls hcall
  apply List.mem_map_of_mem (mem_trafficRows hc hd hne)

omit [Score S] in
/-- No pair of names has two rows in a map. -/
theorem nodup_map_pair_rows (m : CouplingMap S) :
  (m.rows.map (·.pair)).Nodup
  := by
  rw [rows, List.map_map]
  apply List.pairwise_map.mpr
  apply m.pairs.distinct_keys_toList.imp
  intro e e' hne heq
  apply hne
  rw [Std.LawfulEqCmp.compare_eq_iff_eq]
  apply heq

/-- A row counts the cross calls of its pair and weighs them by their share. -/
theorem calls_of_mem_rows_ofFacts {r : CouplingRow S}
    (h : r ∈ (ofFacts facts : CouplingMap S).rows) :
  r.calls = (crossCalls facts).countP (fun call => call.pair = r.pair)
    ∧ r.weight = Score.share r.calls (ofFacts facts : CouplingMap S).totalCalls
  := by
  have hrow := mem_rows.mp h
  obtain ⟨c, d, hc, hd, hne, hentry⟩ := exists_named?_of_mem_pairs (exists_mem_rows.mp ⟨r, h, rfl⟩)
  have hcount := countP_pair_crossCalls hc hd hne
  rw [NamePair.of_first_second] at hcount
  rw [hrow, Option.some.injEq, Coupling.mk.injEq, ← hcount] at hentry
  obtain ⟨hcalls, hweight⟩ := hentry
  use hcalls
  rw [hweight, hcalls]

/-- A cross call has one row, that of its pair. -/
theorem existsUnique_row_ofFacts {call : CrossCall} (h : call ∈ crossCalls facts) :
  ∃! r, r ∈ (ofFacts facts : CouplingMap S).rows ∧ r.pair = call.pair
  := by
  obtain ⟨hne, ⟨c, hc⟩, d, hd⟩ := exists_named?_of_mem_crossCalls h
  have hpair : call.pair ∈ (ofFacts facts : CouplingMap S).pairs := by
    rw [Std.ExtTreeMap.mem_iff_isSome_getElem?, CrossCall.pair,
      getElem?_pairs_ofFacts_of_named? hc hd hne]
    rfl
  obtain ⟨r, hr, heq⟩ := exists_mem_rows.mpr hpair
  use r, ⟨hr, heq⟩
  rintro r' ⟨hr', heq'⟩
  apply List.inj_on_of_nodup_map (nodup_map_pair_rows _) hr' hr (heq'.trans heq.symm)

/-- The rows together hold all calls. -/
theorem total_calls_rows_ofFacts (facts : List ClassFacts) :
  total ((ofFacts facts : CouplingMap S).rows.map (·.calls))
    = (ofFacts facts : CouplingMap S).totalCalls
  := by
  have hcounts : (ofFacts facts : CouplingMap S).rows.map (·.calls)
      = ((ofFacts facts : CouplingMap S).rows.map (·.pair)).map fun p =>
        (crossCalls facts).countP fun call => call.pair = p := by
    rw [List.map_map]
    apply List.map_congr_left
    intro r hr
    apply (calls_of_mem_rows_ofFacts hr).1
  rw [hcounts, totalCalls_ofFacts, total_countP_crossCalls (nodup_map_pair_rows _)]
  intro call hcall
  obtain ⟨r, ⟨hr, heq⟩, -⟩ := existsUnique_row_ofFacts (S := S) hcall
  rw [← heq]
  apply List.mem_map_of_mem hr

/-- Without rounding a share is a quotient, also of nothing. -/
theorem share_eq_div (part totalCalls : Nat) :
  (Score.share part totalCalls : ℚ) = part / totalCalls
  := by
  rw [Score.share]
  split
  · rename_i hzero
    rw [hzero, Nat.cast_zero, div_zero]
    rfl
  · rfl

/-- The shares of a total are together the share of the sum. -/
theorem sum_map_ratio (ns : List Nat) (totalCalls : Nat) :
  (ns.map fun n : Nat => (n : ℚ) / totalCalls).sum = (total ns : ℚ) / totalCalls
  := by
  induction ns with
  | nil => simp [total]
  | cons n ns ih => rw [List.map_cons, List.sum_cons, ih, total, Nat.cast_add, add_div]

/-- A map counts the calls between some classes: every two different names have an entry, with the
calls of either class on the other, which are the cross calls of the pair.  Every cross call is in
one entry, so they all make the total, and no entry holds more. -/
structure CountsCalls (m : CouplingMap S) (facts : List ClassFacts) : Prop where
  entry_iff : ∀ x y, (∃ e, m.entry? x y = some e)
    ↔ x ≠ y ∧ x ∈ facts.map ClassFacts.name ∧ y ∈ facts.map ClassFacts.name
  entry_calls : ∀ x y e, m.entry? x y = some e → ∃ c d, named? facts x = some c
    ∧ named? facts y = some d ∧ e.calls = c.callsTo y + d.callsTo x
  row_calls : ∀ r ∈ m.rows,
    r.calls = (crossCalls facts).countP (fun call => call.pair = r.pair)
  row_unique : ∀ call ∈ crossCalls facts, ∃! r, r ∈ m.rows ∧ r.pair = call.pair
  totalCalls_eq_total : m.totalCalls = total (m.rows.map (·.calls))
  totalCalls_eq_length : m.totalCalls = (crossCalls facts).length
  calls_le : ∀ r ∈ m.rows, r.calls ≤ m.totalCalls

/-- The map built from facts counts their cross calls. -/
theorem countsCalls_ofFacts (facts : List ClassFacts) :
  (ofFacts facts : CouplingMap S).CountsCalls facts
  := by
  constructor
  · intro x y
    apply exists_entry?_ofFacts_iff
  · intro x y e he
    obtain ⟨hne, hx, hy⟩ := exists_entry?_ofFacts_iff.mp ⟨e, he⟩
    obtain ⟨c, hc⟩ := exists_named?_iff.mpr hx
    obtain ⟨d, hd⟩ := exists_named?_iff.mpr hy
    rw [entry?_ofFacts hc hd hne] at he
    cases he
    use c, d, hc, hd
  · intro r hr
    apply (calls_of_mem_rows_ofFacts hr).1
  · intro call hcall
    apply existsUnique_row_ofFacts hcall
  · rw [total_calls_rows_ofFacts]
  · apply totalCalls_ofFacts
  · intro r hr
    rw [(calls_of_mem_rows_ofFacts hr).1, totalCalls_ofFacts]
    apply List.countP_le_length

/-- The couplings of some classes count the calls between them.  The weight of a pair is its share of
all calls, and nothing if there are none; without rounding the weights are between zero and one, and
one together if there are any calls. -/
theorem ofFacts_counts_crossCalls (facts : List ClassFacts) :
  let rounded : CouplingMap Float := ofFacts facts
  let exact : CouplingMap ℚ := ofFacts facts
  rounded.CountsCalls facts
    ∧ (∀ r ∈ rounded.rows, r.weight = if rounded.totalCalls = 0 then 0.0
      else Float.ofNat r.calls / Float.ofNat rounded.totalCalls)
    ∧ exact.CountsCalls facts
    ∧ (∀ r ∈ exact.rows, r.weight = (r.calls : ℚ) / exact.totalCalls
      ∧ 0 ≤ r.weight ∧ r.weight ≤ 1)
    ∧ (0 < exact.totalCalls → (exact.rows.map (·.weight)).sum = 1)
  := by
  intro rounded exact
  have hexact : exact.CountsCalls facts := countsCalls_ofFacts facts
  have hweight : ∀ r ∈ exact.rows, r.weight = (r.calls : ℚ) / exact.totalCalls := by
    intro r hr
    rw [(calls_of_mem_rows_ofFacts hr).2, share_eq_div]
  use countsCalls_ofFacts facts
  constructor
  · intro r hr
    apply (calls_of_mem_rows_ofFacts hr).2
  use hexact
  constructor
  · intro r hr
    use hweight r hr
    rw [hweight r hr]
    constructor
    · apply div_nonneg (Nat.cast_nonneg _) (Nat.cast_nonneg _)
    · apply div_le_one_of_le₀ (Nat.cast_le.mpr (hexact.calls_le r hr)) (Nat.cast_nonneg _)
  · intro hpos
    have hsum := sum_map_ratio (exact.rows.map (·.calls)) exact.totalCalls
    rw [← hexact.totalCalls_eq_total, div_self (Nat.cast_ne_zero.mpr hpos.ne'), List.map_map]
      at hsum
    rw [← hsum]
    congr 1
    apply List.map_congr_left hweight

/-- Calls of a class to itself, calls on unknown receivers and a second class of a name do not
count. -/
theorem ofFacts_counts_crossCalls_named_twice :
  let facts := [ClassFacts.calling "B" ["A", "B", "String"], .calling "A" ["B", "C", "B"],
    .calling "B" ["A", "A"], .calling "C" ["<?>"]]
  let exact : CouplingMap ℚ := ofFacts facts
  exact.totalCalls = 4 ∧ (exact.rows.map (·.weight)).sum = 1
  := by
  intro facts exact
  have htotal : exact.totalCalls = 4 := by decide +kernel
  obtain ⟨-, -, -, -, hsum⟩ := ofFacts_counts_crossCalls facts
  use htotal, hsum (by rw [htotal]; decide)

end CouplingMap

end Cohesion

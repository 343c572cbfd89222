import Cohesion.Coupling.Traffic
import Cohesion.Proofs.Coupling
import Cohesion.Proofs.Pairs

/-!
# The pairs that have traffic

What is looked up in the tallies of two classes is the number of calls of either one on the other:
`ClassFacts.trafficRows_eq`.  Every two different names of a list of facts are a pair of its coupling
map, and no others: `CouplingMap.mem_pairs_ofFacts`.  Hence the classes of the map are all names if there
are two of them, and none otherwise.
-/

namespace Cohesion

namespace NamePair

theorem eq_first_or_eq_second_iff {a b x : String} :
  x = (of a b).first ∨ x = (of a b).second ↔ x = a ∨ x = b
  := by
  rw [of]
  split
  · rfl
  · apply or_comm

theorem of_first_ne_second {a b : String} (h : a ≠ b) :
  (of a b).first ≠ (of a b).second
  := by
  rw [of]
  split
  · apply h
  · apply h.symm

end NamePair

namespace ClassFacts

/-- The first classes of each name have the same names as all of them. -/
theorem mem_map_firstByName (facts : List ClassFacts) {x : String} :
  x ∈ (firstByName facts).map ClassFacts.name ↔ x ∈ facts.map ClassFacts.name
  := by
  induction facts with
  | nil => rfl
  | cons c rest ih =>
    have hfilter : ((firstByName rest).filter (·.name ≠ c.name)).map ClassFacts.name
        = ((firstByName rest).map ClassFacts.name).filter (· ≠ c.name) := by
      rw [List.filter_map]
      rfl
    rw [firstByName, List.map_cons, List.map_cons, List.mem_cons, List.mem_cons, ← ih, hfilter,
      List.mem_filter, decide_eq_true_iff]
    apply or_congr_right'
    intro hne
    apply and_iff_left hne

/-- No two of the classes that count have the same name. -/
theorem pairwise_firstByName (facts : List ClassFacts) :
  (firstByName facts).Pairwise fun c d => c.name ≠ d.name
  := by
  induction facts with
  | nil => apply List.Pairwise.nil
  | cons c rest ih =>
    rw [firstByName, List.pairwise_cons]
    constructor
    · intro d hd
      apply (of_decide_eq_true (List.mem_filter.mp hd).2).symm
    · apply ih.filter

/-- The calls of two classes on each other. -/
def traffic (c d : ClassFacts) : Nat :=
  c.callsTo d.name + d.callsTo c.name

/-- The tallies of two classes tell the calls of the classes on each other. -/
theorem traffic_tally (c d : ClassFacts) :
  c.tally.traffic d.tally = c.traffic d
  := by
  rw [CallTally.traffic, count_tally, count_tally, traffic, tally, tally]

/-- Every two of the classes that count have a row with their calls on each other. -/
theorem trafficRows_eq (facts : List ClassFacts) :
  trafficRows facts
    = (pairsOf (firstByName facts)).map fun p => (NamePair.of p.1.name p.2.name, p.1.traffic p.2)
  := by
  rw [trafficRows, pairsOf_map, List.map_map]
  apply List.map_congr_left
  intro p _
  rw [← traffic_tally]
  rfl

end ClassFacts

namespace CouplingMap

variable {S : Type}

/-- The pairs after a list of insertions are those inserted and those there before. -/
theorem mem_foldl_insert {p : NamePair} {entries : List (NamePair × Coupling S)}
    {pairs : Std.ExtTreeMap NamePair (Coupling S)} :
  p ∈ entries.foldl (fun pairs e => pairs.insert e.1 e.2) pairs
    ↔ p ∈ entries.map Prod.fst ∨ p ∈ pairs
  := by
  induction entries generalizing pairs with
  | nil => simp
  | cons e entries ih =>
    rw [List.foldl_cons, ih, Std.ExtTreeMap.mem_insert, Std.LawfulEqCmp.compare_eq_iff_eq,
      List.map_cons, List.mem_cons, or_left_comm, or_assoc, eq_comm]

/-- The pairs of a map built from entries are those of the entries. -/
theorem mem_pairs_ofEntries {p : NamePair} {entries : List (NamePair × Coupling S)} {total : Nat} :
  p ∈ (ofEntries entries total).pairs ↔ p ∈ entries.map Prod.fst
  := by
  rw [ofEntries, mem_foldl_insert]
  simp

variable [Score S]

/-- The pairs are those of two different names. -/
theorem mem_pairs_ofFacts {facts : List ClassFacts} {p : NamePair} :
  p ∈ (ofFacts facts : CouplingMap S).pairs
    ↔ p.first ≠ p.second ∧ p.first ∈ facts.map ClassFacts.name
      ∧ p.second ∈ facts.map ClassFacts.name
  := by
  rw [ofFacts, mem_pairs_ofEntries, List.map_map, ClassFacts.trafficRows_eq, List.map_map,
    List.mem_map]
  simp only [← ClassFacts.mem_map_firstByName facts]
  constructor
  · rintro ⟨⟨c, d⟩, hcd, rfl⟩
    obtain ⟨hc, hd⟩ := mem_of_mem_pairsOf hcd
    have hmem {x : String} (hx : x = c.name ∨ x = d.name) :
        x ∈ (ClassFacts.firstByName facts).map ClassFacts.name := by
      rcases hx with rfl | rfl
      · apply List.mem_map_of_mem hc
      · apply List.mem_map_of_mem hd
    use NamePair.of_first_ne_second (pairwise_iff_forall_mem_pairsOf.mp
      (ClassFacts.pairwise_firstByName facts) c d hcd)
    use hmem (NamePair.eq_first_or_eq_second_iff.mp (Or.inl rfl))
    apply hmem (NamePair.eq_first_or_eq_second_iff.mp (Or.inr rfl))
  · rintro ⟨hne, hfirst, hsecond⟩
    obtain ⟨c, hc, hcp⟩ := List.mem_map.mp hfirst
    obtain ⟨d, hd, hdp⟩ := List.mem_map.mp hsecond
    have hcd : c ≠ d := by
      rintro rfl
      apply hne (hcp.symm.trans hdp)
    have hp : NamePair.of c.name d.name = p := by
      rw [hcp, hdp, NamePair.of_first_second]
    -- The two classes stand in the list in one order or the other, and the pair is the same.
    rcases mem_pairsOf_or_mem_pairsOf hc hd hcd with h | h
    · use (c, d), h, hp
    · use (d, c), h
      apply (NamePair.of_comm _ _).trans hp

/-- The classes are the names besides which there is another one. -/
theorem mem_classes_ofFacts {facts : List ClassFacts} {x : String} :
  x ∈ (ofFacts facts : CouplingMap S).classes
    ↔ x ∈ facts.map ClassFacts.name ∧ ∃ y ∈ facts.map ClassFacts.name, x ≠ y
  := by
  simp only [mem_classes, mem_pairs_ofFacts]
  constructor
  · rintro ⟨p, ⟨hne, hfirst, hsecond⟩, rfl | rfl⟩
    · use hfirst, p.second
    · use hsecond, p.first, hfirst, hne.symm
  · rintro ⟨hx, y, hy, hne⟩
    have hmem {z : String} (hz : z = x ∨ z = y) : z ∈ facts.map ClassFacts.name := by
      rcases hz with rfl | rfl
      · apply hx
      · apply hy
    use NamePair.of x y
    constructor
    · use NamePair.of_first_ne_second hne
      use hmem (NamePair.eq_first_or_eq_second_iff.mp (Or.inl rfl))
      apply hmem (NamePair.eq_first_or_eq_second_iff.mp (Or.inr rfl))
    · apply NamePair.eq_first_or_eq_second_iff.mpr (Or.inl rfl)

/-- All names are classes if there are at least two of them. -/
theorem classes_ofFacts_of_one_lt {facts : List ClassFacts}
    (h : 1 < (NameSet.ofList (facts.map ClassFacts.name)).size) :
  (ofFacts facts : CouplingMap S).classes = NameSet.ofList (facts.map ClassFacts.name)
  := by
  ext x
  rw [mem_classes_ofFacts, NameSet.mem_ofList]
  apply and_iff_left_of_imp
  intro hx
  by_contra hall
  have heq {y : String} (hy : y ∈ NameSet.ofList (facts.map ClassFacts.name)) : x = y := by
    by_contra hne
    apply hall
    use y, NameSet.mem_ofList.mp hy
  apply absurd h (not_lt_of_ge _)
  apply NameSet.size_le_one_iff.mpr
  intro y z hy hz
  apply (heq hy).symm.trans (heq hz)

/-- A single name is no class. -/
theorem classes_ofFacts_of_le_one {facts : List ClassFacts}
    (h : (NameSet.ofList (facts.map ClassFacts.name)).size ≤ 1) :
  (ofFacts facts : CouplingMap S).classes = ∅
  := by
  by_contra hne
  obtain ⟨x, hx⟩ := NameSet.ne_empty_iff.mp hne
  obtain ⟨hx, y, hy, hxy⟩ := mem_classes_ofFacts.mp hx
  apply hxy
  apply NameSet.size_le_one_iff.mp h x y (NameSet.mem_ofList.mpr hx) (NameSet.mem_ofList.mpr hy)

end CouplingMap

end Cohesion

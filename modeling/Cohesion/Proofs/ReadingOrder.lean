import Cohesion.Proofs.Analysis
import Cohesion.Proofs.CallCounts

/-!
# The order of the facts

Two lists of facts have the same firsts when the first class of every name is the same in both,
`ClassFacts.SameFirsts`: the classes may stand in any order, and further classes of a name may come
after the first one.  Such lists have the same calls between classes and so the same coupling map,
`CouplingMap.ofFacts_congr`, from which everything else is computed.
-/

namespace Cohesion

namespace ClassFacts

variable {facts facts' : List ClassFacts}

/-- Every name has the same first class in both lists. -/
def SameFirsts (facts facts' : List ClassFacts) : Prop :=
  ∀ name, named? facts name = named? facts' name

/-- Lists have the same firsts when the classes that count are the same ones. -/
theorem sameFirsts_iff_perm :
  SameFirsts facts facts' ↔ (firstByName facts).Perm (firstByName facts')
  := by
  rw [List.perm_ext_iff_of_nodup (nodup_firstByName facts) (nodup_firstByName facts')]
  constructor
  · intro h c
    rw [mem_firstByName_iff, mem_firstByName_iff, h c.name]
  · intro h name
    apply Option.ext
    intro c
    have hfirst {facts : List ClassFacts} :
        named? facts name = some c ↔ c.name = name ∧ c ∈ firstByName facts := by
      constructor
      · intro hc
        use name_of_named? hc, mem_firstByName_of_named? hc
      · rintro ⟨rfl, hc⟩
        apply mem_firstByName_iff.mp hc
    rw [hfirst, hfirst, h c]

/-- Rearranging a list changes no first as long as the classes of each name keep their order. -/
theorem sameFirsts_of_filter_eq
    (h : ∀ name, facts.filter (·.name = name) = facts'.filter (·.name = name)) :
  SameFirsts facts facts'
  := by
  intro name
  rw [named?, named?, ← List.head?_filter, ← List.head?_filter, h name]

/-- A further class of a name changes no first, wherever it comes after the first one. -/
theorem sameFirsts_append_cons {earlier later : List ClassFacts} {c : ClassFacts}
    (h : c.name ∈ earlier.map ClassFacts.name) :
  SameFirsts (earlier ++ c :: later) (earlier ++ later)
  := by
  intro name
  rw [named?, named?, List.find?_append, List.find?_append]
  by_cases hname : c.name = name
  · subst hname
    obtain ⟨d, hd⟩ := exists_named?_iff.mpr h
    rw [named?] at hd
    rw [hd, Option.some_or, Option.some_or]
  · rw [List.find?_cons_of_neg]
    simpa using hname

/-- Facts with the same first classes have the same names. -/
theorem SameFirsts.mem_names_iff (h : SameFirsts facts facts') (x : String) :
  x ∈ facts.map ClassFacts.name ↔ x ∈ facts'.map ClassFacts.name
  := by
  rw [← exists_named?_iff, ← exists_named?_iff, h x]

/-- The calls on other classes depend on the set of the names only. -/
theorem callsOnOthers_congr {names names' : List String} (h : ∀ x, x ∈ names ↔ x ∈ names')
    (c : ClassFacts) :
  c.callsOnOthers names = c.callsOnOthers names'
  := by
  rw [callsOnOthers, callsOnOthers]
  congr 1
  apply List.filter_congr
  intro s _
  simp only [h s.receiver]

/-- Facts with the same first classes have the same cross calls, in some order. -/
theorem SameFirsts.crossCalls_perm (h : SameFirsts facts facts') :
  (crossCalls facts).Perm (crossCalls facts')
  := by
  apply (sameFirsts_iff_perm.mp h).flatMap
  intro c _
  rw [callsOnOthers_congr h.mem_names_iff]

end ClassFacts

open ClassFacts

/-- Lists with the same firsts have the same couplings. -/
theorem CouplingMap.ofFacts_congr {S : Type} [Score S] {facts facts' : List ClassFacts}
    (h : SameFirsts facts facts') :
  (ofFacts facts : CouplingMap S) = ofFacts facts'
  := by
  have htotal : (ofFacts facts : CouplingMap S).totalCalls
      = (ofFacts facts' : CouplingMap S).totalCalls := by
    rw [totalCalls_ofFacts, totalCalls_ofFacts, h.crossCalls_perm.length_eq]
  have hpairs : (ofFacts facts : CouplingMap S).pairs = (ofFacts facts' : CouplingMap S).pairs := by
    apply Std.ExtTreeMap.ext_getElem?
    intro p
    rw [getElem?_pairs_ofFacts, getElem?_pairs_ofFacts, h p.first, h p.second, htotal]
  apply congrArg₂ CouplingMap.mk hpairs htotal

namespace Analysis

/-- The analyses of facts with the same firsts agree in everything that is computed from the
couplings. -/
theorem ofFacts_ignores_order {p q : ProjectFacts} (h : SameFirsts p.classes q.classes) :
  ∃ a b, ofFacts p = .ok a ∧ ofFacts q = .ok b
    ∧ a.couplings = .ofFacts p.classes ∧ b.couplings = .ofFacts q.classes
    ∧ a.couplings = b.couplings ∧ a.clustering = b.clustering ∧ a.dendrogram = b.dendrogram
    ∧ (∀ percent, a.weights percent = b.weights percent)
    ∧ (∀ steps, a.clusters steps = b.clusters steps)
    ∧ a.tree = b.tree
    ∧ ∀ point mode, a.modules point mode = b.modules point mode
  := by
  obtain ⟨a, ha, hcouplings, hclustering, ht⟩ := exists_ofFacts p
  obtain ⟨b, hb, hcouplings', hclustering', ht'⟩ := exists_ofFacts q
  have hcouplings_eq : a.couplings = b.couplings := by
    rw [hcouplings, hcouplings', CouplingMap.ofFacts_congr h]
  have hclustering_eq : a.clustering = b.clustering := by
    rw [hclustering, hclustering', hcouplings_eq]
  have hdendrogram_eq : a.dendrogram = b.dendrogram := by
    rw [hclustering_eq, ht'] at ht
    apply (Except.ok.inj ht).symm
  use a, b, ha, hb, hcouplings, hcouplings', hcouplings_eq, hclustering_eq, hdendrogram_eq
  constructor
  · intro percent
    rw [weights, weights, hcouplings_eq]
  constructor
  · intro steps
    rw [clusters, clusters, hcouplings_eq, hclustering_eq]
  constructor
  · rw [tree, tree, hdendrogram_eq]
  · intro point mode
    rw [modules, modules, hcouplings_eq, hdendrogram_eq]

/-- Two files read in the other order, one of which now declares a class for the second time. -/
theorem ofFacts_ignores_order_of_files :
  let p : ProjectFacts := ⟨2, 0, [.calling "A" ["B", "C"], .calling "B" ["A"], .calling "C" []]⟩
  let q : ProjectFacts :=
    ⟨2, 1, [.calling "C" [], .calling "A" ["B", "C"], .calling "A" ["C"], .calling "B" ["A"]]⟩
  SameFirsts p.classes q.classes
    ∧ ∃ a b, ofFacts p = .ok a ∧ ofFacts q = .ok b ∧ a.couplings = b.couplings ∧ a.tree = b.tree
  := by
  intro p q
  have h : SameFirsts p.classes q.classes := sameFirsts_iff_perm.mpr (by decide +kernel)
  obtain ⟨a, b, ha, hb, -, -, hcouplings, -, -, -, -, htree, -⟩ := ofFacts_ignores_order h
  use h, a, b, ha, hb, hcouplings

end Analysis

end Cohesion

import Cohesion.Proofs.PairReport

/-!
# Names that differ in case

A name finds the first class of a list whose name is the same up to the case of ASCII letters,
`ClassFacts.find?_eq`, while the coupling map tells names apart that differ in case.  So every pair
of the map has a report, but a class is reported on by its own name only if no class before it has
the same letters: `pairReport_of_mem_pairs`.
-/

namespace Cohesion

theorem sameIgnoringCase_refl (name : String) :
  sameIgnoringCase name name
  := beq_self_eq_true _

namespace ClassFacts

variable {facts : List ClassFacts} {name : String} {c : ClassFacts}

/-- Classes that do not count, because an earlier one has their name, are not found either. -/
theorem find?_eq (facts : List ClassFacts) (name : String) :
  find? facts name = facts.find? fun c => sameIgnoringCase c.name name
  := by
  induction facts with
  | nil => rfl
  | cons d rest ih =>
    rw [find?] at ih ⊢
    rw [firstByName, List.find?_cons, List.find?_cons, ← ih, List.find?_filter]
    split
    · rfl
    · rename_i hd
      congr 1
      funext c
      rw [Bool.eq_iff_iff, decide_eq_true_iff, and_iff_right_iff_imp]
      intro hc
      apply decide_eq_true
      intro heq
      rw [← heq, hc] at hd
      cases hd

/-- A name finds a class, and none before it has the same letters. -/
theorem find?_eq_some_iff :
  find? facts name = some c
    ↔ sameIgnoringCase c.name name ∧ ∃ before after, facts = before ++ c :: after
      ∧ ∀ d ∈ before, ¬ sameIgnoringCase d.name name
  := by
  rw [find?_eq, List.find?_eq_some_iff_append]
  simp only [Bool.not_eq_true', Bool.not_eq_true]

/-- A name finds a class of exactly this name if no class before the first of these has the same
letters. -/
theorem name_eq_iff_of_find? (h : find? facts name = some c) :
  c.name = name ↔ ∀ d ∈ facts.takeWhile (·.name ≠ name), ¬ sameIgnoringCase d.name name
  := by
  obtain ⟨halike, before, after, rfl, hbefore⟩ := find?_eq_some_iff.mp h
  have hother : ∀ d ∈ before, decide (d.name ≠ name) = true := by
    intro d hd
    apply decide_eq_true
    intro heq
    apply hbefore d hd
    rw [heq]
    apply sameIgnoringCase_refl
  rw [List.takeWhile_append_of_pos hother, List.takeWhile_cons]
  constructor
  · intro hname
    rw [if_neg (by simpa using hname), List.append_nil]
    apply hbefore
  · intro hnone
    by_contra hname
    apply hnone c _ halike
    rw [if_pos (by simpa using hname)]
    apply List.mem_append_right _ List.mem_cons_self

end ClassFacts

open ClassFacts

/-- The name of a class finds one with the same letters. -/
theorem exists_find?_of_mem {facts : List ClassFacts} {x : String}
    (hx : x ∈ facts.map ClassFacts.name) :
  ∃ c, find? facts x = some c
    ∧ (c.name = x ↔ ∀ e ∈ facts.takeWhile (·.name ≠ x), ¬ sameIgnoringCase e.name x)
    ∧ ((∀ c ∈ facts, ∀ d ∈ facts, sameIgnoringCase c.name d.name → c.name = d.name) → c.name = x)
  := by
  obtain ⟨e, he, rfl⟩ := List.mem_map.mp hx
  obtain ⟨c, hc⟩ := exists_find?_iff.mpr ⟨e, he, sameIgnoringCase_refl e.name⟩
  use c, hc, name_eq_iff_of_find? hc
  intro hdistinct
  rw [find?_eq] at hc
  have halike : sameIgnoringCase c.name e.name := by simpa using List.find?_some hc
  apply hdistinct c (List.mem_of_find?_eq_some hc) e he halike

/-- The two classes of a pair are reported on as the first classes of the same letters.  A class is
reported on by its own name exactly if none before the first one of this name has the same letters,
and so if no two names differ in case only. -/
theorem pairReport_of_mem_pairs {facts : List ClassFacts} {x y : String}
    (h : NamePair.of x y ∈ (CouplingMap.ofFacts facts : CouplingMap Float).pairs)
    (totalCalls : Nat) :
  ∃ c d, facts.find? (fun e => sameIgnoringCase e.name x) = some c
    ∧ facts.find? (fun e => sameIgnoringCase e.name y) = some d
    ∧ pairReport facts totalCalls x y = .ok (⟨c.name, d.name, c.callsTo d.name, d.callsTo c.name,
        totalCalls, Score.share (c.callsTo d.name + d.callsTo c.name) totalCalls⟩ : PairReport Float)
    ∧ (c.name = x ↔ ∀ e ∈ facts.takeWhile (·.name ≠ x), ¬ sameIgnoringCase e.name x)
    ∧ (d.name = y ↔ ∀ e ∈ facts.takeWhile (·.name ≠ y), ¬ sameIgnoringCase e.name y)
    ∧ ((∀ c ∈ facts, ∀ d ∈ facts, sameIgnoringCase c.name d.name → c.name = d.name) →
        c.name = x ∧ d.name = y)
  := by
  obtain ⟨-, hfirst, hsecond⟩ := CouplingMap.mem_pairs_ofFacts.mp h
  have hnames : ∀ z, z = x ∨ z = y → z ∈ facts.map ClassFacts.name := by
    intro z hz
    obtain rfl | rfl := NamePair.eq_first_or_eq_second_iff.mpr hz
    · apply hfirst
    · apply hsecond
  obtain ⟨c, hc, hcIff, hcName⟩ := exists_find?_of_mem (hnames x (Or.inl rfl))
  obtain ⟨d, hd, hdIff, hdName⟩ := exists_find?_of_mem (hnames y (Or.inr rfl))
  use c, d
  rw [← find?_eq, ← find?_eq]
  use hc, hd, pairReport_of_find? hc hd totalCalls, hcIff, hdIff
  intro hdistinct
  use hcName hdistinct, hdName hdistinct

/-- Behind a class of the same letters a class is not reported on by its own name. -/
theorem pairReport_of_mem_pairs_behind_same_letters :
  let facts := [ClassFacts.calling "item" [], .calling "Item" [], .calling "B" ["Item"]]
  NamePair.of "B" "Item" ∈ (CouplingMap.ofFacts facts : CouplingMap Float).pairs
    ∧ ∃ r : PairReport Float, pairReport facts 1 "B" "Item" = .ok r
      ∧ r.classA = "B" ∧ r.classB ≠ "Item"
  := by
  intro facts
  have hmem : NamePair.of "B" "Item" ∈ (CouplingMap.ofFacts facts : CouplingMap Float).pairs :=
    CouplingMap.mem_pairs_ofFacts.mpr (by decide)
  use hmem
  obtain ⟨c, d, -, -, hreport, hB, hItem, -⟩ := pairReport_of_mem_pairs hmem 1
  refine ⟨_, hreport, hB.mpr (by decide), ?_⟩
  apply mt hItem.mp
  decide

/-- Not every pair of a coupling map is reported on by the names of its classes. -/
theorem not_forall_pairReport_names :
  ¬ ∀ (facts : List ClassFacts) (x y : String) (totalCalls : Nat),
    NamePair.of x y ∈ (CouplingMap.ofFacts facts : CouplingMap Float).pairs →
      ∃ r : PairReport Float, pairReport facts totalCalls x y = .ok r
        ∧ r.classA = x ∧ r.classB = y
  := by
  intro h
  let item := ClassFacts.calling "item" []
  let b := ClassFacts.calling "B" ["Item"]
  obtain ⟨r, hr, -, hItem⟩ := h [item, .calling "Item" [], b] "B" "Item" 1
    (CouplingMap.mem_pairs_ofFacts.mpr (by decide))
  rw [pairReport_of_find? (c := b) (d := item) (by decide) (by decide)] at hr
  obtain rfl := Except.ok.inj hr
  apply absurd hItem
  decide

end Cohesion

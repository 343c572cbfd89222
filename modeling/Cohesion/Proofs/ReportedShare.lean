import Cohesion.Proofs.Analysis
import Cohesion.Proofs.FloatCount
import Cohesion.Proofs.PairReport

/-!
# The share that a report tells

The calls that a report on two different classes counts are among those of the whole project, so
what it tells is a share of them: `PairReport.IsShare`.  A report on a class and itself counts the
calls of the class to itself, once in either direction, although the total leaves these out.
-/

namespace Cohesion

open ClassFacts FloatOrder

/-- A part of a total of at most 64 bits has a share from zero to one. -/
theorem Score.share_mem_unit {part total : ℕ} (hle : part ≤ total) (hlt : total < 2 ^ 64) :
  0.0 ≤ (Score.share part total : Float) ∧ (Score.share part total : Float) ≤ 1.0
  := by
  rw [Score.share]
  split
  · decide +kernel
  · rename_i htotal
    apply ratio_mem_unit hle (Nat.pos_of_ne_zero htotal) hlt

/-- The reported calls are a part of all calls, and the share is a number from zero to one. -/
structure PairReport.IsShare (r : PairReport Float) : Prop where
  calls_le : r.callsAToB + r.callsBToA ≤ r.totalCalls
  zero_le : 0.0 ≤ r.share
  le_one : r.share ≤ 1.0

variable {facts : List ClassFacts} {totalCalls : ℕ} {a b : String} {r : PairReport Float}

/-- A report gives a share exactly when it counts no more calls than there are in total. -/
theorem PairReport.isShare_iff (h : pairReport facts totalCalls a b = .ok r)
    (hlt : totalCalls < 2 ^ 64) :
  r.IsShare ↔ r.callsAToB + r.callsBToA ≤ r.totalCalls
  := by
  constructor
  · intro hshare
    apply hshare.calls_le
  · intro hle
    obtain ⟨c, d, -, -, rfl⟩ := exists_find?_of_pairReport h
    obtain ⟨hzero, hone⟩ := Score.share_mem_unit hle hlt
    use hle, hzero, hone

/-- The calls between two different classes are cross calls. -/
theorem calls_le_of_pairReport (h : pairReport facts totalCalls a b = .ok r)
    (hne : r.classA ≠ r.classB) :
  r.callsAToB + r.callsBToA ≤ (crossCalls facts).length
  := by
  obtain ⟨c, d, hc, hd, rfl⟩ := exists_find?_of_pairReport h
  have hcount := countP_pair_crossCalls (named?_of_find? hc) (named?_of_find? hd) hne
  rw [traffic] at hcount
  rw [← hcount]
  apply List.countP_le_length

namespace Analysis

/-- An analysis of facts reports on a pair from these facts and the total of their map. -/
theorem pair_of_ofFacts {project : ProjectFacts} {an : Analysis} (h : ofFacts project = .ok an)
    (a b : String) :
  an.pair a b = pairReport project.classes an.couplings.totalCalls a b
  := by rw [pair, (parts_of_ofFacts h).1]

/-- A report tells the share of all calls between classes that go between the two it is on, if these
are different.  If both names find the same class, it counts the calls of the class to itself twice
in a total in which none of them is counted. -/
theorem pair_isShare {project : ProjectFacts} {an : Analysis} (han : ofFacts project = .ok an)
    (hlt : an.couplings.totalCalls < 2 ^ 64) (hr : an.pair a b = .ok r) :
  r.totalCalls = (crossCalls project.classes).length
    ∧ (r.classA ≠ r.classB → r.IsShare)
    ∧ (r.classA = r.classB → ∃ c, named? project.classes r.classA = some c
      ∧ r.callsAToB = c.callsTo c.name ∧ r.callsBToA = c.callsTo c.name
      ∧ (r.IsShare ↔ 2 * c.callsTo c.name ≤ r.totalCalls))
  := by
  rw [pair_of_ofFacts han] at hr
  obtain ⟨-, hcouplings, -⟩ := parts_of_ofFacts han
  have htotal : an.couplings.totalCalls = (crossCalls project.classes).length := by
    rw [hcouplings, CouplingMap.totalCalls_ofFacts]
  have hiff := PairReport.isShare_iff hr hlt
  have hle := calls_le_of_pairReport hr
  obtain ⟨c, d, hc, hd, rfl⟩ := exists_find?_of_pairReport hr
  use htotal
  constructor
  · intro hne
    rw [hiff]
    apply (hle hne).trans_eq htotal.symm
  · intro hsame
    have hcd : c = d := by
      have hnamed := named?_of_find? hd
      change c.name = d.name at hsame
      rw [← hsame, named?_of_find? hc] at hnamed
      apply Option.some.inj hnamed
    use c, named?_of_find? hc
    rw [hiff, hcd, two_mul]
    use rfl, rfl

/-- Of two classes that call each other one also calls itself, which is not counted. -/
theorem pair_isShare_of_two :
  let facts := [ClassFacts.calling "A" ["A", "B"], .calling "B" ["A"]]
  ∃ an r, ofFacts ⟨2, 0, facts⟩ = .ok an ∧ an.couplings.totalCalls = 2
    ∧ an.pair "b" "A" = .ok r ∧ r.classA ≠ r.classB ∧ r.IsShare
  := by
  intro facts
  obtain ⟨an, han, hcouplings, -, -⟩ := exists_ofFacts ⟨2, 0, facts⟩
  have htotal : an.couplings.totalCalls = 2 := by
    rw [hcouplings]
    decide +kernel
  have hb : find? facts "b" = some (.calling "B" ["A"]) := by decide +kernel
  have ha : find? facts "A" = some (.calling "A" ["A", "B"]) := by decide +kernel
  have hr := pairReport_of_find? (S := Float) hb ha an.couplings.totalCalls
  rw [← pair_of_ofFacts han] at hr
  obtain ⟨-, hdifferent, -⟩ := pair_isShare han (by rw [htotal]; decide) hr
  have hne : "B" ≠ "A" := by decide
  refine ⟨an, _, han, htotal, hr, hne, hdifferent hne⟩

/-- Not every report tells a share.  A class that calls itself twice, and another class once, is
reported to make four calls on itself out of one. -/
theorem not_all_reports_isShare :
  ¬ ∀ (project : ProjectFacts) (an : Analysis), ofFacts project = .ok an →
      ∀ a b r, an.pair a b = .ok r → r.IsShare
  := by
  intro hall
  let facts := [ClassFacts.calling "A" ["A", "A", "B"], .calling "B" []]
  obtain ⟨an, han, hcouplings, -, -⟩ := exists_ofFacts ⟨2, 0, facts⟩
  have htotal : an.couplings.totalCalls = 1 := by
    rw [hcouplings]
    decide +kernel
  have ha : find? facts "A" = some (.calling "A" ["A", "A", "B"]) := by decide +kernel
  have hr := pairReport_of_find? (S := Float) ha ha an.couplings.totalCalls
  rw [← pair_of_ofFacts han, htotal] at hr
  have hle := (hall _ an han "A" "A" _ hr).calls_le
  revert hle
  decide +kernel

end Analysis

end Cohesion

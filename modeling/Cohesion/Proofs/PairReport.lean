import Cohesion.Coupling.PairReport
import Cohesion.Proofs.CallCounts

/-!
# The report on a pair and its entry

A report is made when both names are those of classes, up to the case of ASCII letters, and is
otherwise refused for the first name that is not: `pairReport_eq_error_iff`.  A report counts the calls
of the two classes on each other where the coupling map looks them up in tallies, yet it tells the calls
and the share that the map holds for the two, and with the names exchanged it is the same report the
other way round: `pairReport_agrees_with_couplings`.
-/

namespace Cohesion

namespace ClassFacts

variable {facts : List ClassFacts} {name : String} {c : ClassFacts}

/-- Some class has the name, up to the case of ASCII letters. -/
def Knows (facts : List ClassFacts) (name : String) : Prop :=
  ∃ c ∈ facts, sameIgnoringCase c.name name

/-- A class is found exactly when one of its name is known, whatever the case of the letters. -/
theorem exists_find?_iff :
  (∃ c, find? facts name = some c) ↔ Knows facts name
  := by
  have hnames (cs : List ClassFacts) :
      (∃ c ∈ cs, sameIgnoringCase c.name name)
        ↔ ∃ x ∈ cs.map ClassFacts.name, sameIgnoringCase x name := by
    simp only [List.mem_map, exists_exists_and_eq_and]
  rw [← Option.isSome_iff_exists, find?, List.find?_isSome, Knows, hnames, hnames]
  simp only [mem_map_firstByName]

/-- What a name finds is the first class of its own name. -/
theorem named?_of_find? (h : find? facts name = some c) :
  named? facts c.name = some c
  := mem_firstByName_iff.mp (List.mem_of_find?_eq_some h)

theorem sameIgnoringCase_of_find? (h : find? facts name = some c) :
  sameIgnoringCase c.name name
  := by simpa using List.find?_some h

end ClassFacts

open ClassFacts

/-- A report with its two classes exchanged. -/
def PairReport.swap {S : Type} (r : PairReport S) : PairReport S :=
  ⟨r.classB, r.classA, r.callsBToA, r.callsAToB, r.totalCalls, r.share⟩

variable {S : Type} [Score S] {facts : List ClassFacts} {totalCalls : Nat} {a b : String}

/-- The report on two classes that are found gives their names, their calls and their share of the
total. -/
theorem pairReport_of_find? {c d : ClassFacts} (hc : find? facts a = some c)
    (hd : find? facts b = some d) (totalCalls : Nat) :
  pairReport (S := S) facts totalCalls a b
    = .ok ⟨c.name, d.name, c.callsTo d.name, d.callsTo c.name, totalCalls,
        Score.share (c.callsTo d.name + d.callsTo c.name) totalCalls⟩
  := by
  rw [pairReport, hc, hd]

/-- A report is on the two classes that the names find. -/
theorem exists_find?_of_pairReport {r : PairReport S}
    (h : pairReport facts totalCalls a b = .ok r) :
  ∃ c d, find? facts a = some c ∧ find? facts b = some d
    ∧ r = ⟨c.name, d.name, c.callsTo d.name, d.callsTo c.name, totalCalls,
        Score.share (c.callsTo d.name + d.callsTo c.name) totalCalls⟩
  := by
  cases hc : find? facts a with
  | none =>
    rw [pairReport, hc] at h
    cases h
  | some c =>
    cases hd : find? facts b with
    | none =>
      rw [pairReport, hc, hd] at h
      cases h
    | some d =>
      rw [pairReport_of_find? hc hd] at h
      use c, d, rfl, rfl, (Except.ok.inj h).symm

/-- There is a report exactly when both names are known. -/
theorem exists_pairReport_iff :
  (∃ r : PairReport S, pairReport facts totalCalls a b = .ok r) ↔ Knows facts a ∧ Knows facts b
  := by
  rw [← exists_find?_iff, ← exists_find?_iff]
  constructor
  · rintro ⟨r, hr⟩
    obtain ⟨c, d, hc, hd, -⟩ := exists_find?_of_pairReport hr
    use ⟨c, hc⟩, d
  · rintro ⟨⟨c, hc⟩, d, hd⟩
    apply Exists.intro
    apply pairReport_of_find? hc hd

/-- A report is refused for the first of the two names that no class has. -/
theorem pairReport_eq_error_iff {failure : Failure} :
  pairReport (S := S) facts totalCalls a b = .error failure
    ↔ ¬ Knows facts a ∧ failure = .classNotFound a
      ∨ Knows facts a ∧ ¬ Knows facts b ∧ failure = .classNotFound b
  := by
  rw [← exists_find?_iff, ← exists_find?_iff, pairReport]
  cases find? facts a with
  | none => simp [eq_comm]
  | some c =>
    cases find? facts b with
    | none => simp [eq_comm]
    | some d => simp

/-- With the names exchanged the report is the same one the other way round. -/
theorem pairReport_swap {r : PairReport S} (h : pairReport facts totalCalls a b = .ok r) :
  pairReport facts totalCalls b a = .ok r.swap
  := by
  obtain ⟨c, d, hc, hd, rfl⟩ := exists_find?_of_pairReport h
  rw [pairReport_of_find? hd hc, PairReport.swap, Nat.add_comm]

/-- A report on two different classes tells the calls and the weight of their entry. -/
theorem exists_entry?_of_pairReport {r : PairReport S}
    (h : pairReport facts (CouplingMap.ofFacts facts : CouplingMap S).totalCalls a b = .ok r)
    (hne : r.classA ≠ r.classB) :
  ∃ e, CouplingMap.entry? (CouplingMap.ofFacts facts) r.classA r.classB = some e
    ∧ r.callsAToB + r.callsBToA = e.calls ∧ r.share = e.weight
  := by
  obtain ⟨c, d, hc, hd, rfl⟩ := exists_find?_of_pairReport h
  apply Exists.intro
  use CouplingMap.entry?_ofFacts (named?_of_find? hc) (named?_of_find? hd) hne

/-- Exactly names of classes have a report, and others are refused by name.  The report on two
different classes agrees with their entry in the coupling map, whichever is named first. -/
theorem pairReport_agrees_with_couplings (facts : List ClassFacts) (a b : String) :
  let m : CouplingMap Float := .ofFacts facts
  let report (a b : String) : Except Failure (PairReport Float) :=
    pairReport facts m.totalCalls a b
  ((∃ r, report a b = .ok r) ↔ Knows facts a ∧ Knows facts b)
    ∧ (¬ Knows facts a → report a b = .error (.classNotFound a))
    ∧ (Knows facts a → ¬ Knows facts b → report a b = .error (.classNotFound b))
    ∧ (∀ name, (Failure.classNotFound name).code.text = "CLASS_NOT_FOUND"
      ∧ (Failure.classNotFound name).message = "Class not found: " ++ name)
    ∧ ∀ r, report a b = .ok r → sameIgnoringCase r.classA a ∧ sameIgnoringCase r.classB b
      ∧ (r.classA ≠ r.classB →
        (∃ e, m.entry? r.classA r.classB = some e ∧ r.callsAToB + r.callsBToA = e.calls)
          ∧ r.share = m.get r.classA r.classB ∧ report b a = .ok r.swap)
  := by
  intro m report
  use exists_pairReport_iff
  constructor
  · intro ha
    apply pairReport_eq_error_iff.mpr (Or.inl ⟨ha, rfl⟩)
  constructor
  · intro ha hb
    apply pairReport_eq_error_iff.mpr (Or.inr ⟨ha, hb, rfl⟩)
  constructor
  · intro name
    constructor
    · rfl
    · rfl
  · intro r hr
    obtain ⟨c, d, hc, hd, heq⟩ := exists_find?_of_pairReport hr
    constructor
    · rw [heq]
      apply sameIgnoringCase_of_find? hc
    constructor
    · rw [heq]
      apply sameIgnoringCase_of_find? hd
    · intro hne
      -- The calls counted for the report are those tallied for the entry of the two classes.
      obtain ⟨e, he, hcalls, hshare⟩ := exists_entry?_of_pairReport hr hne
      use ⟨e, he, hcalls⟩
      constructor
      · rw [hshare, CouplingMap.get, he]
      · apply pairReport_swap hr

/-- Of classes whose names differ only in case the first is reported on. -/
theorem pairReport_agrees_with_couplings_in_case :
  let store := ClassFacts.calling "Store" ["item", "Item", "STORE"]
  let item := ClassFacts.calling "Item" ["Store", "STORE"]
  let facts := [store, .calling "STORE" ["Item"], item]
  let m : CouplingMap Float := .ofFacts facts
  ∃ r, pairReport facts m.totalCalls "store" "ITEM" = .ok r ∧ r.classA = "Store"
    ∧ r.classB = "Item" ∧ r.share = m.get "Store" "Item"
    ∧ pairReport facts m.totalCalls "ITEM" "store" = .ok r.swap
  := by
  intro store item facts m
  have hstore : find? facts "store" = some store := by decide +kernel
  have hitem : find? facts "ITEM" = some item := by decide +kernel
  obtain ⟨-, -, -, -, hok⟩ := pairReport_agrees_with_couplings facts "store" "ITEM"
  have hr := pairReport_of_find? (S := Float) hstore hitem m.totalCalls
  obtain ⟨-, -, hagrees⟩ := hok _ hr
  obtain ⟨-, hshare, hswap⟩ := hagrees (by decide)
  apply Exists.intro
  use hr, rfl, rfl, hshare

end Cohesion

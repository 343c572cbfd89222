import Cohesion.Proofs.Traffic
import Mathlib.Algebra.BigOperators.Group.List.Basic

/-!
# Calls between classes

Of several classes of one name the first counts, `ClassFacts.named?`.  A cross call is a call of a
class that counts on another class of the list; it belongs to the pair of its caller and its
receiver.  The traffic of two classes are the cross calls of their pair:
`ClassFacts.countP_pair_crossCalls`.  Whatever pairs are looked at, no cross call is counted for two
of them, and none is left out if its pair is among them: `ClassFacts.total_countP_crossCalls`.
-/

namespace Cohesion

/-! ### Counting -/

section

variable {α : Type} {xs : List α}

/-- What satisfies one of two conditions that exclude each other is counted once. -/
theorem countP_or {p q : α → Prop} [DecidablePred p] [DecidablePred q]
    (h : ∀ x ∈ xs, p x → ¬ q x) :
  xs.countP (fun x => p x ∨ q x) = xs.countP (fun x => p x) + xs.countP (fun x => q x)
  := by
  induction xs with
  | nil => rfl
  | cons x xs ih =>
    have hx := h x List.mem_cons_self
    simp only [List.countP_cons, ih fun y hy => h y (List.mem_cons_of_mem x hy),
      decide_eq_true_iff]
    by_cases hp : p x
    · simp only [hp, hx hp, true_or, if_true, if_false]
      omega
    · simp only [hp, false_or, if_false]
      omega

/-- Counted by key, what has one of the keys is counted once. -/
theorem total_countP {β : Type} [DecidableEq β] (key : α → β) {keys : List β}
    (h : keys.Nodup) :
  total (keys.map fun k => xs.countP fun x => key x = k) = xs.countP fun x => key x ∈ keys
  := by
  induction keys with
  | nil => simp [total]
  | cons k keys ih =>
    obtain ⟨hk, hkeys⟩ := List.nodup_cons.mp h
    simp only [List.map_cons, total, ih hkeys, List.mem_cons]
    rw [countP_or]
    rintro x - rfl
    apply hk

end

/-! ### Calls and their pairs -/

namespace NamePair

/-- Two pairs are one exactly when their names are the same in one order or the other. -/
theorem of_eq_of_iff {a b c d : String} :
  of a b = of c d ↔ a = c ∧ b = d ∨ a = d ∧ b = c
  := by
  constructor
  · intro h
    have hmem (x : String) : x = a ∨ x = b ↔ x = c ∨ x = d := by
      rw [← eq_first_or_eq_second_iff, h, eq_first_or_eq_second_iff]
    have ha := (hmem a).mp (Or.inl rfl)
    have hb := (hmem b).mp (Or.inr rfl)
    have hc := (hmem c).mpr (Or.inl rfl)
    have hd := (hmem d).mpr (Or.inr rfl)
    grind
  · rintro (⟨rfl, rfl⟩ | ⟨rfl, rfl⟩)
    · rfl
    · apply of_comm

end NamePair

/-- A call of one class on another one. -/
structure CrossCall where
  caller : String
  site : CallSite

/-- The pair of classes between which a call goes. -/
def CrossCall.pair (call : CrossCall) : NamePair :=
  .of call.caller call.site.receiver

namespace ClassFacts

variable {facts : List ClassFacts} {c d : ClassFacts} {x y : String}

/-! ### The first class of a name -/

/-- The first class of a list with a name. -/
def named? (facts : List ClassFacts) (name : String) : Option ClassFacts :=
  facts.find? (·.name = name)

theorem name_of_named? (h : named? facts x = some c) :
  c.name = x
  := by simpa using List.find?_some h

/-- A class of a name is found exactly when the name is listed. -/
theorem exists_named?_iff :
  (∃ c, named? facts x = some c) ↔ x ∈ facts.map ClassFacts.name
  := by
  rw [← Option.isSome_iff_exists, named?, List.find?_isSome, List.mem_map]
  simp only [decide_eq_true_iff]

theorem named?_cons (d : ClassFacts) (rest : List ClassFacts) (x : String) :
  named? (d :: rest) x = if d.name = x then some d else named? rest x
  := by
  by_cases h : d.name = x
  · simp [named?, h]
  · simp [named?, h]

/-- The classes that count are the first ones of their names. -/
theorem mem_firstByName_iff :
  c ∈ firstByName facts ↔ named? facts c.name = some c
  := by
  induction facts with
  | nil => simp [firstByName, named?]
  | cons d rest ih =>
    rw [firstByName, List.mem_cons, List.mem_filter, decide_eq_true_iff, ih, named?_cons]
    by_cases hname : d.name = c.name
    · rw [if_pos hname, Option.some.injEq]
      constructor
      · rintro (rfl | ⟨-, hne⟩)
        · rfl
        · apply absurd hname.symm hne
      · rintro rfl
        apply Or.inl rfl
    · rw [if_neg hname]
      constructor
      · rintro (rfl | ⟨h, -⟩)
        · apply absurd rfl hname
        · apply h
      · intro h
        apply Or.inr ⟨h, Ne.symm hname⟩

theorem mem_firstByName_of_named? (h : named? facts x = some c) :
  c ∈ firstByName facts
  := by
  rw [mem_firstByName_iff, name_of_named? h, h]

/-- A class with one method, which calls one receiver after the other. -/
def calling (name : String) (receivers : List String) : ClassFacts :=
  ⟨name, defaultPackage, "", [], [], [⟨"run", 0, 1, receivers.map fun r => ⟨"call", r, 0⟩⟩]⟩

/-- The first class of each name is listed once. -/
theorem nodup_firstByName (facts : List ClassFacts) :
  (firstByName facts).Nodup
  := by
  apply (pairwise_firstByName facts).imp
  rintro c _ hne rfl
  apply hne rfl

/-- Traffic between two classes does not depend on which of them is named first. -/
theorem traffic_comm (c d : ClassFacts) :
  c.traffic d = d.traffic c
  := Nat.add_comm _ _

/-! ### Cross calls -/

/-- The calls of a class on the others of some names. -/
def callsOnOthers (c : ClassFacts) (names : List String) : List CrossCall :=
  (c.calls.filter fun s => s.receiver ≠ c.name ∧ s.receiver ∈ names).map (⟨c.name, ·⟩)

/-- The calls between the classes of a list, of which the first of each name counts. -/
def crossCalls (facts : List ClassFacts) : List CrossCall :=
  (firstByName facts).flatMap (·.callsOnOthers (facts.map ClassFacts.name))

/-- The calls on others are the calls of a class on listed names that are not its own. -/
theorem mem_callsOnOthers {names : List String} {call : CrossCall} :
  call ∈ c.callsOnOthers names
    ↔ call.caller = c.name ∧ call.site ∈ c.calls ∧ call.site.receiver ≠ c.name
      ∧ call.site.receiver ∈ names
  := by
  obtain ⟨caller, site⟩ := call
  simp only [callsOnOthers, List.mem_map, List.mem_filter, decide_eq_true_iff,
    CrossCall.mk.injEq]
  constructor
  · rintro ⟨s, ⟨hs, hne, hmem⟩, rfl, rfl⟩
    use rfl
  · rintro ⟨rfl, hs, hne, hmem⟩
    use site

/-- Among these calls those on one name are as many as the class makes to it. -/
theorem countP_callsOnOthers {names : List String} (hy : y ∈ names) (hne : c.name ≠ y) :
  (c.callsOnOthers names).countP (fun call => call.caller = c.name ∧ call.site.receiver = y)
    = c.callsTo y
  := by
  rw [callsOnOthers, List.countP_map, List.countP_filter, callsTo]
  apply List.countP_congr
  intro s _
  simp only [Function.comp_apply, true_and, Bool.and_eq_true, decide_eq_true_iff]
  apply and_iff_left_of_imp
  rintro rfl
  use hne.symm

/-- The cross calls of one class on another are its calls with that receiver. -/
theorem countP_crossCalls (hc : named? facts x = some c) (hy : y ∈ facts.map ClassFacts.name)
    (hne : x ≠ y) :
  (crossCalls facts).countP (fun call => call.caller = x ∧ call.site.receiver = y) = c.callsTo y
  := by
  obtain rfl := name_of_named? hc
  -- Only `c` itself makes calls under its name.
  have hother (d : ClassFacts) (hdc : d ≠ c) (hd : d ∈ firstByName facts) :
      (d.callsOnOthers (facts.map ClassFacts.name)).countP
        (fun call => call.caller = c.name ∧ call.site.receiver = y) = 0 := by
    rw [List.countP_eq_zero]
    intro call hcall hcaller
    obtain ⟨hcaller, -⟩ := of_decide_eq_true hcaller
    rw [(mem_callsOnOthers.mp hcall).1] at hcaller
    rw [mem_firstByName_iff, hcaller, hc] at hd
    apply hdc (Option.some.inj hd).symm
  rw [crossCalls, List.countP_flatMap]
  apply (List.sum_map_eq_nsmul_single c _ hother).trans
  rw [List.count_eq_one_of_mem (nodup_firstByName facts) (mem_firstByName_of_named? hc), one_nsmul]
  apply countP_callsOnOthers hy hne

/-- The traffic of two classes are the cross calls of their pair. -/
theorem countP_pair_crossCalls (hc : named? facts x = some c) (hd : named? facts y = some d)
    (hne : x ≠ y) :
  (crossCalls facts).countP (fun call => call.pair = .of x y) = c.traffic d
  := by
  have hx := exists_named?_iff.mp ⟨c, hc⟩
  have hy := exists_named?_iff.mp ⟨d, hd⟩
  simp only [CrossCall.pair, NamePair.of_eq_of_iff]
  rw [countP_or, countP_crossCalls hc hy hne, countP_crossCalls hd hx hne.symm, traffic,
    name_of_named? hc, name_of_named? hd]
  rintro call - ⟨hcaller, -⟩ ⟨hcaller', -⟩
  apply hne (hcaller.symm.trans hcaller')

/-- A cross call goes from one of the classes that count to another one. -/
theorem exists_named?_of_mem_crossCalls {call : CrossCall} (h : call ∈ crossCalls facts) :
  call.caller ≠ call.site.receiver
    ∧ (∃ c, named? facts call.caller = some c) ∧ ∃ d, named? facts call.site.receiver = some d
  := by
  obtain ⟨c, hc, hcall⟩ := List.mem_flatMap.mp h
  obtain ⟨hcaller, -, hne, hmem⟩ := mem_callsOnOthers.mp hcall
  obtain ⟨d, hd⟩ := exists_named?_iff.mpr hmem
  rw [hcaller]
  use hne.symm, ⟨c, mem_firstByName_iff.mp hc⟩, d

/-- Counted by pair, the cross calls are all counted once. -/
theorem total_countP_crossCalls {pairs : List NamePair} (hpairs : pairs.Nodup)
    (h : ∀ call ∈ crossCalls facts, call.pair ∈ pairs) :
  total (pairs.map fun p => (crossCalls facts).countP fun call => call.pair = p)
    = (crossCalls facts).length
  := by
  rw [total_countP CrossCall.pair hpairs, List.countP_eq_length]
  intro call hcall
  apply decide_eq_true (h call hcall)

end ClassFacts

end Cohesion

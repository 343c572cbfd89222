import Cohesion.Coupling
import Cohesion.Proofs.NameSet

/-!
# The classes of a coupling map

The classes of a coupling map are the names that occur in one of its pairs:
`CouplingMap.mem_classes`.  A map without pairs is the only one without classes.
-/

namespace Cohesion

namespace CouplingMap

variable {S : Type} {m : CouplingMap S}

/-- The rows of a map are its entries, each with its pair. -/
theorem mem_rows {r : CouplingRow S} :
  r ∈ m.rows ↔ m.pairs[r.pair]? = some ⟨r.calls, r.weight⟩
  := by
  rw [rows, List.mem_map, ← Std.ExtTreeMap.mem_toList_iff_getElem?_eq_some]
  constructor
  · rintro ⟨⟨p, c⟩, h, rfl⟩
    apply h
  · intro h
    use (r.pair, ⟨r.calls, r.weight⟩), h

/-- A pair has an entry when it is the pair of a row. -/
theorem exists_mem_rows {p : NamePair} :
  (∃ r ∈ m.rows, r.pair = p) ↔ p ∈ m.pairs
  := by
  rw [Std.ExtTreeMap.mem_iff_isSome_getElem?, Option.isSome_iff_exists]
  constructor
  · rintro ⟨r, hr, rfl⟩
    use ⟨r.calls, r.weight⟩, mem_rows.mp hr
  · rintro ⟨c, hc⟩
    use ⟨p, c.calls, c.weight⟩, mem_rows.mpr hc

/-- The classes are the names that occur in some pair. -/
theorem mem_classes {x : String} :
  x ∈ m.classes ↔ ∃ p ∈ m.pairs, x = p.first ∨ x = p.second
  := by
  rw [classes, NameSet.mem_ofList, List.mem_flatMap]
  simp only [List.mem_cons, List.not_mem_nil, or_false]
  constructor
  · rintro ⟨r, hr, hx⟩
    use r.pair, exists_mem_rows.mp ⟨r, hr, rfl⟩
  · rintro ⟨p, hp, hx⟩
    obtain ⟨r, hr, rfl⟩ := exists_mem_rows.mpr hp
    use r, hr

/-- Only a map without pairs has no classes. -/
theorem classes_eq_empty_iff :
  m.classes = ∅ ↔ m.pairs = ∅
  := by
  rw [Std.ExtTreeMap.eq_empty_iff_forall_not_mem]
  constructor
  · intro h p hp
    have hfirst : p.first ∈ m.classes := mem_classes.mpr ⟨p, hp, Or.inl rfl⟩
    rw [h] at hfirst
    apply NameSet.not_mem_empty p.first hfirst
  · intro h
    ext x
    constructor
    · intro hx
      obtain ⟨p, hp, -⟩ := mem_classes.mp hx
      apply absurd hp (h p)
    · intro hx
      apply absurd hx (NameSet.not_mem_empty x)

/-- A map has no pairs exactly when it has no classes. -/
theorem isEmpty_pairs_iff :
  m.pairs.isEmpty ↔ m.classes = ∅
  := by
  rw [classes_eq_empty_iff]
  apply Std.ExtTreeMap.isEmpty_iff

end CouplingMap

end Cohesion

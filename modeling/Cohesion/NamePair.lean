import Std.Data.ExtTreeMap

/-!
# Unordered pairs of class names

A `NamePair` holds two names of which the first is at most the second, so that a pair and the same
pair the other way round are one value: `NamePair.of_comm`.  Both names may be the same.  Pairs are
ordered by their first and then by their second name; `NamePair` keys the map of couplings.
-/

namespace Cohesion

/-- Two names in no particular order, held with the smaller one first. -/
structure NamePair where
  first : String
  second : String
  first_le_second : first ≤ second
  deriving DecidableEq

namespace NamePair

/-- The pair of two names, given in either order. -/
def of (a b : String) : NamePair :=
  if h : a ≤ b then ⟨a, b, h⟩
  else ⟨b, a, (String.le_total a b).resolve_left h⟩

theorem of_of_le {a b : String} (h : a ≤ b) :
  of a b = ⟨a, b, h⟩
  := dif_pos h

/-- The two names of a pair may be exchanged. -/
theorem of_comm (a b : String) :
  of a b = of b a
  := by
  rcases String.le_total a b with hab | hba
  · by_cases hba : b ≤ a
    · rw [String.le_antisymm hab hba]
    · rw [of_of_le hab, of, dif_neg hba]
  · by_cases hab : a ≤ b
    · rw [String.le_antisymm hab hba]
    · rw [of_of_le hba, of, dif_neg hab]

@[simp]
theorem of_first_second (p : NamePair) :
  of p.first p.second = p
  := of_of_le p.first_le_second

/-- Whether `x` is one of the two names. -/
def contains (p : NamePair) (x : String) : Bool :=
  p.first == x || p.second == x

/-- The name that is paired with `x`, if `x` is one of the two. -/
def other? (p : NamePair) (x : String) : Option String :=
  if p.first = x then some p.second
  else if p.second = x then some p.first
  else none

/-- The pair in parentheses, the smaller name first. -/
def text (p : NamePair) : String :=
  "(" ++ p.first ++ ", " ++ p.second ++ ")"

/-! ### Order -/

instance : Ord NamePair :=
  ⟨compareLex (compareOn first) (compareOn second)⟩

theorem compare_eq (p q : NamePair) :
  compare p q = compareLex (compareOn first) (compareOn second) p q
  := rfl

instance : Std.TransOrd NamePair :=
  inferInstanceAs (Std.TransCmp (compareLex (compareOn first) (compareOn second)))

instance : Std.LawfulEqOrd NamePair where
  eq_of_compare {p q} h := by
    obtain ⟨a, b, hab⟩ := p
    obtain ⟨c, d, hcd⟩ := q
    rw [compare_eq, compareLex, Ordering.then_eq_eq] at h
    obtain ⟨h₁, h₂⟩ := h
    have hac : a = c := Std.LawfulEqOrd.eq_of_compare h₁
    have hbd : b = d := Std.LawfulEqOrd.eq_of_compare h₂
    subst hac
    subst hbd
    rfl

end NamePair

end Cohesion

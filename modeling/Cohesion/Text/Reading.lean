/-!
# Reading a text

What reads a part of a text returns the rest of it together with a proof that the rest is no longer
than the text, which bounds every loop over it.  A text is a list of characters or of bytes.  Wherever
a text writes a character or a number by its hexadecimal digits, these are read alike.
-/

namespace Cohesion

/-! ### The rest of a text -/

/-- The rest of a text after something was taken off it. -/
abbrev Rest {α : Type} (text : List α) := { rest : List α // rest.length ≤ text.length }

namespace Rest

/-- The rest of a text of which nothing was taken. -/
def whole {α : Type} (text : List α) : Rest text :=
  ⟨text, Nat.le_refl _⟩

/-- A rest of what follows the first item of a text. -/
def behind {α : Type} {x : α} {text : List α} (rest : Rest text) : Rest (x :: text) :=
  ⟨rest.1, Nat.le_succ_of_le rest.2⟩

/-- What follows the first item of a text, if there is one. -/
def behindFirst {α : Type} (text : List α) : Rest text :=
  ⟨text.tail, by rw [List.length_tail]; exact Nat.sub_le _ _⟩

/-- What follows the items at the front of a text that satisfy a condition. -/
def dropWhile {α : Type} (p : α → Bool) (text : List α) : Rest text :=
  ⟨text.dropWhile p, (List.dropWhile_sublist p).length_le⟩

/-- A rest of a rest. -/
def within {α : Type} {text : List α} (outer : Rest text) (inner : Rest outer.1) : Rest text :=
  ⟨inner.1, Nat.le_trans inner.2 outer.2⟩

end Rest

/-! ### Hexadecimal digits -/

/-- The value of a hexadecimal digit. -/
def hexValue? (c : Char) : Option Nat :=
  if '0' ≤ c && c ≤ '9' then some (c.toNat - '0'.toNat)
  else if 'a' ≤ c && c ≤ 'f' then some (c.toNat - 'a'.toNat + 10)
  else if 'A' ≤ c && c ≤ 'F' then some (c.toNat - 'A'.toNat + 10)
  else none

/-- The number that hexadecimal digits write, after the digits of `acc`. -/
def hexNumber? (cs : List Char) (acc : Nat) : Option Nat :=
  cs.foldlM (fun n c => (hexValue? c).map (16 * n + ·)) acc

end Cohesion

import Cohesion.Text.Lines
import Cohesion.Text.Reading

/-!
# Modes of a regular expression

Flags within a regular expression decide how what follows them is read: whether it is about characters
or about bytes, and whether blanks and comments count.
-/

namespace Cohesion

namespace Regex

/-- How an expression is read. -/
structure Mode where
  /-- It is about characters; otherwise it is about bytes. -/
  unicode : Bool
  /-- Blanks do not count, and neither does what stands between a number sign and the end of a line. -/
  spaced : Bool

/-- What follows blanks and comments. -/
def afterSpace (inComment : Bool) : List Char → List Char
  | [] => []
  | c :: cs =>
    if inComment then afterSpace (c ≠ '\n') cs
    else if isBlank c then afterSpace false cs
    else if c = '#' then afterSpace true cs
    else c :: cs

theorem length_afterSpace_le (inComment : Bool) (cs : List Char) :
  (afterSpace inComment cs).length ≤ cs.length
  := by
  induction cs generalizing inComment with
  | nil => simp [afterSpace]
  | cons c cs ih =>
    simp only [afterSpace]
    split
    · exact Nat.le_succ_of_le (ih _)
    · split
      · exact Nat.le_succ_of_le (ih _)
      · split
        · exact Nat.le_succ_of_le (ih _)
        · exact Nat.le_refl _

namespace Mode

/-- The mode in which an expression starts. -/
def start : Mode :=
  ⟨true, false⟩

/-- What follows at the next character that counts. -/
def skip (m : Mode) (cs : List Char) : Rest cs :=
  if m.spaced then ⟨afterSpace false cs, length_afterSpace_le false cs⟩ else .whole cs

/-- The mode after flags, each with what it is set to. -/
def withFlags (m : Mode) (flags : List (Char × Bool)) : Mode :=
  ⟨(flags.lookup 'u').getD m.unicode, (flags.lookup 'x').getD m.spaced⟩

end Mode

end Regex

end Cohesion

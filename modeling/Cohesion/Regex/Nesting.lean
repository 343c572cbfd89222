import Cohesion.Regex.Mode

/-!
# Nesting of regular expressions

A repetition, a group and a choice between branches are nested one level deeper than what they hold, and
so is a branch of several pieces.  Here are a branch and a group of which a part is read.
-/

namespace Cohesion

namespace Regex

/-- The depth to which an expression may be nested. -/
def maxNesting : Nat := 250

/-- A branch under way. -/
structure Branch where
  /-- The number of its pieces and how deep they are nested. -/
  pieces : Nat
  inner : Nat
  /-- How deep the last piece is nested, if it is one that can be repeated. -/
  last : Option Nat

namespace Branch

/-- A branch without pieces. -/
def empty : Branch :=
  ⟨0, 0, none⟩

/-- The branch with another piece, which is nested so deep. -/
def push (b : Branch) (nesting : Nat) : Branch :=
  ⟨b.pieces + 1, max b.inner nesting, some nesting⟩

/-- The branch with flags as another piece. -/
def pushFlags (b : Branch) : Branch :=
  ⟨b.pieces + 1, b.inner, none⟩

/-- The branch with its last piece repeated. -/
def repeated? (b : Branch) : Option Branch :=
  b.last.map fun nesting => ⟨b.pieces, max b.inner (nesting + 1), some (nesting + 1)⟩

/-- How deep the branch is nested. -/
def nesting (b : Branch) : Nat :=
  if b.pieces ≤ 1 then b.inner else b.inner + 1

end Branch

/-- A group under way, or the whole expression. -/
structure Level where
  /-- How what follows is read. -/
  mode : Mode
  /-- How deep the branches in front of it are nested, if there are any. -/
  before : Option Nat
  /-- The branch under way. -/
  branch : Branch

namespace Level

/-- The start of a group. -/
def start (m : Mode) : Level :=
  ⟨m, none, .empty⟩

/-- How deep the contents of the group are nested. -/
def nesting (l : Level) : Nat :=
  match l.before with
  | none => l.branch.nesting
  | some before => max before l.branch.nesting + 1

/-- The group with another piece in its branch. -/
def push (l : Level) (nesting : Nat) : Level :=
  { l with branch := l.branch.push nesting }

/-- The group in another mode. -/
def withMode (l : Level) (m : Mode) : Level :=
  { l with mode := m, branch := l.branch.pushFlags }

/-- The group in front of its next branch. -/
def nextBranch (l : Level) : Level :=
  { l with before := some (max (l.before.getD 0) l.branch.nesting), branch := .empty }

/-- The group with its last piece repeated. -/
def repeated? (l : Level) : Option Level :=
  l.branch.repeated?.map fun branch => { l with branch := branch }

end Level

end Regex

end Cohesion

import Cohesion.Text.Lines

/-!
# Globs

A glob is a pattern for the texts of paths.  It is matched byte by byte: `Glob.rests` lists what can
be left of a text when a glob has matched the front of it, and the glob matches the texts of which
nothing is left.
-/

namespace Cohesion

/-- A part of a glob. -/
inductive GlobPart where
  | char (c : Char)
  /-- One byte other than a slash. -/
  | anyByte
  /-- Any bytes other than slashes. -/
  | anyName
  /-- Nothing, or anything up to a slash. -/
  | anyParents
  /-- A slash and whatever comes after it. -/
  | anyInside
  /-- A slash, or anything between two slashes and these. -/
  | anyBetween
  /-- One byte within these ranges, or outside of them. -/
  | oneOf (outside : Bool) (ranges : List (UInt8 × UInt8))
  /-- One of these lists of parts; no list stands for nothing. -/
  | choice (branches : List (List GlobPart))

/-- A pattern for the texts of paths. -/
abbrev Glob := List GlobPart

/-- The byte that separates the names of a path. -/
def slash : UInt8 := 47

/-- What follows each slash of a text. -/
def afterSlashes : List UInt8 → List (List UInt8)
  | [] => []
  | b :: bs => if b = slash then bs :: afterSlashes bs else afterSlashes bs

/-- What is left of a text after any number of bytes that are no slashes. -/
def afterName : List UInt8 → List (List UInt8)
  | [] => [[]]
  | b :: bs => (b :: bs) :: if b = slash then [] else afterName bs

/-- All ends of a text. -/
def suffixes : List UInt8 → List (List UInt8)
  | [] => [[]]
  | b :: bs => (b :: bs) :: suffixes bs

/-- Whether a byte lies within one of some ranges. -/
def inRanges (ranges : List (UInt8 × UInt8)) (b : UInt8) : Bool :=
  ranges.any fun (low, high) => low ≤ b && b ≤ high

mutual

/-- What can be left of a text after a part of a glob. -/
def GlobPart.rests : GlobPart → List UInt8 → List (List UInt8)
  | .char c, s => ((String.utf8EncodeChar c).isPrefixOf? s).toList
  | .anyByte, [] => []
  | .anyByte, b :: bs => if b = slash then [] else [bs]
  | .anyName, s => afterName s
  | .anyParents, s => s :: afterSlashes s
  | .anyInside, [] => []
  | .anyInside, b :: bs => if b = slash then suffixes bs else []
  | .anyBetween, [] => []
  | .anyBetween, b :: bs => if b = slash then bs :: afterSlashes bs else []
  | .oneOf _ _, [] => []
  | .oneOf outside ranges, b :: bs => if inRanges ranges b = outside then [] else [bs]
  | .choice [], s => [s]
  | .choice (branch :: branches), s => Glob.rests branch [s] ++ GlobPart.restsOfBranches branches s

/-- What can be left of texts after all parts of a glob. -/
def Glob.rests : List GlobPart → List (List UInt8) → List (List UInt8)
  | [], texts => texts
  | part :: parts, texts => Glob.rests parts (texts.flatMap fun s => part.rests s).eraseDups

/-- What can be left of a text after one of some branches. -/
def GlobPart.restsOfBranches : List (List GlobPart) → List UInt8 → List (List UInt8)
  | [], _ => []
  | branch :: branches, s => Glob.rests branch [s] ++ GlobPart.restsOfBranches branches s

end

/-- Whether a glob matches a text.  The glob of any parents and nothing below them matches all. -/
def Glob.matchesText (g : Glob) (s : String) : Bool :=
  match g with
  | [.anyParents] => true
  | g => (Glob.rests g [bytesOf s]).contains []

end Cohesion

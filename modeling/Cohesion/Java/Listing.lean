import Cohesion.Java.Node

/-!
# Listings of syntax trees

A listing of a syntax tree has the nodes in pre-order, one a line and tabs between the fields of a line:
the depth, the kind, the field of the parent, the first byte and the byte after the last one, and the
flags `a` for an anonymous node and `m` for a missing one.
-/

namespace Cohesion

namespace Java

/-- The node of a line of a listing. -/
def NodeRow.ofLine? (line : String) : Option NodeRow :=
  match line.splitOn "\t" with
  | [depth, kind, field, start, stop, flags] => do
    let letters := flags.toList
    return ⟨← depth.toNat?, ⟨kind, field, ← start.toNat?, ← stop.toNat?, !letters.contains 'a',
      letters.contains 'm'⟩⟩
  | _ => none

/-- The tree that a listing shows. -/
def Node.ofListing? (listing : String) : Option Node :=
  (((listing.splitOn "\n").filter (!·.isEmpty)).mapM NodeRow.ofLine?).bind Node.ofRows?

end Java

end Cohesion

import Cohesion.Analysis
import Cohesion.Json

/-!
# Answers

Every answer of an analysis as a structured value.  The members of an object stand in one fixed
order; lists that are usually empty are left out when they are.
-/

namespace Cohesion

/-- A list that is left out when it is empty. -/
def Json.nonempty (items : List Json) : Option Json :=
  if items.isEmpty then none else some (.list items)

/-- The members of a set, in ascending order. -/
def NameSet.toJson (s : NameSet) : Json :=
  .texts s.names

def NamePair.toJson (p : NamePair) : Json :=
  .texts [p.first, p.second]

def CallSite.toJson (c : CallSite) : Json :=
  .object [("method", .text c.method), ("receiver", .text c.receiver), ("line", .nat c.line)]

def MethodFacts.toJson (m : MethodFacts) : Json :=
  .object [("name", .text m.name), ("params", .nat m.params), ("lines", .nat m.lines),
    ("calls", .list (m.calls.map CallSite.toJson))]

def FieldFacts.toJson (f : FieldFacts) : Json :=
  .object [("name", .text f.name), ("type", .text f.type), ("visibility", .text f.visibility.text)]

def ClassFacts.toJson (c : ClassFacts) : Json :=
  .present [("name", some (.text c.name)), ("package", some (.text c.package)),
    ("path", some (.text c.path)), ("supertypes", Json.nonempty (c.supertypes.map .text)),
    ("fields", Json.nonempty (c.fields.map FieldFacts.toJson)),
    ("methods", some (.list (c.methods.map MethodFacts.toJson)))]

def ProjectFacts.toJson (p : ProjectFacts) : Json :=
  .object [("files_scanned", .nat p.filesScanned), ("parse_errors", .nat p.parseErrors),
    ("classes", .list (p.classes.map ClassFacts.toJson))]

def CouplingRow.toJson (r : CouplingRow Float) : Json :=
  .object [("a", .text r.pair.first), ("b", .text r.pair.second), ("calls", .nat r.calls),
    ("weight", .number r.weight)]

def WeightsAnswer.toJson (w : WeightsAnswer) : Json :=
  .object [("total_calls", .nat w.totalCalls), ("classes", .texts w.classes),
    ("pairs", .list (w.pairs.map CouplingRow.toJson)),
    ("edges", .list (w.edges.map CouplingRow.toJson))]

def PairReport.toJson (r : PairReport Float) : Json :=
  .object [("class_a", .text r.classA), ("class_b", .text r.classB),
    ("calls_a_to_b", .nat r.callsAToB), ("calls_b_to_a", .nat r.callsBToA),
    ("total_calls", .nat r.totalCalls), ("coupling", .number r.share)]

def Merge.toJson (m : Merge Float) : Json :=
  .object [("left", m.left.toJson), ("right", m.right.toJson), ("score", .number m.score)]

def ClustersAnswer.toJson (c : ClustersAnswer) : Json :=
  .object [("class_count", .nat c.classCount), ("steps", .nat c.steps),
    ("clusters", .list (c.clusters.map NameSet.toJson)),
    ("merges", .list (c.merges.map Merge.toJson))]

def Dendrogram.View.toJson : View Float → Json
  | .leaf members height depth =>
    .object [("members", members.toJson), ("height", .number height), ("depth", .nat depth)]
  | .join members height depth left right =>
    .object [("members", members.toJson), ("height", .number height), ("depth", .nat depth),
      ("children", .list [left.toJson, right.toJson])]

def DendrogramAnswer.toJson (d : DendrogramAnswer) : Json :=
  .present [("class_count", some (.nat d.classCount)), ("leaves", some (.texts d.leaves)),
    ("root", d.root.map Dendrogram.View.toJson)]

def Module.toJson (m : Module Float) : Json :=
  .object [("classes", m.classes.toJson), ("avg_coupling", .number m.cohesion)]

def ModulesAnswer.toJson (m : ModulesAnswer) : Json :=
  .object [("cp", .number m.point), ("mode", .text m.mode.text), ("class_count", .nat m.classCount),
    ("max_modules", .nat m.maxModules), ("modules", .list (m.modules.map Module.toJson))]

end Cohesion

import Cohesion.Answer
import Cohesion.Request

/-!
# Responses

`Analysis.respond` answers a request from an analysis.  A request that leaves something open gets the
standard for it: a cut, no least percentage, and all steps.  If there is no answer the response is an
error with the code and the message of the failure: `Failure.answer`.
-/

namespace Cohesion

/-! ### Errors -/

namespace Failure

/-- The failure as an object of its own. -/
def toJson (f : Failure) : Json :=
  .object [("code", .text f.code.name), ("message", .text f.message)]

/-- An answer that consists of an error. -/
def errorAnswer (code message : String) : Json :=
  .object [("error", .object [("code", .text code), ("message", .text message)])]

/-- The failure as the answer to a question. -/
def answer (f : Failure) : Json :=
  errorAnswer f.code.text f.message

end Failure

/-! ### Answers -/

/-- The answer to a request.  A cut that the request leaves open is the cut `standard`. -/
def Analysis.respond (a : Analysis) (standard : Cut Float) (r : Request) : Except Failure Json :=
  match r.command with
  | .facts => .ok a.facts.toJson
  | .weights => (a.weights (r.percent.getD 0.0)).map WeightsAnswer.toJson
  | .coupling =>
    match r.first, r.second with
    | some first, some second => (a.pair first second).map PairReport.toJson
    | _, _ => .error .incompletePair
  | .cluster => .ok (a.clusters r.steps).toJson
  | .dendrogram => .ok a.tree.toJson
  | .modules =>
    (a.modules (r.point.getD standard.point) (r.mode.getD standard.mode)).map ModulesAnswer.toJson

end Cohesion

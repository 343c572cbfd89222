import Cohesion.Files.Environment
import Cohesion.Glob.Expression
import Cohesion.Glob.Pattern
import Cohesion.Text.Lines

/-!
# Ignore rules

A line of an ignore file is a glob for the paths to leave out, or, after an exclamation mark, for
those to keep.  A glob without a slash in front of its last character matches at any depth, and one
that ends with a slash matches directories only.  Of the rules that match a path the last one decides.
The rules of a file count together: if one of them is nested too deep, none of them counts.
-/

namespace Cohesion

/-- What a rule says about the paths that it matches. -/
inductive Verdict where
  | leaveOut
  | keep
  deriving DecidableEq

/-- One line of an ignore file. -/
structure IgnoreRule where
  glob : Glob
  verdict : Verdict
  directoriesOnly : Bool

/-- What is wrong with an ignore file. -/
inductive IgnoreFault where
  /-- A line is no rule. -/
  | badLine (path : String) (line : Nat) (glob : String) (fault : GlobFault)
  /-- A line is no text, and all that follows it is not read. -/
  | notText (path : String) (line : Nat)
  | unreadable (path : String) (fault : FileFault)
  /-- A rule is nested too deep. -/
  | tooDeep (fault : NestingFault)

namespace IgnoreRule

/-- A fault of a glob in words. -/
def faultMessage (glob : String) (fault : GlobFault) : String :=
  "error parsing glob '" ++ glob ++ "': " ++ fault.message

/-- A line without the blanks at its end, unless the last of them is escaped. -/
def trimEnd (cs : List Char) : List Char :=
  match cs.reverse with
  | ' ' :: '\\' :: _ => cs
  | back => (back.dropWhile isBlank).reverse

/-- Whether a line ends with these characters. -/
def endsWith (cs ending : List Char) : Bool :=
  ending.reverse.isPrefixOf cs.reverse

/-- The glob of a line, which is anchored to the directory of the rule or to no directory.  Behind a
slash, two asterisks at the end match what is inside a directory but not the directory itself. -/
def globText (anchored : Bool) (cs : List Char) : List Char :=
  let cs :=
    if anchored || cs.contains '/' || cs = ['*', '*'] then cs else '*' :: '*' :: '/' :: cs
  if endsWith cs ['/', '*', '*'] then cs ++ ['/', '*'] else cs

/-- The rule of a line, if it is one.  With `plain`, a bracket that is not closed stands for
itself. -/
def ofLine? (plain : Bool) (line : String) : Except (String × GlobFault) (Option IgnoreRule) :=
  let cs := trimEnd line.toList
  if line.toList.head? = some '#' || cs.isEmpty then .ok none
  else
    let (verdict, anchored, body) : Verdict × Bool × List Char := match cs with
      | '\\' :: '!' :: rest => (.leaveOut, false, '!' :: rest)
      | '\\' :: '#' :: rest => (.leaveOut, false, '#' :: rest)
      | '!' :: '/' :: rest => (.keep, true, rest)
      | '!' :: rest => (.keep, false, rest)
      | '/' :: rest => (.leaveOut, true, rest)
      | cs => (.leaveOut, false, cs)
    let (directoriesOnly, body) : Bool × List Char := match body.reverse with
      | '/' :: '\\' :: back => (true, back.reverse)
      | '/' :: back => (true, back.reverse)
      | _ => (false, body)
    match Glob.ofText plain (String.ofList (globText anchored body)) with
    | .error fault => .error (String.ofList cs, fault)
    | .ok glob => .ok (some ⟨glob, verdict, directoriesOnly⟩)

end IgnoreRule

/-- A fault in words. -/
def IgnoreFault.message : IgnoreFault → String
  | .badLine path line glob fault =>
    path ++ ": line " ++ toString line ++ ": " ++ IgnoreRule.faultMessage glob fault
  | .notText path line => path ++ ": line " ++ toString line ++ ": " ++ FileFault.notText.message
  | .unreadable path fault => path ++ ": " ++ fault.message
  | .tooDeep fault => fault.message

namespace IgnoreRules

/-- The verdict of the last rule that matches the path of a directory or of a file. -/
def verdict? (rules : List IgnoreRule) (path : String) (isDirectory : Bool) : Option Verdict :=
  (rules.reverse.find? fun rule =>
    (isDirectory || !rule.directoriesOnly) && rule.glob.matchesText path).map (·.verdict)

/-- The texts of the lines of a file up to the first one that is no text.  A byte order mark in front
of the first line does not count. -/
def textLines (lines : List (Option String)) : List String :=
  match (lines.takeWhile Option.isSome).filterMap id with
  | first :: rest => String.ofList (first.toList.dropWhile (· = '\ufeff')) :: rest
  | [] => []

/-- The rules of lines, and what is wrong with the others.  It is no fault of its own that a line is no
text. -/
def ofLines (path : String) (lines : List (Option String)) : List IgnoreRule × List IgnoreFault :=
  let texts := textLines lines
  let results := texts.map (IgnoreRule.ofLine? true)
  let faults := results.zipIdx.filterMap fun
    | (.error (glob, fault), i) => some (.badLine path (i + 1) glob fault)
    | _ => none
  let cut := if texts.length < lines.length then [.notText path (texts.length + 1)] else []
  (results.filterMap fun
      | .ok rule => rule
      | .error _ => none,
    if faults.isEmpty then [] else faults ++ cut)

/-- The rules of the file that a path leads to, and what is wrong with it.  There are none without such
a file. -/
def ofFile (e : Environment) (path : String) : List IgnoreRule × List IgnoreFault :=
  match e.content? path with
  | none => ([], [])
  | some content =>
    let (rules, faults) := ofLines path ((splitLines content.toList).map lineText?)
    match nestingFault? (rules.map (·.glob)) with
    | some fault => ([], faults ++ [.tooDeep fault])
    | none => (rules, faults)

end IgnoreRules

end Cohesion

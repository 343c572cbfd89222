import Cohesion.Json.Printer
import Cohesion.Response
import Cohesion.Text.Lines

/-!
# Sessions

A session reads one request a line and answers each with one line of JSON text, in which the members
of every object are ordered by name.  What answers the requests may have effects; it is a `Handler` if
it has none.  Blank lines have no answer, and a line that holds no request is answered with an error.
Only a line that is no UTF-8 text ends the session before its input ends.
-/

namespace Cohesion

/-- What answers requests.  A handler that fails itself does so with `Failure.io` and its reason, and the
session answers in its place; any other failure is an error that the handler answers with. -/
abbrev Handler := Request → Except Failure Json

namespace Session

/-- The longest line that is read, in bytes and without the blanks around it. -/
def maxLineSize : Nat := 1024 * 1024

/-- The line that holds an answer.  The error of a handler that fails itself, which the session words as
an `IO_ERROR`, is put like the errors that a handler answers with. -/
def answerLine : Except Failure Json → String
  | .ok answer => answer.sortKeys.compact
  | .error failure => failure.answer.sortKeys.compact

/-- What a session writes, and what ended it before its input did. -/
structure Transcript where
  lines : List String
  failure : Option Failure

section

variable {m : Type → Type} [Monad m] (handler : Request → m (Except Failure Json))

/-- The answer to a text that is no blank. -/
def respondToText (s : String) : m (Except Failure Json) :=
  if maxLineSize < s.utf8ByteSize then return .error (.lineTooLong s.utf8ByteSize maxLineSize)
  else
    match Request.read (bytesOf s) with
    | .error fault => return .error (.noRequest fault.message)
    | .ok request => handler request

/-- The line that answers a line, if it is answered. -/
def respondToLine? (line : String) : m (Option String) :=
  let s := trim line
  if s.isEmpty then return none
  else return some (answerLine (← respondToText handler s))

/-- Answers lines after those of `written`, which are in reverse. -/
def transcript : List (List UInt8) → List String → m Transcript
  | [], written => return ⟨written.reverse, none⟩
  | line :: lines, written =>
    match lineText? line with
    | none => return ⟨written.reverse, some .notText⟩
    | some text => do
      match ← respondToLine? handler text with
      | none => transcript lines written
      | some answer => transcript lines (answer :: written)

/-- The whole session over an input. -/
def serve (input : List UInt8) : m Transcript :=
  transcript handler (splitLines input) []

end

/-- The whole session over an input, if answers have no effects. -/
def run (handler : Handler) (input : List UInt8) : Transcript :=
  Id.run (serve (fun request => pure (handler request)) input)

end Session

end Cohesion

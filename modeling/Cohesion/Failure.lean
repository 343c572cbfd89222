import Cohesion.Decimal.Text

/-!
# Failures

A `Failure` is the reason why a question has no answer.  `Failure.code` sorts the reasons into a few
kinds, and `Failure.message` puts one into words.
-/

namespace Cohesion

/-- The kinds of failure. -/
inductive FailureCode where
  | fileNotFound
  | parseError
  | ioError
  | invalidRequest
  | classNotFound
  | inconsistentDendrogram
  deriving DecidableEq

namespace FailureCode

/-- The code as answers show it. -/
def text : FailureCode → String
  | .fileNotFound => "FILE_NOT_FOUND"
  | .parseError => "PARSE_ERROR"
  | .ioError => "IO_ERROR"
  | .invalidRequest => "INVALID_REQUEST"
  | .classNotFound => "CLASS_NOT_FOUND"
  | .inconsistentDendrogram => "INCONSISTENT_DENDROGRAM"

/-- The code as a failure that is written as an object shows it. -/
def name : FailureCode → String
  | .fileNotFound => "FileNotFound"
  | .parseError => "ParseError"
  | .ioError => "IoError"
  | .invalidRequest => "InvalidRequest"
  | .classNotFound => "ClassNotFound"
  | .inconsistentDendrogram => "InconsistentDendrogram"

end FailureCode

/-- The largest source file that is read, in bytes. -/
def maxFileSize : Nat := 100 * 1024 * 1024

/-- Why a question has no answer. -/
inductive Failure where
  | fileNotFound (path : String)
  | directoryNotFound (directory : String)
  | notADirectory (directory : String)
  | fileTooLarge (size : Nat) (path : String)
  | unparsable (path : String)
  | classNotFound (name : String)
  | inconsistentMerges (step : Nat) (detail : String)
  /-- The least weight of an edge is no percentage. -/
  | badPercent (percent : Float)
  /-- The point of a cut is no number. -/
  | badPoint (point : Float)
  /-- A request for one pair leaves out a class. -/
  | incompletePair
  | lineTooLong (size limit : Nat)
  | noRequest (fault : String)
  /-- An input is no UTF-8 text. -/
  | notText
  | invalidRequest (message : String)
  | io (message : String)

namespace Failure

/-- The kind of a failure. -/
def code : Failure → FailureCode
  | .fileNotFound _ => .fileNotFound
  | .directoryNotFound _ => .fileNotFound
  | .notADirectory _ => .invalidRequest
  | .fileTooLarge _ _ => .invalidRequest
  | .unparsable _ => .parseError
  | .classNotFound _ => .classNotFound
  | .inconsistentMerges _ _ => .inconsistentDendrogram
  | .badPercent _ => .invalidRequest
  | .badPoint _ => .invalidRequest
  | .incompletePair => .invalidRequest
  | .lineTooLong _ _ => .invalidRequest
  | .noRequest _ => .invalidRequest
  | .notText => .ioError
  | .invalidRequest _ => .invalidRequest
  | .io _ => .ioError

/-- A failure in words. -/
def message : Failure → String
  | .fileNotFound path => "File not found: " ++ path
  | .directoryNotFound directory => "Directory not found: " ++ directory
  | .notADirectory directory => "Not a directory: " ++ directory
  | .fileTooLarge size path =>
    "File too large (" ++ toString size ++ " bytes > " ++ toString maxFileSize ++ " bytes): "
      ++ path
  | .unparsable path => "Failed to parse: " ++ path
  | .classNotFound name => "Class not found: " ++ name
  | .inconsistentMerges step detail =>
    "Invalid merge sequence at step " ++ toString step ++ ": " ++ detail
  | .badPercent percent =>
    "min_percent must be a non-negative number, got " ++ NumberStyle.message.text percent
  | .badPoint point => "cp must be a finite number, got " ++ NumberStyle.message.text point
  | .incompletePair => "coupling requires both \"a\" and \"b\""
  | .lineTooLong size limit =>
    "Input line exceeds maximum size (" ++ toString size ++ " bytes > " ++ toString limit
      ++ " bytes)"
  | .noRequest fault => "Invalid JSON request: " ++ fault
  | .notText => "stream did not contain valid UTF-8"
  | .invalidRequest message => message
  | .io message => message

/-- A failure with its code in front. -/
def text (f : Failure) : String :=
  "[" ++ f.code.text ++ "] " ++ f.message

end Failure

end Cohesion

import Cohesion.Proofs.Lines
import Cohesion.Proofs.OneLine
import Cohesion.Session
import Mathlib.Data.List.Forall2
import Mathlib.Data.List.TakeWhile

/-!
# Sessions answer line by line

The lines of a session up to one that is no text ask its questions, and each question is answered once
and by one line, in their order and whatever effects the answers have: `serve_eq`.  If the answers have
no effects then every line is answered as it is alone, `run_answers_each_line_alone`, and over a text
every line that is no blank is answered, `run_answers_each_line`.
-/

namespace Cohesion.Session

/-! ### The loop -/

/-- Whether a line is a text. -/
def isText (line : List UInt8) : Bool :=
  (lineText? line).isSome

/-- The text that a line asks with, if it is a text that is no blank. -/
def question? (line : List UInt8) : Option String :=
  ((lineText? line).map trim).filter (!·.isEmpty)

/-- The questions of lines, up to one that is no text. -/
def questions (lines : List (List UInt8)) : List String :=
  (lines.takeWhile isText).filterMap question?

/-- What ends a session over lines before its input ends. -/
def fault? (lines : List (List UInt8)) : Option Failure :=
  if lines.all isText then none else some .notText

section

variable {line : List UInt8} {text : String} (lines : List (List UInt8))

theorem isText_of_eq_some (h : lineText? line = some text) :
  isText line
  := by
  rw [isText, h]
  rfl

/-- A line that is text puts its question, if it has one, in front of those of the lines after it. -/
theorem questions_cons (h : isText line) :
  questions (line :: lines) = (question? line).toList ++ questions lines
  := by
  rw [questions, List.takeWhile_cons_of_pos h, List.filterMap_eq_flatMap_toList, List.flatMap_cons,
    questions, List.filterMap_eq_flatMap_toList]

/-- A line that is text leaves the fault to the lines after it. -/
theorem fault?_cons (h : isText line) :
  fault? (line :: lines) = fault? lines
  := by
  rw [fault?, List.all_cons, h, Bool.true_and]
  rfl

variable {m : Type → Type} [Monad m] [LawfulMonad m] (handler : Request → m (Except Failure Json))

/-- The line that answers a question. -/
def answerTo (question : String) : m String :=
  answerLine <$> respondToText handler question

/-- A line that is text is answered exactly when it puts a question. -/
theorem respondToLine?_eq (h : lineText? line = some text) :
  respondToLine? handler text
    = match question? line with
      | none => pure none
      | some question => some <$> answerTo handler question
  := by
  rw [respondToLine?, question?, h, Option.map_some, Option.filter_some]
  cases (trim text).isEmpty with
  | true => rfl
  | false =>
    simp only [answerTo, Functor.map_map]
    apply bind_pure_comp

/-- The loop answers every question once, in their order. -/
theorem transcript_eq (written : List String) :
  transcript handler lines written
    = (fun answers => ⟨written.reverse ++ answers, fault? lines⟩)
      <$> (questions lines).mapM (answerTo handler)
  := by
  induction lines generalizing written with
  | nil =>
    rw [transcript, questions, List.takeWhile_nil, List.filterMap_nil, List.mapM_nil, map_pure,
      List.append_nil]
    rfl
  | cons line lines ih =>
    rw [transcript]
    cases htext : lineText? line with
    | none =>
      -- The session ends here, and so do the questions.
      have hline : ¬ isText line := by rw [isText, htext]; decide
      rw [questions, List.takeWhile_cons_of_neg hline, List.filterMap_nil, List.mapM_nil, map_pure,
        List.append_nil, fault?, List.all_cons, Bool.of_not_eq_true hline]
      rfl
    | some text =>
      have hline := isText_of_eq_some htext
      simp only [respondToLine?_eq handler htext, questions_cons lines hline,
        fault?_cons lines hline]
      cases question? line with
      | none =>
        rw [pure_bind]
        apply ih
      | some question =>
        simp only [bind_map_left, ih, Option.toList_some, List.singleton_append, List.mapM_cons,
          map_bind, List.reverse_cons, List.append_assoc, bind_pure_comp, Functor.map_map]

/-- A session answers the questions of its input once, in their order. -/
theorem serve_eq (input : List UInt8) :
  serve handler input
    = (fun answers => ⟨answers, fault? (splitLines input)⟩)
      <$> (questions (splitLines input)).mapM (answerTo handler)
  := transcript_eq _ handler []

end

/-! ### Answers without effects -/

section

variable (handler : Handler) (input : List UInt8) (question : String)

/-- The line that answers a question. -/
def lineFor (question : String) : String :=
  Id.run (answerTo (fun request => pure (handler request)) question)

/-- A session answers the questions of its input in order, up to the first line that is no text. -/
theorem run_eq :
  run handler input
    = ⟨(questions (splitLines input)).map (lineFor handler), fault? (splitLines input)⟩
  := by
  rw [run, serve_eq, Id.run_map, List.idRun_mapM]
  rfl

/-- The line that tells of an error: an object whose one member `error` holds a code and a message. -/
def errorLine (code message : String) : String :=
  "\x7b\"error\":\x7b\"code\":" ++ Json.quote code ++ ",\"message\":" ++ Json.quote message
    ++ "\x7d\x7d"

/-- The members of an error are in the order of their names already. -/
theorem sortKeys_errorAnswer (code message : String) :
  (Failure.errorAnswer code message).sortKeys = Failure.errorAnswer code message
  := by
  have hinner : [("code", Json.text code), ("message", Json.text message)].mergeSort
      (fun a b => decide (a.1 ≤ b.1)) = [("code", .text code), ("message", .text message)] := by
    apply List.mergeSort_of_pairwise
    simp only [List.pairwise_pair, decide_eq_true_eq]
    decide
  rw [Failure.errorAnswer]
  simp only [Json.sortKeys, Json.sortKeysOfMembers, hinner, List.mergeSort_singleton]

/-- An answer that is an error is printed as the line that tells of it. -/
theorem compact_errorAnswer (code message : String) :
  (Failure.errorAnswer code message).compact = errorLine code message
  := by
  have hopening : "\x7b\"error\":\x7b\"code\":"
      = "\x7b" ++ Json.quote "error" ++ ":" ++ "\x7b" ++ Json.quote "code" ++ ":" := rfl
  have hmessage : ",\"message\":" = "," ++ Json.quote "message" ++ ":" := rfl
  have hclosing : "\x7d\x7d" = "\x7d" ++ "\x7d" := rfl
  change _ = "\x7b\"error\":\x7b\"code\":" ++ Json.quote code ++ ",\"message\":" ++ Json.quote message
    ++ "\x7d\x7d"
  rw [hopening, hmessage, hclosing, Failure.errorAnswer, Json.compact, Json.compactMembers,
    Json.compactMembers, Json.bracketed, String.intercalate_singleton, Json.compact,
    Json.compactMembers, Json.compactMembers, Json.compactMembers, Json.compact, Json.compact,
    Json.bracketed, String.intercalate_cons_cons, String.intercalate_singleton]
  simp only [String.append_assoc]

/-- A line is the answer to a question. -/
inductive IsAnswer (question : String) : String → Prop
  | tooLong : 1048576 < question.utf8ByteSize → IsAnswer question
      (errorLine "INVALID_REQUEST" ("Input line exceeds maximum size ("
        ++ toString question.utf8ByteSize ++ " bytes > " ++ toString 1048576 ++ " bytes)"))
  | noRequest {fault : Json.Fault} : question.utf8ByteSize ≤ 1048576 →
      Request.read (bytesOf question) = .error fault →
      IsAnswer question (errorLine "INVALID_REQUEST" ("Invalid JSON request: " ++ fault.message))
  | handled {request : Request} {answer : Json} : question.utf8ByteSize ≤ 1048576 →
      Request.read (bytesOf question) = .ok request → handler request = .ok answer →
      IsAnswer question answer.sortKeys.compact
  | failed {request : Request} {failure : Failure} : question.utf8ByteSize ≤ 1048576 →
      Request.read (bytesOf question) = .ok request → handler request = .error failure →
      IsAnswer question (errorLine failure.code.text failure.message)

/-- A failure is answered with its code and its message. -/
theorem answerLine_error (failure : Failure) :
  answerLine (.error failure) = errorLine failure.code.text failure.message
  := by rw [answerLine, Failure.answer, sortKeys_errorAnswer, compact_errorAnswer]

/-- The line written for a question is an answer to it. -/
theorem isAnswer_lineFor :
  IsAnswer handler question (lineFor handler question)
  := by
  rw [lineFor, answerTo, Id.run_map, respondToText]
  split
  · rename_i hsize
    change IsAnswer handler question (answerLine (.error _))
    rw [answerLine_error]
    apply IsAnswer.tooLong hsize
  · rename_i hsize
    have hsize := Nat.le_of_not_lt hsize
    cases hread : Request.read (bytesOf question) with
    | error fault =>
      change IsAnswer handler question (answerLine (.error _))
      rw [answerLine_error]
      apply IsAnswer.noRequest hsize hread
    | ok request =>
      change IsAnswer handler question (answerLine (handler request))
      cases hanswer : handler request with
      | ok answer => apply IsAnswer.handled hsize hread hanswer
      | error failure =>
        rw [answerLine_error]
        apply IsAnswer.failed hsize hread hanswer

/-- The answer to a question is written on one line. -/
theorem oneLine_lineFor :
  OneLine (lineFor handler question)
  := by
  rw [lineFor, answerTo, Id.run_map, answerLine.eq_def]
  split
  · apply Json.oneLine_compact
  · apply Json.oneLine_compact

/-! ### What is handled -/

/-- The request that a question is read as, if it is short enough. -/
def asked? (question : String) : Option Request :=
  if maxLineSize < question.utf8ByteSize then none else (Request.read (bytesOf question)).toOption

/-- A handler that keeps a list of the requests that it answers. -/
def logged (request : Request) : StateM (List Request) (Except Failure Json) := do
  modify (· ++ [request])
  return handler request

/-- A handler that keeps a log is asked the request of a question once, if it has one. -/
theorem answerTo_logged (log : List Request) :
  ((answerTo (logged handler) question).run log).run
    = (lineFor handler question, log ++ (asked? question).toList)
  := by
  rw [lineFor, answerTo, answerTo, respondToText, respondToText, asked?]
  split
  · rw [Option.toList_none, List.append_nil]
    rfl
  · cases Request.read (bytesOf question) with
    | error fault =>
      rw [Except.toOption, Option.toList_none, List.append_nil]
      rfl
    | ok request => rfl

/-- Over several questions the handler is asked their requests in order. -/
theorem mapM_logged (texts : List String) (log : List Request) :
  ((texts.mapM (answerTo (logged handler))).run log).run
    = (texts.map (lineFor handler), log ++ texts.filterMap asked?)
  := by
  induction texts generalizing log with
  | nil =>
    rw [List.mapM_nil, List.filterMap_nil, List.append_nil]
    rfl
  | cons question texts ih =>
    have hasked : log ++ (question :: texts).filterMap asked?
        = log ++ (asked? question).toList ++ texts.filterMap asked? := by
      rw [List.append_assoc, List.filterMap_eq_flatMap_toList, List.filterMap_eq_flatMap_toList,
        List.flatMap_cons]
    rw [hasked]
    simp only [List.mapM_cons, StateT.run_bind, Id.run_bind, answerTo_logged, ih, StateT.run_pure,
      Id.run_pure, List.map_cons]

/-- Keeping the list of requests changes no answer, and the list is that of the requests asked. -/
theorem serve_logged :
  ((serve (logged handler) input).run []).run
    = (run handler input, (questions (splitLines input)).filterMap asked?)
  := by
  rw [serve_eq, StateT.run_map, Id.run_map, mapM_logged, run_eq]
  rfl

/-! ### Each line alone -/

/-- A session over a single line writes the answer to its question, if it puts one. -/
theorem lines_run_line {line : List UInt8} (hline : 10 ∉ line) (htext : isText line) :
  (run handler (line ++ [10])).lines = (question? line).toList.map (lineFor handler)
  := by
  rw [run_eq, splitLines_line hline, questions_cons [] htext]
  exact congrArg _ (List.append_nil _)

/-- A session answers its lines up to one that is no text, each as it is answered alone: by one line
if it is no blank. -/
theorem run_answers_each_line_alone :
  (run handler input).lines
      = ((splitLines input).takeWhile isText).flatMap (fun line => (run handler (line ++ [10])).lines)
    ∧ (run handler input).failure
      = (if ∀ line ∈ splitLines input, (lineText? line).isSome then none else some .notText)
    ∧ ∀ line text, 10 ∉ line → lineText? line = some text →
      (run handler (line ++ [10])).lines.length = if (trim text).isEmpty then 0 else 1
  := by
  refine ⟨?_, ?_, ?_⟩
  · rw [run_eq, questions, List.filterMap_eq_flatMap_toList, List.map_flatMap]
    apply List.flatMap_congr
    intro line hline
    have hmem := (List.takeWhile_prefix _).subset hline
    rw [lines_run_line handler (not_mem_of_mem_splitOn (mem_splitOn_of_mem_splitLines hmem))
      (List.mem_takeWhile_imp hline)]
  · rw [run_eq, fault?]
    simp only [List.all_eq_true, isText]
  · intro line text hline htext
    rw [lines_run_line handler hline (isText_of_eq_some htext), question?, htext,
      Option.map_some, Option.filter_some]
    cases (trim text).isEmpty with
    | true => rfl
    | false => rfl

/-- A request after a line that is no text has no answer. -/
theorem not_all_lines_answered_alone :
  ¬ ∀ (handler : Handler) (input : List UInt8),
    (run handler input).lines
      = (splitLines input).flatMap fun line => (run handler (line ++ [10])).lines
  := by
  intro h
  have hrequest := h (fun _ => .ok .null) ([255, 10] ++ bytesOf "\x7b\"command\":\"facts\"\x7d")
  revert hrequest
  decide +kernel

/-! ### Sessions over a text -/

/-- The lines of a text that are no blanks, without the blanks around them. -/
def linesOf (s : String) : List String :=
  ((s.toList.splitOn '\n').map (trim ∘ String.ofList)).filter (!·.isEmpty)

variable (s : String)

/-- Every line of a text is text. -/
theorem isText_of_mem_splitLines {line : List UInt8} (h : line ∈ splitLines (bytesOf s)) :
  isText line
  := by
  have hmem := mem_splitOn_of_mem_splitLines h
  rw [bytesOf, splitOn_bytes] at hmem
  obtain ⟨cs, -, rfl⟩ := List.mem_map.mp hmem
  obtain ⟨text, htext, -⟩ := exists_lineText?_bytes cs
  apply isText_of_eq_some htext

/-- The question of a line of text is the trimmed text, unless nothing remains of it. -/
theorem question?_bytes (cs : List Char) :
  question? (cs.flatMap String.utf8EncodeChar)
    = (some (trim (String.ofList cs))).filter (!·.isEmpty)
  := by
  obtain ⟨text, htext, htrim⟩ := exists_lineText?_bytes cs
  rw [question?, htext, Option.map_some, htrim]

/-- The questions of a text are its lines that are not blank. -/
theorem questions_bytesOf :
  questions (splitLines (bytesOf s)) = linesOf s
  := by
  have hall : (splitLines (bytesOf s)).takeWhile isText = splitLines (bytesOf s) :=
    List.takeWhile_eq_self_iff.mpr fun line => isText_of_mem_splitLines s
  rw [questions, hall, filterMap_splitLines rfl, bytesOf, splitOn_bytes, List.filterMap_map, linesOf,
    ← List.filterMap_eq_map, List.filter_filterMap]
  apply List.filterMap_congr
  intro cs _
  apply question?_bytes

/-- The lines of a session as they are written, each with a line break at its end. -/
def Transcript.written (t : Transcript) : List Char :=
  t.lines.flatMap fun line => line.toList ++ ['\n']

/-- Split at its line ends, the output gives back the lines written. -/
theorem splitOn_written {t : Transcript} (h : ∀ line ∈ t.lines, OneLine line) :
  t.written.splitOn '\n' = t.lines.map String.toList ++ [[]]
  := by
  obtain ⟨lines, failure⟩ := t
  rw [Transcript.written]
  induction lines with
  | nil => rfl
  | cons line lines ih =>
    obtain ⟨hline, hlines⟩ := List.forall_mem_cons.mp h
    rw [List.flatMap_cons, List.append_assoc, List.singleton_append,
      List.splitOn_append_cons_self_of_not_mem hline.1, ih hlines]
    rfl

/-- A session over a text reads it to the end.  Every line that is no blank is answered by one line, in
which no line breaks, and every request among these lines is handled once; both in the order of the
text. -/
theorem run_answers_each_line :
  (run handler (bytesOf s)).failure = none
    ∧ List.Forall₂ (IsAnswer handler) (linesOf s) (run handler (bytesOf s)).lines
    ∧ (∀ line ∈ (run handler (bytesOf s)).lines, OneLine line)
    ∧ (run handler (bytesOf s)).written.splitOn '\n'
      = (run handler (bytesOf s)).lines.map String.toList ++ [[]]
    ∧ ((serve (logged handler) (bytesOf s)).run []).run
      = (run handler (bytesOf s), (linesOf s).filterMap asked?)
  := by
  have hlines : ∀ line ∈ (run handler (bytesOf s)).lines, OneLine line := by
    rw [run_eq]
    intro line hline
    obtain ⟨question, -, rfl⟩ := List.mem_map.mp hline
    apply oneLine_lineFor
  refine ⟨?_, ?_, hlines, splitOn_written hlines, ?_⟩
  · rw [run_eq, fault?, if_pos]
    rw [List.all_eq_true]
    intro line
    apply isText_of_mem_splitLines
  · rw [run_eq, questions_bytesOf, List.forall₂_map_right_iff]
    apply List.forall₂_same.mpr
    intro question _
    apply isAnswer_lineFor
  · rw [serve_logged, questions_bytesOf]

end

end Cohesion.Session

import Cohesion.Program
import Cohesion.Proofs.Lines
import Cohesion.Proofs.Walks
import Mathlib.Data.List.TakeWhile

/-!
# Which settings count

What a request or a command line says comes first, then what the settings file says, and then the
standard.  `Request.filledBy` and `Selection.filledBy` put this together for what is asked, and a run is
that of what is filled in like this, whatever the settings are otherwise: `Program.run_fills_in`.  Logs go
where the file says only if this is not the standard place for logs; otherwise they go next to the file,
as if it said nothing.
-/

namespace Cohesion

/-! ### Files of text -/

theorem toList_loop (data : ByteArray) (i : Nat) (before : List UInt8) :
  ByteArray.toList.loop data i before = before.reverse ++ data.data.toList.drop i
  := by
  fun_induction ByteArray.toList.loop data i before with
  | case1 i before hi ih =>
    have hi : i < data.data.toList.length := by simpa using hi
    rw [ih, List.reverse_cons, List.append_assoc, List.singleton_append,
      List.drop_eq_getElem_cons hi, ByteArray.get!, Array.getElem_toList]
    congr 2
    apply getElem!_pos
  | case2 i before hi => rw [List.drop_eq_nil_of_le (by simpa using hi), List.append_nil]

/-- A file with the bytes of a text holds this text. -/
theorem textOfBytes?_toList_bytes (text : String) :
  textOfBytes? (FileContent.bytes ⟨(bytesOf text).toArray⟩).toList = some text
  := by
  rw [FileContent.toList, FileContent.toBytes, ByteArray.toList, toList_loop, List.reverse_nil,
    List.nil_append, List.drop_zero, List.toList_toArray, bytesOf, textOfBytes?_bytes,
    String.ofList_toList]

/-! ### The parent of a file -/

namespace FileTree

variable {t : FileTree} {here l : Location} {names : List String} {k : Nat}

/-- Names that count for nothing lead nowhere else. -/
theorem Leads.eq_of_not_counts (h : t.Leads k here names l)
  (hcounts : ∀ name ∈ names, ¬ Path.counts name) :
  l = here
  := by
  induction h with
  | done => rfl
  | stay _ _ _ ih => apply ih fun name hname => hcounts name (List.mem_cons_of_mem _ hname)
  | up => exact absurd (by decide) (hcounts ".." List.mem_cons_self)
  | through _ hname | into _ hname => exact absurd hname.1 (hcounts _ List.mem_cons_self)

/-- What is behind a name that does not count is a directory, if no other name counts. -/
theorem Leads.hasDirectory_of_not_counts {name : String} (h : t.Leads k here (name :: names) l)
  (hcounts : ∀ name' ∈ name :: names, ¬ Path.counts name') :
  t.hasDirectory l
  := by
  rw [h.eq_of_not_counts hcounts]
  apply h.hasDirectory

end FileTree

/-- Names of which nothing remains without the trailing ones count for nothing. -/
theorem Path.forall_not_counts_of_dropTrailing {names : List String} (h : dropTrailing names = []) :
  ∀ name ∈ names, ¬ counts name
  := by
  rw [dropTrailing, List.reverse_eq_nil_iff, List.dropWhile_eq_nil_iff] at h
  intro name hname
  have hcounts := h name (List.mem_reverse.mpr hname)
  simpa using hcounts

/-- The path of a file has a parent. -/
theorem Environment.exists_parent {e : Environment} {path : String} {l : Location}
  {content : FileContent} (hl : e.locate? path = some l) (hcontent : e.files.content? l = some content) :
  ∃ parent, Path.parent? path = some parent
  := by
  obtain ⟨days, hfile⟩ := FileTree.content?_eq_some_iff.mp hcontent
  obtain ⟨_, _, _, hleads⟩ := FileTree.locate?_eq_some_iff.mp hl
  rw [← Option.ne_none_iff_exists', Path.parent?]
  split
  · rename_i hnames
    exact absurd hnames (by simp [Path.names, List.splitOn_ne_nil])
  · rename_i first rest hnames
    rw [hnames] at hleads
    split
    · rename_i hrest
      split
      · rename_i hfirst
        have hdirectory := hleads.hasDirectory_of_not_counts (by
          rw [hfirst, List.forall_mem_cons]
          use by decide, Path.forall_not_counts_of_dropTrailing hrest)
        rw [FileTree.hasDirectory_iff, hfile] at hdirectory
        cases hdirectory
      · simp
    · split
      · split <;> simp
      · simp

namespace Settings

variable {e : Environment} {path parent : String} {ms : Toml.Members} {s : Settings}

/-! ### What a settings file says -/

/-- What a file says about a setting, if it says something. -/
def written? {α : Type} (ms : Toml.Members) (key : String) (read : Toml.Value → Option α) : Option α :=
  (ms.lookup key).bind read

/-- A path leads to a file with these members. -/
def FileHolds (e : Environment) (path : String) (ms : Toml.Members) : Prop :=
  ∃ l content, e.locate? path = some l ∧ e.files.content? l = some content ∧
    (textOfBytes? content.toList).bind Toml.document? = some ms

/-- The place that a file gives to logs, unless it is the standard one. -/
def ownLogPath? (e : Environment) (ms : Toml.Members) : Option String :=
  (written? ms "log_path" text?).filter fun path => !Path.same path (standardLogPath e)

/-- The settings that a file writes down.  Without a place of their own, logs go to the directory of the
file. -/
def ofWritten (e : Environment) (directory : String) (ms : Toml.Members) : Settings where
  debug := (written? ms "debug" boolean?).getD false
  logPath := (ownLogPath? e ms).getD (Path.join directory "logs")
  logLevel := (written? ms "log_level" text?).getD "debug"
  point := (written? ms "cp" number?).getD 0.05
  mode := (written? ms "mode" mode?).getD .similarity
  glob := written? ms "glob" text?

/-- A setting has the value written in the file, and its standard value when none is written. -/
theorem eq_of_setting {α : Type} {key : String} {read : Toml.Value → Option α} {standard value : α}
  (h : setting ms key read standard = some value) :
  value = (written? ms key read).getD standard
  := by
  rw [setting] at h
  rw [written?]
  split at h
  · rename_i hlookup
    cases h
    rw [hlookup]
    rfl
  · rename_i hlookup
    rw [hlookup, Option.bind_some, h]
    rfl

theorem written?_map_some {α : Type} (ms : Toml.Members) (key : String)
  (read : Toml.Value → Option α) :
  (written? ms key fun value => (read value).map some).getD none = written? ms key read
  := by
  rw [written?, written?]
  cases ms.lookup key with
  | none => rfl
  | some value => cases hread : read value <;> simp [hread]

/-- Settings read from a file are those written in it, but for the standard log path they start from. -/
theorem eq_of_ofMembers? (h : ofMembers? e ms = some s) (directory : String) :
  s = { ofWritten e directory ms with
    logPath := (written? ms "log_path" text?).getD (standardLogPath e) }
  := by
  simp only [ofMembers?, bind, Option.bind_eq_some_iff, pure, Option.some.injEq] at h
  obtain ⟨debug, hdebug, logPath, hlogPath, logLevel, hlogLevel, point, hpoint, mode, hmode, glob,
    hglob, rfl⟩ := h
  rw [eq_of_setting hdebug, eq_of_setting hlogPath, eq_of_setting hlogLevel, eq_of_setting hpoint,
    eq_of_setting hmode, eq_of_setting hglob]
  simp only [standard, written?_map_some, ofWritten]

/-- Moved beside the file, the settings are those written in it. -/
theorem besideFile_eq (hparent : Path.parent? path = some parent) :
  besideFile e path { ofWritten e parent ms with
      logPath := (written? ms "log_path" text?).getD (standardLogPath e) }
    = ofWritten e parent ms
  := by
  rw [besideFile, hparent]
  dsimp only
  rw [ofWritten, ownLogPath?]
  cases hwritten : written? ms "log_path" text? with
  | none => simp [Path.same]
  | some logPath =>
    cases hsame : Path.same logPath (standardLogPath e) <;> simp [Option.filter_some, hsame]

/-- The settings of a file are what it writes down. -/
theorem load_eq {settings : Option String} (hfile : FileHolds e (settings.getD (standardPath e)) ms)
  (hread : (ofMembers? e ms).isSome) :
  ∃ parent, Path.parent? (settings.getD (standardPath e)) = some parent ∧
    load e settings = .ok (ofWritten e parent ms)
  := by
  obtain ⟨l, content, hl, hcontent, hms⟩ := hfile
  obtain ⟨text, htext, hdocument⟩ := Option.bind_eq_some_iff.mp hms
  obtain ⟨s, hs⟩ := Option.isSome_iff_exists.mp hread
  obtain ⟨parent, hparent⟩ := Environment.exists_parent hl hcontent
  use parent, hparent
  have hload : load e settings = .ok (besideFile e (settings.getD (standardPath e)) s) := by
    simp only [load, ofFile, hl, hcontent, htext, hdocument, Option.bind_some, hs]
  rw [hload, eq_of_ofMembers? hs parent, besideFile_eq hparent]

end Settings

/-! ### What is asked and what is written -/

/-- A request with what a settings file says, or else the standard, about the cut that it leaves
open. -/
def Request.filledBy (r : Request) (ms : Toml.Members) : Request :=
  { r with
    point := some ((r.point.or (Settings.written? ms "cp" Settings.number?)).getD 0.05)
    mode := some ((r.mode.or (Settings.written? ms "mode" Settings.mode?)).getD .similarity) }

/-- A selection with the glob of a settings file if it has none. -/
def Selection.filledBy (files : Selection) (ms : Toml.Members) : Selection :=
  { files with glob := files.glob.or (Settings.written? ms "glob" Settings.text?) }

namespace Program

variable {e : Environment} {c : CommandLine} {ms : Toml.Members} {s : Settings}

/-- Settings say about what is asked what a file says or else the standard. -/
structure AreWritten (s : Settings) (ms : Toml.Members) : Prop where
  point : s.point = (Settings.written? ms "cp" Settings.number?).getD 0.05
  mode : s.mode = (Settings.written? ms "mode" Settings.mode?).getD .similarity
  glob : s.glob = Settings.written? ms "glob" Settings.text?

namespace AreWritten

variable (h : AreWritten s ms)

include h

/-- An analysis answers a request under the settings as it answers the request filled in by the file. -/
theorem respond_eq (analysis : Analysis) (cut : Cut Float) (r : Request) :
  analysis.respond (standardCut s) r = analysis.respond cut (r.filledBy ms)
  := by
  rw [Analysis.respond, Analysis.respond, Request.filledBy, standardCut, h.point, h.mode]
  cases r.command <;> simp [Option.getD_or]

/-- The selection takes the pattern of the file where it has none of its own. -/
theorem chosenGlob_eq (files : Selection) :
  chosenGlob s files = (files.filledBy ms).glob
  := by
  rw [chosenGlob, h.glob, Selection.filledBy]
  cases files.glob <;> rfl

/-- Under the settings of a file an answer is that to the filled-in request under the standard
settings. -/
theorem answer_eq (e e' : Environment) (grammar : Grammar) (files : Selection) (r : Request) :
  answer e' grammar s files r
    = answer e' grammar (Settings.standard e) (files.filledBy ms) (r.filledBy ms)
  := by
  have hglob : chosenGlob (Settings.standard e) (files.filledBy ms) = (files.filledBy ms).glob := by
    rw [chosenGlob, Settings.standard]
    cases (files.filledBy ms).glob <;> rfl
  have hcommand : (r.filledBy ms).command = r.command := rfl
  have hdirectory : (files.filledBy ms).directory = files.directory := rfl
  rw [answer, answer, h.chosenGlob_eq, hglob, hcommand, hdirectory]
  simp only [h.respond_eq _ (standardCut (Settings.standard e))]

/-- What is asked at once is answered as what is filled in would be without settings. -/
theorem perform_answer_eq (e e' : Environment) (grammar : Grammar) (input : List UInt8)
  (pretty : Bool) (files : Selection) (r : Request) :
  perform e' grammar input s pretty (.answer files r)
    = perform e' grammar input (Settings.standard e) pretty
        (.answer (files.filledBy ms) (r.filledBy ms))
  := by rw [perform, perform, h.answer_eq e]

/-- A session answers each request as it would answer what is filled in. -/
theorem perform_session_eq (e' : Environment) (grammar : Grammar) (input : List UInt8)
  (pretty : Bool) (files : Selection) (cut : Cut Float) :
  perform e' grammar input s pretty (.session files)
    = match Project.analyze e' grammar files.directory (files.filledBy ms).glob with
      | .error failure => fail e'.files [] failure
      | .ok analysis =>
        let transcript := Session.run (fun r => analysis.respond cut (r.filledBy ms)) input
        match transcript.failure with
        | some failure => fail e'.files transcript.lines failure
        | none => ⟨0, transcript.lines, [], e'.files⟩
  := by
  rw [perform, h.chosenGlob_eq]
  cases Project.analyze e' grammar files.directory (files.filledBy ms).glob with
  | error failure => rfl
  | ok analysis =>
    have hrespond : analysis.respond (standardCut s) = fun r => analysis.respond cut (r.filledBy ms) :=
      funext (h.respond_eq analysis cut)
    dsimp only
    generalize (fun r : Request => analysis.respond cut (r.filledBy ms)) = handler at hrespond ⊢
    subst hrespond
    rfl

end AreWritten

/-- With a settings file that can be read, a run uses what is asked first, then what the file says, and
then the standard: for the glob and the cut of whatever is asked, at once or in a session, and for the
place of logs.  Only if the file names the standard place for logs, they go next to the file. -/
theorem run_fills_in
  (hfile : Settings.FileHolds e (c.settings.getD (Settings.standardPath e)) ms)
  (hread : (Settings.ofMembers? e ms).isSome) :
  ∃ parent s, Path.parent? (c.settings.getD (Settings.standardPath e)) = some parent ∧
    Settings.load e c.settings = .ok s ∧
    s.logPath = (Settings.ownLogPath? e ms).getD (Path.join parent "logs") ∧
    (∀ grammar input, run e grammar input c =
      match if c.debug || s.debug then prepareLogs e s else (e.files, .ok ()) with
      | (files, .error failure) => fail files [] failure
      | (files, .ok ()) => perform { e with files := files } grammar input s c.pretty c.task) ∧
    (∀ e' grammar input pretty files r, perform e' grammar input s pretty (.answer files r)
      = perform e' grammar input (Settings.standard e) pretty
          (.answer (files.filledBy ms) (r.filledBy ms))) ∧
    ∀ e' grammar input pretty files cut, perform e' grammar input s pretty (.session files)
      = match Project.analyze e' grammar files.directory (files.filledBy ms).glob with
        | .error failure => fail e'.files [] failure
        | .ok analysis =>
          let transcript := Session.run (fun r => analysis.respond cut (r.filledBy ms)) input
          match transcript.failure with
          | some failure => fail e'.files transcript.lines failure
          | none => ⟨0, transcript.lines, [], e'.files⟩
  := by
  obtain ⟨parent, hparent, hload⟩ := Settings.load_eq hfile hread
  -- The settings are those written in the file, so only the request has to be filled in by them.
  have hwritten : AreWritten (Settings.ofWritten e parent ms) ms := ⟨rfl, rfl, rfl⟩
  use parent, Settings.ofWritten e parent ms, hparent, hload, rfl
  refine ⟨?_, hwritten.perform_answer_eq e, hwritten.perform_session_eq⟩
  intro grammar input
  rw [run, hload]
  dsimp only
  generalize (if c.debug || (Settings.ofWritten e parent ms).debug then
    prepareLogs e (Settings.ofWritten e parent ms) else (e.files, .ok ())) = prepared
  obtain ⟨files, _ | _⟩ := prepared <;> rfl

/-- A settings file that names the standard place for logs. -/
def standardLogs : Environment :=
  ⟨⟨[(["conf"], .directory), (["conf", "my.toml"], .file (.bytes ⟨(bytesOf
      "log_path = '/h/.config/coupling-lens/logs'\nglob = 'app/**'").toArray⟩) 0)]⟩, [], "/h", none⟩

/-- What the settings file says. -/
def standardLogsMembers : Toml.Members :=
  [("log_path", .text "/h/.config/coupling-lens/logs"), ("glob", .text "app/**")]

/-- The file of the case holds the members listed for it. -/
theorem fileHolds_standardLogs :
  Settings.FileHolds standardLogs "/conf/my.toml" standardLogsMembers
  := by
  refine ⟨["conf", "my.toml"], _, ?_, rfl, ?_⟩
  · have htree : standardLogs.files.IsTree := by decide
    apply FileTree.locate?_path (l := ["conf", "my.toml"]) htree (by decide) rfl (by decide)
  · rw [textOfBytes?_toList_bytes, Option.bind_some]
    rfl

theorem ofMembers?_standardLogs :
  (Settings.ofMembers? standardLogs standardLogsMembers).isSome
  := rfl

theorem ownLogPath?_standardLogs :
  Settings.ownLogPath? standardLogs standardLogsMembers = none
  := by decide

theorem run_fills_in_standardLogs :
  ∃ s, Settings.load standardLogs (some "/conf/my.toml") = .ok s ∧ s.logPath = "/conf/logs" ∧
    ∀ grammar r, perform standardLogs grammar [] s false (.answer ⟨"/p", none⟩ r)
      = perform standardLogs grammar [] (Settings.standard standardLogs) false
          (.answer ⟨"/p", some "app/**"⟩ (r.filledBy standardLogsMembers))
  := by
  obtain ⟨parent, s, hparent, hload, hlogPath, _, hanswer, _⟩ := run_fills_in
    (c := ⟨false, false, some "/conf/my.toml", .session ⟨"/p", none⟩⟩)
    fileHolds_standardLogs ofMembers?_standardLogs
  obtain rfl : "/conf" = parent := by
    apply Option.some.inj (Eq.trans _ hparent)
    decide
  use s, hload
  rw [hlogPath, ownLogPath?_standardLogs]
  use by decide
  intro grammar r
  apply hanswer

/-- Not every place that a file gives to logs is kept. -/
theorem not_forall_logPath_eq_written :
  ¬ ∀ (e : Environment) (path : String) (ms : Toml.Members) (logPath : String),
    Settings.FileHolds e path ms → Settings.written? ms "log_path" Settings.text? = some logPath →
    ∀ s, Settings.load e (some path) = .ok s → s.logPath = logPath
  := by
  intro h
  have hfile : Settings.FileHolds standardLogs
      ((some "/conf/my.toml").getD (Settings.standardPath standardLogs)) standardLogsMembers :=
    fileHolds_standardLogs
  obtain ⟨parent, hparent, hload⟩ := Settings.load_eq hfile ofMembers?_standardLogs
  have hkept := h standardLogs "/conf/my.toml" standardLogsMembers "/h/.config/coupling-lens/logs"
    fileHolds_standardLogs (by decide) _ hload
  rw [Settings.ofWritten, ownLogPath?_standardLogs] at hkept
  obtain rfl : "/conf" = parent := by
    apply Option.some.inj (Eq.trans _ hparent)
    decide
  exact absurd hkept (by decide)

end Program

end Cohesion

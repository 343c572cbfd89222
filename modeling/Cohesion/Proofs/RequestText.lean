import Cohesion.Proofs.FiniteNumbers
import Cohesion.Proofs.ReadBack

/-!
# Requests that are read back

A request that was read off some text, in whatever form, has a text of its own.  This is read as the
same request, and two requests have the same text only if they are the same: `Request.read_compact`.
The doubles of the request have to be read back from their digits, as `Request.ReadsBack` says; that
they are finite, and that the count fits into 64 bits, follows from their having been read:
`Request.isSound_of_read`.
-/

namespace Cohesion

namespace Request

open Json

variable {text : List UInt8} {d : Draft} {r : Request} {f : Field} {v : Json}

/-! ### What is read of a request -/

/-- The doubles of a request. -/
def numbers (r : Request) : List Float :=
  r.point.toList ++ r.percent.toList

/-- The doubles are finite, and the count fits into 64 bits. -/
structure IsSound (r : Request) : Prop where
  isFinite : ∀ x ∈ r.numbers, x.isFinite
  steps_lt : ∀ n ∈ r.steps, n < Nat.pow 2 64

/-- The doubles of a draft are finite, and the count fits into 64 bits. -/
structure Draft.IsSound (d : Draft) : Prop where
  point : ∀ x ∈ d.point, x.isFinite
  percent : ∀ x ∈ d.percent, x.isFinite
  steps : ∀ n ∈ d.steps, n < Nat.pow 2 64

theorem Draft.isSound_empty :
  Draft.empty.IsSound
  := by
  constructor
  · rintro _ ⟨⟩
  · rintro _ ⟨⟩
  · rintro _ ⟨⟩

/-- A sound draft finishes in a sound request, where it finishes at all. -/
theorem Draft.IsSound.yields_finish (h : d.IsSound) :
  Yields (liftM d.finish) Request.IsSound
  := by
  intro bs r left hfinish
  obtain ⟨_, hr, ⟨⟩⟩ := Except.bind_eq_ok_iff.mp hfinish
  rw [Draft.finish] at hr
  split at hr
  · cases hr
  · cases hr
    constructor
    · intro x hx
      obtain hx | hx := List.mem_append.mp hx
      · apply h.point x (Option.mem_toList.mp hx)
      · apply h.percent x (Option.mem_toList.mp hx)
    · apply h.steps

/-- What a reader yields, it yields under an option that may be null as well. -/
theorem yields_readOption {α : Type} {x : Reader α} {P : α → Prop} (h : Yields x P) :
  Yields (readOption x) fun value => ∀ a ∈ value, P a
  := by
  refine .after fun first => ?_
  split
  · exact .after fun _ => .pure fun _ hnone => absurd hnone (Option.not_mem_none _)
  · refine Yields.bind h fun a ha => .pure ?_
    rintro _ ⟨⟩
    exact ha

/-- Reading the value of a field keeps the draft sound. -/
theorem yields_readField (h : d.IsSound) (f : Field) :
  Yields (readField d f) Draft.IsSound
  := by
  cases f with
  | point =>
    exact Yields.bind (yields_readOption yields_readFloat) fun _ hpoint =>
      .pure ⟨hpoint, h.percent, h.steps⟩
  | percent =>
    exact Yields.bind (yields_readOption yields_readFloat) fun _ hpercent =>
      .pure ⟨h.point, hpercent, h.steps⟩
  | steps =>
    exact Yields.bind (yields_readOption yields_readCount) fun _ hsteps =>
      .pure ⟨h.point, h.percent, hsteps⟩
  | command | mode | first | second =>
    exact .after fun _ => .pure ⟨h.point, h.percent, h.steps⟩

/-- Reading the values of a list of fields keeps the draft sound. -/
theorem yields_readItems (h : d.IsSound) (fs : List Field) :
  Yields (readItems fs d) Draft.IsSound
  := by
  induction fs generalizing d with
  | nil => exact .pure h
  | cons f fs ih =>
    have hread : Yields (readField d f >>= readItems fs) Draft.IsSound :=
      Yields.bind (yields_readField h f) fun d hd => ih hd
    refine .after fun more => ?_
    split
    · exact hread
    · exact .after fun _ => hread

/-- The draft of what is read so far. -/
def Progress.draft : Progress → Draft
  | .member _ d => d
  | .skipping _ d => d

/-- One part of an object read keeps the draft sound, and the request it may end in is sound. -/
theorem yields_readPart {p : Progress} (h : p.draft.IsSound) :
  Yields (readPart p) (Sum.elim (·.draft.IsSound) IsSound)
  := by
  cases p with
  | skipping spot d =>
    refine .after fun next => ?_
    split
    · exact .pure h
    · exact .pure h
  | member isFirst d =>
    refine .after fun isMember => ?_
    split
    · refine .after fun name => ?_
      split
      · rename_i field _
        have hread : Yields
            (do readColon; return .inl (.member false (← readField d field)))
            (Sum.elim (fun p : Progress => p.draft.IsSound) IsSound) :=
          .after fun _ => Yields.bind (yields_readField h field) fun _ hd => .pure hd
        dsimp only
        split
        · exact .after fun _ => hread
        · exact hread
      · exact .after fun _ => .pure h
    · exact Yields.bind h.yields_finish fun _ hr => .pure hr

/-- Every request the reader reads is sound. -/
theorem yields_reader :
  Yields reader IsSound
  := by
  refine .after fun first => ?_
  split
  · refine .after fun _ => fun bs => ?_
    exact yields_repeatStep (I := (·.draft.IsSound)) (fun _ h => yields_readPart h) _
      Draft.isSound_empty bs
  · exact .after fun _ => Yields.bind (yields_readItems Draft.isSound_empty Field.all) fun _ hd =>
      .after fun _ => hd.yields_finish
  · exact yields_refuse

/-- The doubles of a request that is read are finite, and its count fits into 64 bits. -/
theorem isSound_of_read (h : read text = .ok r) :
  r.IsSound
  := by
  obtain ⟨⟨request, rest⟩, hread, h⟩ := Except.bind_eq_ok_iff.mp h
  dsimp only at h
  split at h
  · cases h
    apply yields_reader _ _ _ hread
  · cases h

/-! ### The text of a request -/

/-- The value of a field as it is written, if it is there. -/
def valueOf? (r : Request) : Field → Option Json
  | .command => some (.text r.command.text)
  | .point => r.point.map .number
  | .mode => r.mode.map (.text ·.text)
  | .first => r.first.map .text
  | .second => r.second.map .text
  | .percent => r.percent.map .number
  | .steps => r.steps.map .nat

/-- The text of some fields inside an object, with a comma in front unless it is the first one. -/
def membersText (r : Request) : Bool → List Field → List UInt8
  | _, [] => [125]
  | isFirst, f :: fs =>
    match r.valueOf? f with
    | none => membersText r isFirst fs
    | some v =>
      (if isFirst then [] else [44]) ++ (bytesOf (quote f.name) ++ 58 ::
        (bytesOf v.compact ++ membersText r false fs))

/-- The text of the members puts a field with a value in front, after a comma unless it is the first. -/
theorem membersText_of_eq_some (h : r.valueOf? f = some v) (isFirst : Bool) (fs : List Field) :
  membersText r isFirst (f :: fs)
    = (if isFirst then [] else [44]) ++ (bytesOf (quote f.name) ++ 58 ::
      (bytesOf v.compact ++ membersText r false fs))
  := by
  rw [membersText, h]

/-- A field without a value leaves no text. -/
theorem membersText_of_eq_none (h : r.valueOf? f = none) (isFirst : Bool) (fs : List Field) :
  membersText r isFirst (f :: fs) = membersText r isFirst fs
  := by
  rw [membersText, h]

/-- The members of a request that are there, as texts. -/
def members (r : Request) (fs : List Field) : List String :=
  compactMembers ((fs.map fun f => (f.name, r.valueOf? f)).filterMap
    fun (name, value) => value.map (name, ·))

/-- Texts joined by commas are the first, then each of the others after a comma. -/
theorem bytesOf_intercalate (p : String) (ps : List String) :
  bytesOf (",".intercalate (p :: ps)) = bytesOf p ++ ps.flatMap fun q => 44 :: bytesOf q
  := by
  induction ps generalizing p with
  | nil => rw [String.intercalate_singleton, List.flatMap_nil, List.append_nil]
  | cons q ps ih =>
    rw [String.intercalate_cons_cons, bytesOf_append, bytesOf_append, ih, List.flatMap_cons,
      List.append_assoc]
    rfl

theorem members_of_eq_some (h : r.valueOf? f = some v) (fs : List Field) :
  members r (f :: fs) = (quote f.name ++ ":" ++ v.compact) :: members r fs
  := by
  rw [members, List.map_cons, List.filterMap_cons, h]
  rfl

theorem members_of_eq_none (h : r.valueOf? f = none) (fs : List Field) :
  members r (f :: fs) = members r fs
  := by
  rw [members, List.map_cons, List.filterMap_cons, h]
  rfl

/-- The bytes of a member are those of its quoted name, a colon and those of its value. -/
theorem bytesOf_member (name : String) (v : Json) :
  bytesOf (quote name ++ ":" ++ v.compact) = bytesOf (quote name) ++ 58 :: bytesOf v.compact
  := by
  rw [bytesOf_append, bytesOf_append, List.append_assoc]
  rfl

/-- The text of the members after another member has each of them behind a comma. -/
theorem membersText_false (r : Request) (fs : List Field) :
  membersText r false fs = (members r fs).flatMap (fun p => 44 :: bytesOf p) ++ [125]
  := by
  induction fs with
  | nil => rfl
  | cons f fs ih =>
    cases h : r.valueOf? f with
    | none => rw [membersText_of_eq_none h, ih, members_of_eq_none h]
    | some v =>
      rw [membersText_of_eq_some h, ih, members_of_eq_some h, List.flatMap_cons, bytesOf_member]
      simp

/-- The text of the members from the first on is the members joined by commas, and the closing brace. -/
theorem membersText_true (r : Request) (fs : List Field) :
  membersText r true fs = bytesOf (",".intercalate (members r fs)) ++ [125]
  := by
  induction fs with
  | nil => rfl
  | cons f fs ih =>
    cases h : r.valueOf? f with
    | none => rw [membersText_of_eq_none h, ih, members_of_eq_none h]
    | some v =>
      rw [membersText_of_eq_some h, membersText_false, members_of_eq_some h, bytesOf_intercalate,
        bytesOf_member]
      simp

/-- A request is written as the members that are there, between braces. -/
theorem bytesOf_compact (r : Request) :
  bytesOf r.toJson.compact = 123 :: membersText r true Field.all
  := by
  change bytesOf (bracketed "\x7b" "\x7d" (members r Field.all)) = _
  rw [bracketed, bytesOf_append, bytesOf_append, membersText_true]
  rfl

/-- What follows the value of a field ends it. -/
theorem endsValue_membersText (r : Request) (fs : List Field) :
  EndsValue (membersText r false fs)
  := by
  induction fs with
  | nil => exact .inr rfl
  | cons f fs ih =>
    cases h : r.valueOf? f with
    | none =>
      rw [membersText_of_eq_none h]
      exact ih
    | some v =>
      rw [membersText_of_eq_some h]
      exact .inl rfl

/-! ### Reading the text of a request -/

/-- The draft after the value that a request has for a field. -/
def Draft.put (d : Draft) (r : Request) (f : Field) : Draft :=
  let d := { d with fields := f :: d.fields }
  match f with
  | .command => { d with command := some r.command }
  | .point => { d with point := r.point }
  | .mode => { d with mode := r.mode }
  | .first => { d with first := r.first }
  | .second => { d with second := r.second }
  | .percent => { d with percent := r.percent }
  | .steps => { d with steps := r.steps }

/-- The draft has the value of a request for a field. -/
def Draft.Agrees (d : Draft) (r : Request) : Field → Prop
  | .command => d.command = some r.command
  | .point => d.point = r.point
  | .mode => d.mode = r.mode
  | .first => d.first = r.first
  | .second => d.second = r.second
  | .percent => d.percent = r.percent
  | .steps => d.steps = r.steps

theorem Draft.fields_put (d : Draft) (r : Request) (f : Field) :
  (d.put r f).fields = f :: d.fields
  := by
  cases f <;> rfl

theorem Draft.agrees_put (d : Draft) (r : Request) (f : Field) :
  (d.put r f).Agrees r f
  := by
  cases f <;> rfl

/-- A draft keeps agreeing with a request on a field when a value of that request is put in it. -/
theorem Draft.Agrees.put {g : Field} (h : d.Agrees r g) (f : Field) :
  (d.put r f).Agrees r g
  := by
  cases f <;> cases g <;> first | exact h | rfl

/-- A draft without values has those of a request that are absent. -/
theorem Draft.agrees_empty (h : r.valueOf? f = none) :
  Draft.empty.Agrees r f
  := by
  cases f with
  | command => cases h
  | point | mode | first | second | percent | steps => exact (Option.map_eq_none_iff.mp h).symm

/-- A draft that agrees with a request on every field finishes in that request. -/
theorem Draft.finish_of_agrees (h : ∀ f, d.Agrees r f) :
  d.finish = .ok r
  := by
  have hcommand : d.command = some r.command := h .command
  have hpoint : d.point = r.point := h .point
  have hmode : d.mode = r.mode := h .mode
  have hfirst : d.first = r.first := h .first
  have hsecond : d.second = r.second := h .second
  have hpercent : d.percent = r.percent := h .percent
  have hsteps : d.steps = r.steps := h .steps
  rw [Draft.finish, hcommand, hpoint, hmode, hfirst, hsecond, hpercent, hsteps]

/-- Every command is found again by its text. -/
theorem find?_command (c : Command) :
  Command.all.find? (·.text = c.text) = some c
  := by
  cases c <;> rfl

/-- Every mode of cutting is found again by its text. -/
theorem find?_cutMode (m : CutMode) :
  CutMode.all.find? (·.text = m.text) = some m
  := by
  cases m <;> rfl

/-- Every field is found again by its name. -/
theorem ofName?_name (f : Field) :
  Field.ofName? f.name = some f
  := by
  cases f <;> rfl

/-- The value of a field is read back from its text. -/
theorem takes_readField (hr : r.IsSound) (hback : ∀ x ∈ r.numbers, ReadsBack x)
    (h : r.valueOf? f = some v) (d : Draft) :
  Takes (readField d f) (bytesOf v.compact) (d.put r f)
  := by
  cases f with
  | command =>
    cases h
    apply (takes_readChoice (find?_command r.command)).map
  | point =>
    obtain ⟨x, hx, rfl⟩ := Option.map_eq_some_iff.mp h
    rw [Draft.put, hx]
    apply (hback x _).takes.map
    rw [numbers, hx]
    apply List.mem_cons_self
  | mode =>
    obtain ⟨m, hm, rfl⟩ := Option.map_eq_some_iff.mp h
    rw [Draft.put, hm]
    apply (takes_readOption_readChoice (find?_cutMode m)).map
  | first =>
    obtain ⟨s, hs, rfl⟩ := Option.map_eq_some_iff.mp h
    rw [Draft.put, hs]
    apply (takes_readOption_readString s).map
  | second =>
    obtain ⟨s, hs, rfl⟩ := Option.map_eq_some_iff.mp h
    rw [Draft.put, hs]
    apply (takes_readOption_readString s).map
  | percent =>
    obtain ⟨x, hx, rfl⟩ := Option.map_eq_some_iff.mp h
    rw [Draft.put, hx]
    apply (hback x _).takes.map
    rw [numbers, hx]
    apply List.mem_append_right _ List.mem_cons_self
  | steps =>
    obtain ⟨n, hn, rfl⟩ := Option.map_eq_some_iff.mp h
    rw [Draft.put, hn]
    apply (takes_readOption_readCount (hr.steps_lt n hn)).map

theorem nextKey_quote (isFirst : Bool) (bs : List UInt8) :
  nextKey isFirst ((if isFirst then [] else [44]) ++ 34 :: bs) = .ok (true, bs)
  := by
  cases isFirst with
  | true =>
    change nextKey true (34 :: bs) = _
    rw [nextKey, bind_of_eq_ok (peekOr_cons (by decide) bs)]
    rfl
  | false =>
    have hadvance : advance (44 :: 34 :: bs) = .ok ((), 34 :: bs) := rfl
    change nextKey false (44 :: 34 :: bs) = _
    rw [nextKey, bind_of_eq_ok (peekOr_cons (by decide) _), if_neg (by decide),
      if_neg Bool.false_ne_true, if_pos (by decide), bind_of_eq_ok hadvance,
      bind_of_eq_ok (peekOr_cons (by decide) bs)]
    rfl

theorem nextKey_brace (isFirst : Bool) (bs : List UInt8) :
  nextKey isFirst (125 :: bs) = .ok (false, bs)
  := by
  rw [nextKey, bind_of_eq_ok (peekOr_cons (by decide) bs)]
  rfl

/-- One step takes one member off the text of a request. -/
theorem readPart_membersText (hr : r.IsSound) (hback : ∀ x ∈ r.numbers, ReadsBack x)
    (h : r.valueOf? f = some v) (hfresh : f ∉ d.fields) (isFirst : Bool) (fs : List Field) :
  readPart (.member isFirst d) (membersText r isFirst (f :: fs))
    = .ok (.inl (.member false (d.put r f)), membersText r false fs)
  := by
  rw [membersText_of_eq_some h, bytesOf_quote, readPart, List.cons_append,
    bind_of_eq_ok (nextKey_quote isFirst _), if_pos rfl, List.append_assoc, List.singleton_append,
    bind_of_eq_ok (readText_escaped f.name _), ofName?_name]
  dsimp only
  rw [if_neg hfresh, bind_of_eq_ok (readColon_cons _),
    bind_of_eq_ok (takes_readField hr hback h d _ (endsValue_membersText r fs))]
  rfl

/-- At the closing brace a draft that finishes ends the reading in its request. -/
theorem readPart_brace (h : d.finish = .ok r) (isFirst : Bool) :
  readPart (.member isFirst d) [125] = .ok (.inr r, [])
  := by
  rw [readPart, bind_of_eq_ok (nextKey_brace isFirst []), if_neg Bool.false_ne_true, h]
  rfl

/-- The steps take all members off the text of a request, if the draft before has the values of the
fields that no member is left for. -/
theorem repeatStep_membersText (hr : r.IsSound) (hback : ∀ x ∈ r.numbers, ReadsBack x)
    {fs : List Field} (hdistinct : fs.Nodup) (hfresh : ∀ f ∈ fs, f ∉ d.fields)
    (hagrees : ∀ f, (f ∈ fs → r.valueOf? f = none) → d.Agrees r f) (isFirst : Bool) {steps : Nat}
    (hsteps : (membersText r isFirst fs).length ≤ steps) :
  repeatStep readPart steps (.member isFirst d) (membersText r isFirst fs) = .ok (r, [])
  := by
  induction fs generalizing d isFirst steps with
  | nil =>
    have hfinish := Draft.finish_of_agrees fun f => hagrees f fun hf => by cases hf
    obtain ⟨steps, rfl⟩ := Nat.exists_eq_add_of_le' hsteps
    apply repeatStep_of_inr (readPart_brace hfinish isFirst)
  | cons f fs ih =>
    obtain ⟨hf, hdistinct⟩ := List.nodup_cons.mp hdistinct
    cases h : r.valueOf? f with
    | none =>
      -- There is no member for the field, and the draft keeps what it has, which is nothing.
      rw [membersText_of_eq_none h] at hsteps ⊢
      apply ih hdistinct (fun g hg => hfresh g (List.mem_cons_of_mem _ hg)) _ isFirst hsteps
      intro g hg
      apply hagrees g
      rintro (_ | ⟨_, hmem⟩)
      · exact h
      · exact hg hmem
    | some v =>
      have hlength : (membersText r false fs).length + 1 ≤ steps := by
        rw [membersText_of_eq_some h] at hsteps
        simp only [List.length_append, List.length_cons] at hsteps
        omega
      obtain ⟨steps, rfl⟩ := Nat.exists_eq_add_of_le' hlength
      rw [← add_assoc, repeatStep_of_inl
        (readPart_membersText hr hback h (hfresh f List.mem_cons_self) isFirst fs)]
      apply ih hdistinct _ _ false (Nat.le_add_left _ _)
      · intro g hg
        rw [Draft.fields_put, List.mem_cons, not_or]
        use ne_of_mem_of_not_mem hg hf, hfresh g (List.mem_cons_of_mem _ hg)
      · intro g hg
        by_cases hgf : g = f
        · subst hgf
          apply Draft.agrees_put
        · apply (hagrees g _).put
          intro hmem
          apply hg (List.mem_of_ne_of_mem hgf hmem)

/-- The text of a sound request whose numbers read back is read as that request. -/
theorem reader_membersText (hr : r.IsSound) (hback : ∀ x ∈ r.numbers, ReadsBack x) :
  reader (123 :: membersText r true Field.all) = .ok (r, [])
  := by
  rw [reader, bind_of_eq_ok (peekOr_cons (by decide) _)]
  apply repeatStep_membersText hr hback (by decide) (fun f _ => List.not_mem_nil) _ true
    (Nat.le_succ _)
  intro f hf
  apply Draft.agrees_empty (hf _)
  cases f <;> decide

/-- The text of a request that was read is read as this request, and another request that was read
has the same text only if it is the same, where the digits of their doubles are read back. -/
theorem read_compact (h : read text = .ok r) (hback : ∀ x ∈ r.numbers, x.isFinite → ReadsBack x) :
  read (bytesOf r.toJson.compact) = .ok r
    ∧ ∀ other r', read other = .ok r' → (∀ x ∈ r'.numbers, x.isFinite → ReadsBack x) →
      (r'.toJson.compact = r.toJson.compact ↔ r' = r)
  := by
  have hread {text : List UInt8} {r : Request} (h : read text = .ok r)
      (hback : ∀ x ∈ r.numbers, x.isFinite → ReadsBack x) :
      read (bytesOf r.toJson.compact) = .ok r := by
    have hr := isSound_of_read h
    rw [read, readAll, bytesOf_compact,
      reader_membersText hr fun x hx => hback x hx (hr.isFinite x hx)]
    rfl
  use hread h hback
  intro other r' h' hback'
  constructor
  · intro htext
    have hsame := hread h' hback'
    rw [htext, hread h hback] at hsame
    cases hsame
    rfl
  · rintro rfl
    rfl

theorem eq_ok_of_toOption {α : Type} {x : Except Fault α} {a : α} (h : x.toOption = some a) :
  x = .ok a
  := by
  cases x with
  | error fault => cases h
  | ok b =>
    cases h
    rfl

/-- An object with its members in another order and a list of all values are read as the same
request. -/
theorem read_compact_of_half :
  let object := bytesOf
    "\x7b\"x\":[],\"cp\":5e-1,\"a\":\"\\u0041\",\"b\":null,\"command\":\x7b\"cluster\":null\x7d\x7d"
  let list := bytesOf "[\"cluster\",0.5,null,\"A\",null,null,null]"
  let r : Request := ⟨.cluster, some 0.5, none, some "A", none, none, none⟩
  read object = .ok r ∧ read list = .ok r ∧ (∀ x ∈ r.numbers, x.isFinite → ReadsBack x)
    ∧ read (bytesOf r.toJson.compact) = .ok r
    ∧ r.toJson.compact = "\x7b\"command\":\"cluster\",\"cp\":0.5,\"a\":\"A\"\x7d"
  := by
  intro object list r
  have hobject : read object = .ok r := eq_ok_of_toOption (by decide +kernel)
  have hlist : read list = .ok r := eq_ok_of_toOption (by decide +kernel)
  have hhalf : ReadsBack 0.5 := eq_ok_of_toOption (by decide +kernel)
  have hback : ∀ x ∈ r.numbers, x.isFinite → ReadsBack x := by
    intro x hx _
    rw [List.mem_singleton.mp hx]
    exact hhalf
  obtain ⟨hread, -⟩ := read_compact hobject hback
  use hobject, hlist, hback, hread
  decide +kernel

end Request

end Cohesion

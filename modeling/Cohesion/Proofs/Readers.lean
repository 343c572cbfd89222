import Cohesion.Json.Reader
import Mathlib.Data.List.DropRight

/-!
# Readers

Two properties of readers that are kept when one reader follows another.  A reader `Yields` values
with a property, whatever the text is; and it is `IsLocal` if it reads the same once a value of an
object ends behind the text.  A local reader that takes all of a text therefore `Takes` it anywhere
in an object: `IsLocal.takes`.  Reading a number is local, `isLocal_readNumber`.
-/

namespace Cohesion

/-- A computation of two parts gives a value exactly when the first gives one from which the second
gives it. -/
theorem Except.bind_eq_ok_iff {ε α β : Type} {x : Except ε α} {f : α → Except ε β} {b : β} :
  (x >>= f) = .ok b ↔ ∃ a, x = .ok a ∧ f a = .ok b
  := by
  cases x with
  | error e =>
    constructor
    · rintro ⟨⟩
    · rintro ⟨_, ⟨⟩, _⟩
  | ok a =>
    constructor
    · intro h
      use a, rfl, h
    · rintro ⟨_, ⟨⟩, h⟩
      exact h

namespace Json

variable {α β : Type} {reader : Reader α} {f : α → Reader β} {a : α} {b : β} {c : Char}
  {fault : Fault} {bs left rest : List UInt8} {P : α → Prop} {Q : β → Prop}

/-! ### Readers one after the other -/

theorem bind_of_eq_ok (h : reader bs = .ok (a, left)) :
  (reader >>= f) bs = f a left
  := by
  change (reader bs >>= fun read => f read.1 read.2) = _
  rw [h]
  rfl

/-- Two readers in turn read a value exactly when the second reads it from what the first leaves. -/
theorem bind_eq_ok_iff :
  (reader >>= f) bs = .ok (b, rest)
    ↔ ∃ a left, reader bs = .ok (a, left) ∧ f a left = .ok (b, rest)
  := by
  change (reader bs >>= fun read => f read.1 read.2) = _ ↔ _
  rw [Except.bind_eq_ok_iff, Prod.exists]

/-- Every value that is read has a property. -/
def Yields (reader : Reader α) (P : α → Prop) : Prop :=
  ∀ bs a left, reader bs = .ok (a, left) → P a

namespace Yields

theorem pure (h : P a) :
  Yields (pure a) P
  := by
  rintro _ _ _ ⟨⟩
  exact h

theorem throw :
  Yields (throw fault) P
  := by
  rintro _ _ _ ⟨⟩

/-- What a reader yields is passed on to the reader that continues from it. -/
theorem bind (h : Yields reader P) (hf : ∀ a, P a → Yields (f a) Q) :
  Yields (reader >>= f) Q
  := by
  intro bs b rest hread
  obtain ⟨a, left, ha, hb⟩ := bind_eq_ok_iff.mp hread
  apply hf a (h _ _ _ ha) _ _ _ hb

/-- A property of what the second reader yields needs nothing of the first. -/
theorem after (hf : ∀ a, Yields (f a) Q) :
  Yields (reader >>= f) Q
  := bind (P := fun _ => True) (fun _ _ _ _ => trivial) fun a _ => hf a

end Yields

/-! ### The first character -/

/-- Peeking gives the first byte that is no white space, and leaves it in the input. -/
theorem peekOr_eq_ok_iff :
  peekOr fault bs = .ok (c, left)
    ↔ ∃ b more, bs.dropWhile isSpace = b :: more ∧ Char.ofUInt8 b = c ∧ b :: more = left
  := by
  have hpeek : peek bs
      = .ok ((bs.dropWhile isSpace).head?.map Char.ofUInt8, bs.dropWhile isSpace) := rfl
  rw [peekOr, bind_of_eq_ok hpeek]
  cases bs.dropWhile isSpace with
  | nil =>
    constructor
    · rintro ⟨⟩
    · rintro ⟨_, _, ⟨⟩, _⟩
  | cons b more =>
    constructor
    · rintro ⟨⟩
      use b, more
    · rintro ⟨_, _, ⟨⟩, rfl, rfl⟩
      rfl

theorem peekOr_cons {b : UInt8} (h : isSpace b = false) (bs : List UInt8) :
  peekOr fault (b :: bs) = .ok (Char.ofUInt8 b, b :: bs)
  := by
  rw [peekOr_eq_ok_iff]
  use b, bs
  rw [List.dropWhile_cons_of_neg (by rw [h]; exact Bool.false_ne_true)]
  use rfl, rfl

/-- A step that goes on is followed by the remaining steps from where it left. -/
theorem repeatStep_of_inl {σ : Type} {step : σ → Reader (σ ⊕ α)} {s t : σ}
    (h : step s bs = .ok (.inl t, left)) (steps : Nat) :
  repeatStep step (steps + 1) s bs = repeatStep step steps t left
  := by
  rw [repeatStep, h]

/-- A step that ends the repetition ends it with its result. -/
theorem repeatStep_of_inr {σ : Type} {step : σ → Reader (σ ⊕ α)} {s : σ}
    (h : step s bs = .ok (.inr a, left)) (steps : Nat) :
  repeatStep step (steps + 1) s bs = .ok (a, left)
  := by
  rw [repeatStep, h]

/-- What every step keeps holds at the end. -/
theorem yields_repeatStep {σ : Type} {step : σ → Reader (σ ⊕ α)} {I : σ → Prop}
    (h : ∀ s, I s → Yields (step s) (Sum.elim I P)) (steps : Nat) {s : σ} (hs : I s) :
  Yields (repeatStep step steps s) P
  := by
  induction steps generalizing s with
  | zero => exact .throw
  | succ steps ih =>
    intro bs a left hread
    cases hstep : step s bs with
    | error fault =>
      rw [repeatStep, hstep] at hread
      cases hread
    | ok read =>
      obtain ⟨t | b, rest⟩ := read
      · rw [repeatStep_of_inl hstep] at hread
        apply ih (h s hs _ _ _ hstep) _ _ _ hread
      · rw [repeatStep_of_inr hstep] at hread
        cases hread
        apply h s hs _ _ _ hstep

theorem readColon_cons (bs : List UInt8) :
  readColon (58 :: bs) = .ok ((), bs)
  := by
  rw [readColon, bind_of_eq_ok (peekOr_cons (by decide) bs)]
  rfl

/-- A value that is refused is not read. -/
theorem yields_refuse {expected : Expected} :
  Yields (refuse expected) P
  := by
  -- Whatever is found, and even if it cannot be read, the last step throws.
  apply Yields.after
  intro found
  dsimp only
  split
  · exact .after fun _ => .after fun _ => .throw
  · exact .after fun _ => .after fun _ => .throw
  · exact .after fun _ => .after fun _ => .throw
  · exact .after fun _ => .after fun _ => .after fun _ => .throw
  · exact .after fun _ => .throw
  · exact .after fun _ => .throw
  · split
    · exact .after fun _ => .after fun _ => .throw
    · exact .after fun _ => .throw
  · exact .after fun _ => .throw

/-! ### Values inside an object -/

/-- The value of a member ends in front of a comma or a closing brace. -/
def EndsValue (rest : List UInt8) : Prop :=
  rest.head? = some 44 ∨ rest.head? = some 125

/-- What is read off a text is read off it also where the value of a member ends behind the text. -/
def IsLocal (reader : Reader α) : Prop :=
  ∀ bs a left rest, EndsValue rest → reader bs = .ok (a, left) →
    reader (bs ++ rest) = .ok (a, left ++ rest)

/-- A text is read as a value where the value of a member ends behind the text. -/
def Takes (reader : Reader α) (text : List UInt8) (a : α) : Prop :=
  ∀ rest, EndsValue rest → reader (text ++ rest) = .ok (a, rest)

/-- A reader that takes the whole text takes it still when a function is applied to its value. -/
theorem Takes.map (h : Takes reader bs a) (g : α → β) :
  Takes (reader >>= fun a => Pure.pure (g a)) bs (g a)
  := by
  intro rest hrest
  rw [bind_of_eq_ok (h rest hrest)]
  rfl

namespace IsLocal

/-- A text that is taken whole is taken inside an object, too. -/
theorem takes (h : IsLocal reader) (htext : reader bs = .ok (a, [])) :
  Takes reader bs a
  := by
  intro rest hrest
  rw [h _ _ _ _ hrest htext, List.nil_append]

theorem pure :
  IsLocal (Pure.pure a)
  := by
  rintro _ _ _ rest _ ⟨⟩
  rfl

/-- A reader that yields nothing is local, as it reads no value. -/
theorem of_yields (h : Yields reader fun _ => False) :
  IsLocal reader
  := by
  intro bs a left rest _ hread
  apply absurd (h _ _ _ hread) not_false

/-- What a reader yields is passed on to the reader that continues from it. -/
theorem bind (h : IsLocal reader) (hf : ∀ a, IsLocal (f a)) :
  IsLocal (reader >>= f)
  := by
  intro bs b left rest hrest hread
  obtain ⟨a, mid, ha, hb⟩ := bind_eq_ok_iff.mp hread
  rw [bind_of_eq_ok (h _ _ _ _ hrest ha)]
  apply hf a _ _ _ _ hrest hb

end IsLocal

/-- Peeking depends on the input up to the end of the value alone. -/
theorem isLocal_peekOr :
  IsLocal (peekOr fault)
  := by
  intro bs c left rest hrest hread
  obtain ⟨b, more, hdrop, hc, rfl⟩ := peekOr_eq_ok_iff.mp hread
  rw [peekOr_eq_ok_iff]
  use b, more ++ rest
  rw [List.dropWhile_append, hdrop]
  use rfl, hc
  rfl

/-! ### Numbers -/

namespace EndsValue

/-- The byte behind a value, and the text from there on. -/
theorem exists_eq_cons (h : EndsValue rest) :
  ∃ b more, rest = b :: more ∧ (b = 44 ∨ b = 125)
  := by
  obtain h | h := h
  · obtain ⟨more, rfl⟩ := List.head?_eq_some_iff.mp h
    use 44, more, rfl, Or.inl rfl
  · obtain ⟨more, rfl⟩ := List.head?_eq_some_iff.mp h
    use 125, more, rfl, Or.inr rfl

/-- No character of a number is behind a value. -/
theorem after?_eq_none (h : EndsValue rest) {cs : List Char} (hcomma : ¬ cs.contains ',')
    (hbrace : ¬ cs.contains '\x7d') :
  after? cs rest = none
  := by
  obtain ⟨b, more, rfl, rfl | rfl⟩ := h.exists_eq_cons
  · rw [after?]
    apply if_neg hcomma
  · rw [after?]
    apply if_neg hbrace

/-- Matching characters that end no value depends on the text before the end alone. -/
theorem after?_append (h : EndsValue rest) {cs : List Char} (hcomma : ¬ cs.contains ',')
    (hbrace : ¬ cs.contains '\x7d') (bs : List UInt8) :
  after? cs (bs ++ rest) = (after? cs bs).map (· ++ rest)
  := by
  cases bs with
  | nil =>
    rw [List.nil_append, h.after?_eq_none hcomma hbrace]
    rfl
  | cons b bs =>
    rw [List.cons_append, after?, after?]
    split
    · rfl
    · rfl

/-- Taking a sign depends on the text before the end of the value alone. -/
theorem takeSign_append (h : EndsValue rest) (bs : List UInt8) :
  takeSign (bs ++ rest) = ((takeSign bs).1, (takeSign bs).2 ++ rest)
  := by
  rw [takeSign, takeSign, h.after?_append (by decide) (by decide)]
  cases after? ['-'] bs with
  | some left => rfl
  | none =>
    rw [Option.map_none, h.after?_append (by decide) (by decide)]
    cases after? ['+'] bs with
    | some left => rfl
    | none => rfl

end EndsValue

/-- The digits in front are the same when a text that ends the value is put after them. -/
theorem EndsValue.takeWhile_isDigit_append (h : EndsValue rest) (bs : List UInt8) :
  (bs ++ rest).takeWhile isDigit = bs.takeWhile isDigit
  := by
  induction bs with
  | nil =>
    obtain ⟨b, more, rfl, rfl | rfl⟩ := h.exists_eq_cons
    · rfl
    · rfl
  | cons b bs ih => rw [List.cons_append, List.takeWhile_cons, List.takeWhile_cons, ih]

theorem EndsValue.dropWhile_isDigit_append (h : EndsValue rest) (bs : List UInt8) :
  (bs ++ rest).dropWhile isDigit = bs.dropWhile isDigit ++ rest
  := by
  induction bs with
  | nil =>
    obtain ⟨b, more, rfl, rfl | rfl⟩ := h.exists_eq_cons
    · rfl
    · rfl
  | cons b bs ih =>
    rw [List.cons_append, List.dropWhile_cons, List.dropWhile_cons, ih]
    split
    · rfl
    · rfl

/-- Reading digits stops before what ends the value. -/
theorem isLocal_readDigits :
  IsLocal (readDigits fault)
  := by
  intro bs digits left rest hrest hread
  rw [readDigits] at hread
  rw [readDigits, hrest.takeWhile_isDigit_append, hrest.dropWhile_isDigit_append]
  split at hread
  · cases hread
  · cases hread
    apply if_neg ‹_›

/-- What may follow the digits of a number is an exponent. -/
def readExponent (fault : Fault) (n : Numeral) : Reader Numeral := fun bs =>
  match after? ['e', 'E'] bs with
  | some bs => do
    let (digits, left) ← readDigits fault (takeSign bs).2
    return ({ n with exponent := some ((takeSign bs).1, digits) }, left)
  | none => return (n, bs)

/-- Reading an exponent stops before what ends the value. -/
theorem isLocal_readExponent {n : Numeral} :
  IsLocal (readExponent fault n)
  := by
  intro bs numeral left rest hrest hread
  rw [readExponent] at hread
  rw [readExponent, hrest.after?_append (by decide) (by decide)]
  cases hmark : after? ['e', 'E'] bs with
  | none =>
    rw [hmark] at hread
    cases hread
    rfl
  | some behind =>
    rw [hmark] at hread
    obtain ⟨⟨digits, left⟩, hdigits, ⟨⟩⟩ := Except.bind_eq_ok_iff.mp hread
    dsimp only [Option.map_some]
    rw [hrest.takeSign_append, isLocal_readDigits _ _ _ _ hrest hdigits]
    rfl

/-- Reading a numeral stops before what ends the value. -/
theorem isLocal_readNumeral :
  IsLocal (readNumeral fault)
  := by
  intro bs numeral left rest hrest hread
  obtain ⟨⟨whole, behind⟩, hwhole, hread⟩ := Except.bind_eq_ok_iff.mp hread
  rw [readNumeral, hrest.after?_append (by decide) (by decide), Option.isSome_map, Option.getD_map,
    isLocal_readDigits _ _ _ _ hrest hwhole]
  change (if _ then _ else _) = _
  change (if _ then _ else _) = _ at hread
  split at hread
  · cases hread
  · rename_i hzero
    rw [if_neg hzero]
    dsimp only at hread ⊢
    rw [hrest.after?_append (by decide) (by decide)]
    cases hpoint : after? ['.'] behind with
    | none =>
      rw [hpoint] at hread
      apply isLocal_readExponent (n := ⟨_, whole, none, none⟩) _ _ _ _ hrest hread
    | some behind =>
      rw [hpoint] at hread
      obtain ⟨⟨fraction, behind⟩, hfraction, hread⟩ := Except.bind_eq_ok_iff.mp hread
      dsimp only [Option.map_some]
      rw [isLocal_readDigits _ _ _ _ hrest hfraction]
      apply isLocal_readExponent (n := ⟨_, whole, some fraction, none⟩) _ _ _ _ hrest hread

/-- Reading a number stops before what ends the value. -/
theorem isLocal_readNumber :
  IsLocal readNumber
  := by
  intro bs number left rest hrest hread
  obtain ⟨⟨numeral, left⟩, hnumeral, hread⟩ := Except.bind_eq_ok_iff.mp hread
  obtain ⟨number, hvalue, ⟨⟩⟩ := Except.bind_eq_ok_iff.mp hread
  rw [readNumber, isLocal_readNumeral _ _ _ _ hrest hnumeral]
  change (numeral.value >>= fun number => Pure.pure (number, left ++ rest)) = _
  rw [hvalue]
  rfl

end Json

end Cohesion

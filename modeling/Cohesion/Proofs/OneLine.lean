import Cohesion.Json.Printer
import Mathlib.Data.List.Basic

/-!
# Texts of one line

A text of one line has no line break and no carriage return.  Whatever texts and numbers a JSON value
holds, its compact text is one line: `Json.oneLine_compact`.
-/

namespace Cohesion

/-- A text without line breaks and carriage returns. -/
def OneLine (s : String) : Prop :=
  '\n' ∉ s.toList ∧ '\r' ∉ s.toList

instance (s : String) : Decidable (OneLine s) :=
  inferInstanceAs (Decidable (_ ∧ _))

variable {s t : String} {cs : List Char}

/-- Two texts together are one line exactly when each of them is. -/
theorem oneLine_append_iff :
  OneLine (s ++ t) ↔ OneLine s ∧ OneLine t
  := by
  rw [OneLine, String.toList_append, List.mem_append, List.mem_append, not_or, not_or, OneLine,
    OneLine, and_and_and_comm]

/-- A text is one line exactly when no character of it ends a line. -/
theorem oneLine_ofList_iff :
  OneLine (String.ofList cs) ↔ ∀ c ∈ cs, c ≠ '\n' ∧ c ≠ '\r'
  := by
  rw [OneLine, String.toList_ofList]
  constructor
  · rintro ⟨hbreak, hreturn⟩ c hc
    use ne_of_mem_of_not_mem hc hbreak, ne_of_mem_of_not_mem hc hreturn
  · intro h
    use fun hbreak => (h _ hbreak).1 rfl, fun hreturn => (h _ hreturn).2 rfl

/-- Parts on one line, joined by a separator on one line, are on one line. -/
theorem oneLine_intercalate {parts : List String} (hs : OneLine s) (h : ∀ p ∈ parts, OneLine p) :
  OneLine (s.intercalate parts)
  := by
  induction parts with
  | nil =>
    rw [String.intercalate_nil]
    decide
  | cons p parts ih =>
    cases parts with
    | nil =>
      rw [String.intercalate_singleton]
      apply h p List.mem_cons_self
    | cons q parts =>
      rw [String.intercalate_cons_cons, oneLine_append_iff, oneLine_append_iff]
      use ⟨h p List.mem_cons_self, hs⟩
      apply ih
      intro r hr
      apply h r (List.mem_cons_of_mem p hr)

/-! ### Numbers -/

theorem oneLine_of_isDigit (h : ∀ c ∈ cs, c.isDigit) :
  OneLine (String.ofList cs)
  := by
  rw [oneLine_ofList_iff]
  intro c hc
  constructor
  · rintro rfl
    cases h _ hc
  · rintro rfl
    cases h _ hc

theorem isDigit_of_mem_toDigits {n : Nat} {c : Char} (h : c ∈ Nat.toDigits 10 n) :
  c.isDigit
  := Nat.isDigit_of_mem_toDigits (by decide) (by decide) h

/-- The text of a number is one line. -/
theorem oneLine_toString (n : Nat) :
  OneLine (toString n)
  := oneLine_of_isDigit fun _ => isDigit_of_mem_toDigits

namespace NumberStyle

theorem oneLine_zeros (n : Nat) :
  OneLine (zeros n)
  := by
  apply oneLine_of_isDigit
  intro c hc
  rw [List.eq_of_mem_replicate hc]
  rfl

variable {digits : List Char}

/-- A number in plain form is one line. -/
theorem oneLine_plain {style : NumberStyle} (hwhole : OneLine style.whole)
    (h : ∀ c ∈ digits, c.isDigit) (exponent : Int) :
  OneLine (style.plain digits exponent)
  := by
  have htake (n : Nat) : OneLine (String.ofList (digits.take n)) :=
    oneLine_of_isDigit fun c hc => h c (List.mem_of_mem_take hc)
  have hdrop (n : Nat) : OneLine (String.ofList (digits.drop n)) :=
    oneLine_of_isDigit fun c hc => h c (List.mem_of_mem_drop hc)
  rw [plain]
  split
  · rw [oneLine_append_iff, oneLine_append_iff]
    use ⟨oneLine_of_isDigit h, oneLine_zeros _⟩
  · split
    · rw [oneLine_append_iff, oneLine_append_iff]
      exact ⟨⟨htake _, by decide⟩, hdrop _⟩
    · rw [oneLine_append_iff, oneLine_append_iff]
      exact ⟨⟨by decide, oneLine_zeros _⟩, oneLine_of_isDigit h⟩

/-- A number in scientific form is one line. -/
theorem oneLine_scientific (h : ∀ c ∈ digits, c.isDigit) (exponent : Int) :
  OneLine (scientific digits exponent)
  := by
  have hfraction : OneLine
      (if (digits.drop 1).isEmpty then "" else "." ++ String.ofList (digits.drop 1)) := by
    split
    · decide
    · rw [oneLine_append_iff]
      exact ⟨by decide, oneLine_of_isDigit fun c hc => h c (List.mem_of_mem_drop hc)⟩
  have hsign : OneLine (if exponent < 0 then "e-" else "e+") := by
    split
    · decide
    · decide
  rw [scientific, oneLine_append_iff, oneLine_append_iff, oneLine_append_iff]
  use ⟨⟨oneLine_of_isDigit fun c hc => h c (List.mem_of_mem_take hc), hfraction⟩, hsign⟩
  apply oneLine_toString

/-- A double is one line if the words of its style are. -/
theorem oneLine_text {style : NumberStyle} (hwhole : OneLine style.whole)
    (hnan : OneLine style.notANumber) (hinf : OneLine style.infinity)
    (hminus : OneLine style.minusInfinity) (x : Float) :
  OneLine (style.text x)
  := by
  have hsign : OneLine (if Magnitude.signed x then "-" else "") := by
    split
    · decide
    · decide
  have hdecimal (d : Decimal) : OneLine (style.decimal d) := by
    rw [decimal]
    split
    · apply oneLine_plain hwhole fun _ => isDigit_of_mem_toDigits
    · split
      · apply oneLine_plain hwhole fun _ => isDigit_of_mem_toDigits
      · apply oneLine_scientific fun _ => isDigit_of_mem_toDigits
  rw [text]
  split
  · exact hnan
  · split
    · exact hminus
    · exact hinf
  · rw [oneLine_append_iff, oneLine_append_iff]
    use ⟨hsign, by decide⟩
  · rw [oneLine_append_iff]
    exact ⟨hsign, hdecimal _⟩

end NumberStyle

/-! ### JSON -/

namespace Json

theorem hexDigit_ne {n : Nat} (h : n < 16) :
  hexDigit n ≠ '\n' ∧ hexDigit n ≠ '\r'
  := by
  have hdigits : ∀ n < 16, hexDigit n ≠ '\n' ∧ hexDigit n ≠ '\r' := by decide
  apply hdigits n h

/-- A character is escaped to characters that break no line. -/
theorem ne_of_mem_escape {c d : Char} (h : d ∈ escape c) :
  d ≠ '\n' ∧ d ≠ '\r'
  := by
  have hpair {x : Char} (hx : x ≠ '\n' ∧ x ≠ '\r') (h : d ∈ ['\\', x]) :
      d ≠ '\n' ∧ d ≠ '\r' := by
    rw [List.mem_pair] at h
    obtain rfl | rfl := h
    · decide
    · exact hx
  rw [escape] at h
  split_ifs at h with _ _ hbreak hreturn _ _ _ hcontrol
  · apply hpair (by decide) h
  · apply hpair (by decide) h
  · apply hpair (by decide) h
  · apply hpair (by decide) h
  · apply hpair (by decide) h
  · apply hpair (by decide) h
  · apply hpair (by decide) h
  · simp only [List.mem_cons, List.not_mem_nil, or_false] at h
    obtain rfl | rfl | rfl | rfl | rfl | rfl := h
    · decide
    · decide
    · decide
    · decide
    · apply hexDigit_ne (by omega)
    · apply hexDigit_ne (by omega)
  · rw [List.mem_singleton.mp h]
    exact ⟨hbreak, hreturn⟩

/-- A quoted string is one line, as the ends of lines in it are escaped. -/
theorem oneLine_quote (s : String) :
  OneLine (quote s)
  := by
  rw [quote, oneLine_append_iff, oneLine_append_iff]
  refine ⟨⟨by decide, ?_⟩, by decide⟩
  rw [oneLine_ofList_iff]
  intro d hd
  obtain ⟨c, -, hd⟩ := List.mem_flatMap.mp hd
  apply ne_of_mem_escape hd

/-- Parts on one line are on one line between brackets. -/
theorem oneLine_bracketed {opening closing : String} {parts : List String} (ho : OneLine opening)
    (hc : OneLine closing) (h : ∀ p ∈ parts, OneLine p) :
  OneLine (bracketed opening closing parts)
  := by
  rw [bracketed, oneLine_append_iff, oneLine_append_iff]
  use ⟨ho, oneLine_intercalate (by decide) h⟩

mutual

/-- A compact text is one line. -/
theorem oneLine_compact : ∀ value : Json, OneLine value.compact
  | .null => by decide
  | .bool b => by
    cases b
    · decide
    · decide
  | .nat n => oneLine_toString n
  | .number x => NumberStyle.oneLine_text (by decide) (by decide) (by decide) (by decide) x
  | .text s => oneLine_quote s
  | .list items => oneLine_bracketed (by decide) (by decide) (oneLine_compactItems items)
  | .object members => oneLine_bracketed (by decide) (by decide) (oneLine_compactMembers members)

/-- The compact texts of the items of an array are one line each. -/
theorem oneLine_compactItems : ∀ items : List Json, ∀ p ∈ compactItems items, OneLine p
  | [] => fun _ h => absurd h List.not_mem_nil
  | item :: items => by
    intro p hp
    obtain rfl | hp := List.mem_cons.mp hp
    · apply oneLine_compact item
    · apply oneLine_compactItems items p hp

theorem oneLine_compactMembers :
  ∀ members : List (String × Json), ∀ p ∈ compactMembers members, OneLine p
  | [] => fun _ h => absurd h List.not_mem_nil
  | (name, value) :: members => by
    intro p hp
    obtain rfl | hp := List.mem_cons.mp hp
    · rw [oneLine_append_iff, oneLine_append_iff]
      exact ⟨⟨oneLine_quote name, by decide⟩, oneLine_compact value⟩
    · apply oneLine_compactMembers members p hp

end

end Json

end Cohesion

import Cohesion.Proofs.Lines
import Cohesion.Proofs.OneLine
import Cohesion.Proofs.Readers
import Cohesion.Request

/-!
# Values that are read back

What is written inside an object is read back as what it was: texts in quotation marks
(`Request.takes_readString`), names (`Request.takes_readChoice`), counts of at most 64 bits
(`Request.takes_readOption_readCount`), and those doubles whose digits are read back by themselves
(`Request.ReadsBack.takes`).  A value that may be absent is read like one that may not:
`Request.takes_readOption`.
-/

namespace Cohesion

theorem bytesOf_append (s t : String) :
  bytesOf (s ++ t) = bytesOf s ++ bytesOf t
  := by
  rw [bytesOf, String.toList_append, List.flatMap_append]
  rfl

theorem bytesOf_ofList (cs : List Char) :
  bytesOf (String.ofList cs) = cs.flatMap String.utf8EncodeChar
  := by
  rw [bytesOf, String.toList_ofList]

theorem toNat_ofUInt8 (b : UInt8) :
  (Char.ofUInt8 b).toNat = b.toNat
  := UInt8.toNat_toUInt32 b

/-- A character below 128 is a byte, and it is read off this byte. -/
theorem exists_byte_of_lt {c : Char} (h : c.toNat < 128) :
  ∃ b, String.utf8EncodeChar c = [b] ∧ Char.ofUInt8 b = c
  := by
  obtain ⟨-, hbyte⟩ | ⟨hhigh, -⟩ := utf8EncodeChar_cases c
  · use UInt8.ofNat c.toNat, hbyte
    rw [← Char.toNat_inj, toNat_ofUInt8, UInt8.toNat_ofNat', Nat.mod_eq_of_lt (by omega)]
  · omega

namespace Json

variable {α : Type} {s : String} {c : Char} {text bytes left rest acc : List UInt8} {fault : Fault}

/-! ### Quoted texts -/

/-- Bytes that stand for themselves are taken as they are. -/
theorem textUpToQuote_plain {escape : (bs : List UInt8) → Except Fault (List UInt8 × Rest bs)}
    (h : ∀ b ∈ text, 32 ≤ b.toNat ∧ b.toNat ≠ 34 ∧ b.toNat ≠ 92) (acc rest : List UInt8) :
  textUpToQuote escape acc (text ++ rest) = textUpToQuote escape (text.reverse ++ acc) rest
  := by
  induction text generalizing acc with
  | nil => rfl
  | cons b text ih =>
    obtain ⟨hlow, hquote, hslash⟩ := h b List.mem_cons_self
    have hne (c : Char) (hc : b.toNat ≠ c.toNat) : Char.ofUInt8 b ≠ c := by
      rw [Ne, ← Char.toNat_inj, toNat_ofUInt8]
      exact hc
    have hlow' : ¬ b < 32 := by
      rw [UInt8.lt_iff_toNat_lt, not_lt]
      exact hlow
    rw [List.cons_append, textUpToQuote, if_neg (hne '"' hquote), if_neg (hne '\\' hslash),
      if_neg hlow', ih (fun b hb => h b (List.mem_cons_of_mem _ hb)), List.reverse_cons,
      List.append_assoc, List.singleton_append]

/-- An escape in the text is read into the bytes it stands for. -/
theorem textUpToQuote_escape {left : Rest text} (h : readEscape text = .ok (bytes, left))
    (acc : List UInt8) :
  textUpToQuote readEscape acc (92 :: text) = textUpToQuote readEscape (bytes.reverse ++ acc) left.1
  := by
  rw [textUpToQuote, if_neg (by decide), if_pos (by decide), h]

/-- A character is written as an escape of one letter, as the number of a control character, or as
itself. -/
theorem escape_cases (c : Char) :
  (∃ e, escape c = ['\\', e] ∧ escaped? e = some c ∧ e ≠ 'u' ∧ e.toNat < 128)
    ∨ c.toNat < 32
      ∧ escape c = ['\\', 'u', '0', '0', hexDigit (c.toNat / 16), hexDigit (c.toNat % 16)]
    ∨ 32 ≤ c.toNat ∧ c.toNat ≠ 34 ∧ c.toNat ≠ 92 ∧ escape c = [c]
  := by
  by_cases hshort : c ∈ ['"', '\\', '\n', '\r', '\t', '\x08', '\x0c']
  · left
    simp only [List.mem_cons, List.not_mem_nil, or_false] at hshort
    obtain rfl | rfl | rfl | rfl | rfl | rfl | rfl := hshort
    · use '"', rfl, rfl, by decide, by decide
    · use '\\', rfl, rfl, by decide, by decide
    · use 'n', rfl, rfl, by decide, by decide
    · use 'r', rfl, rfl, by decide, by decide
    · use 't', rfl, rfl, by decide, by decide
    · use 'b', rfl, rfl, by decide, by decide
    · use 'f', rfl, rfl, by decide, by decide
  · right
    simp only [List.mem_cons, List.not_mem_nil, or_false, not_or] at hshort
    obtain ⟨h1, h2, h3, h4, h5, h6, h7⟩ := hshort
    rw [escape, if_neg h1, if_neg h2, if_neg h3, if_neg h4, if_neg h5, if_neg h6, if_neg h7]
    by_cases hlow : c.toNat < 32
    · left
      use hlow
      apply if_pos hlow
    · right
      rw [← Char.toNat_inj] at h1 h2
      use not_lt.mp hlow, h1, h2
      apply if_neg hlow

/-- The four hexadecimal digits written for a control character are read as its number. -/
theorem hexNumber?_hexDigits : ∀ n < 32,
  hexNumber? ['0', '0', hexDigit (n / 16), hexDigit (n % 16)] 0 = some n
  := by decide

theorem toNat_hexDigit_lt : ∀ n < 16,
  (hexDigit n).toNat < 128
  := by decide

/-- A code unit below the surrogates is read as the character with that number. -/
theorem readUnit_of_lt {n : Nat} {left : Rest text} (hn : n < 0xD800)
    (h : readHex text = .ok (n, left)) :
  readUnit text = .ok (Char.ofNat n, left)
  := by
  rw [readUnit, h]
  dsimp only
  rw [if_neg (by simp; omega), if_neg (by simp; omega)]

/-- The number of a control character is read back. -/
theorem textUpToQuote_unit (h : c.toNat < 32) (acc rest : List UInt8) :
  textUpToQuote readEscape acc
      ((['\\', 'u', '0', '0', hexDigit (c.toNat / 16), hexDigit (c.toNat % 16)].flatMap
        String.utf8EncodeChar) ++ rest)
    = textUpToQuote readEscape ((String.utf8EncodeChar c).reverse ++ acc) rest
  := by
  obtain ⟨b, hb, hhigh⟩ := exists_byte_of_lt (toNat_hexDigit_lt (c.toNat / 16) (by omega))
  obtain ⟨b', hb', hlow⟩ := exists_byte_of_lt (toNat_hexDigit_lt (c.toNat % 16) (by omega))
  have hbytes : ['\\', 'u', '0', '0', hexDigit (c.toNat / 16), hexDigit (c.toNat % 16)].flatMap
      String.utf8EncodeChar ++ rest = 92 :: 117 :: 48 :: 48 :: b :: b' :: rest := by
    simp only [List.flatMap_cons, List.flatMap_nil, hb, hb']
    rfl
  have hhex : hexNumber? [Char.ofUInt8 48, Char.ofUInt8 48, Char.ofUInt8 b, Char.ofUInt8 b'] 0
      = some c.toNat := by
    rw [hhigh, hlow]
    apply hexNumber?_hexDigits _ h
  have hread : readHex (48 :: 48 :: b :: b' :: rest)
      = .ok (c.toNat, ⟨rest, Nat.le_add_right rest.length 4⟩) := by
    rw [readHex, hhex]
  have hescape : readEscape (117 :: 48 :: 48 :: b :: b' :: rest)
      = .ok (String.utf8EncodeChar c, ⟨rest, Nat.le_add_right rest.length 5⟩) := by
    rw [readEscape, if_pos (by decide), readUnit_of_lt (by omega) hread, Char.ofNat_toNat]
    rfl
  rw [hbytes, textUpToQuote_escape hescape]

/-- A character is read back from its place in a quoted text. -/
theorem textUpToQuote_escape_append (c : Char) (acc rest : List UInt8) :
  textUpToQuote readEscape acc ((escape c).flatMap String.utf8EncodeChar ++ rest)
    = textUpToQuote readEscape ((String.utf8EncodeChar c).reverse ++ acc) rest
  := by
  obtain ⟨e, hc, hshort, hu, hlow⟩ | ⟨hlow, hc⟩ | ⟨hlow, hquote, hslash, hc⟩ := escape_cases c
  · obtain ⟨b, hb, hbyte⟩ := exists_byte_of_lt hlow
    have hescape : readEscape (b :: rest)
        = .ok (String.utf8EncodeChar c, (Rest.whole rest).behind) := by
      rw [readEscape, hbyte, if_neg hu, hshort]
    rw [hc, List.flatMap_cons, List.flatMap_singleton, hb]
    apply textUpToQuote_escape hescape
  · rw [hc, textUpToQuote_unit hlow]
  · rw [hc, List.flatMap_singleton]
    apply textUpToQuote_plain
    intro b hb
    obtain ⟨hlow', hbyte⟩ | ⟨-, hhigh⟩ := utf8EncodeChar_cases c
    · rw [hbyte, List.mem_singleton] at hb
      rw [hb, UInt8.toNat_ofNat', Nat.mod_eq_of_lt (by omega)]
      use hlow, hquote, hslash
    · have := hhigh b hb
      omega

/-- The escaped text of a string, up to its closing quote, is read as the string. -/
theorem textUpToQuote_escaped (cs : List Char) (acc rest : List UInt8) :
  textUpToQuote readEscape acc
      ((cs.flatMap escape).flatMap String.utf8EncodeChar ++ 34 :: rest)
    = .ok (acc.reverse ++ cs.flatMap String.utf8EncodeChar, rest)
  := by
  induction cs generalizing acc with
  | nil =>
    rw [List.flatMap_nil, List.flatMap_nil, List.nil_append, textUpToQuote, if_pos (by decide),
      List.append_nil]
  | cons c cs ih =>
    rw [List.flatMap_cons, List.flatMap_append, List.append_assoc, textUpToQuote_escape_append, ih,
      List.reverse_append, List.reverse_reverse, List.append_assoc, List.flatMap_cons]

/-- What follows the opening quotation mark of a text is read back as the text. -/
theorem readText_escaped (s : String) (rest : List UInt8) :
  readText ((s.toList.flatMap escape).flatMap String.utf8EncodeChar ++ 34 :: rest)
    = .ok (s, rest)
  := by
  rw [readText, textUpToQuote_escaped, List.reverse_nil, List.nil_append]
  dsimp only
  rw [textOfBytes?_bytes, String.ofList_toList]

/-- The bytes of a quoted string are those of its escaped characters between two quotes. -/
theorem bytesOf_quote (s : String) :
  bytesOf (quote s) = 34 :: ((s.toList.flatMap escape).flatMap String.utf8EncodeChar ++ [34])
  := by
  rw [quote, bytesOf_append, bytesOf_append, bytesOf_ofList, bytesOf_ofList, List.append_assoc]
  rfl

/-! ### Digits -/

theorem ofDigits_cons (c : Char) (cs : List Char) (acc : Nat) :
  Decimal.ofDigits (c :: cs) acc = Decimal.ofDigits cs (10 * acc + Decimal.digitValue c)
  := rfl

theorem le_ofDigits (cs : List Char) (acc : Nat) :
  acc ≤ Decimal.ofDigits cs acc
  := by
  induction cs generalizing acc with
  | nil => apply le_rfl
  | cons c cs ih =>
    have hle := ih (10 * acc + Decimal.digitValue c)
    rw [ofDigits_cons]
    omega

/-- Digits whose number fits into 64 bits are all kept. -/
theorem keepDigits_of_lt {cs : List Char} {acc : Nat}
    (h : Decimal.ofDigits cs acc < Nat.pow 2 64) :
  keepDigits acc cs = (Decimal.ofDigits cs acc, [])
  := by
  induction cs generalizing acc with
  | nil => rfl
  | cons c cs ih =>
    rw [ofDigits_cons] at h ⊢
    rw [keepDigits, if_pos (lt_of_le_of_lt (le_ofDigits _ _) h), ih h]

/-- The decimal digits of a number give that number. -/
theorem ofDigits_toDigits (n : Nat) :
  Decimal.ofDigits (Nat.toDigits 10 n) 0 = n
  := by
  have hdigits : Decimal.ofDigits (Nat.toDigits 10 n) 0
      = Nat.ofDigitChars 10 (Nat.toDigits 10 n) 0 := by
    apply List.foldl_ext
    intro acc c hc
    rw [Decimal.digitValue, if_pos (isDigit_of_mem_toDigits hc)]
  rw [hdigits, Nat.ofDigitChars_toDigits (by decide) (by decide)]

/-- No number but zero starts with a zero. -/
theorem head?_toDigits {n : Nat} (h : 0 < n) :
  (Nat.toDigits 10 n).head? ≠ some '0'
  := by
  induction n using Nat.strongRecOn with
  | ind n ih =>
    obtain hlow | hhigh := lt_or_ge n 10
    · have hdigit : ∀ n < 10, 0 < n → some n.digitChar ≠ some '0' := by decide
      rw [Nat.toDigits_of_lt_base hlow]
      apply hdigit n hlow h
    · obtain ⟨first, others, hdigits⟩ := List.exists_cons_of_ne_nil Nat.toDigits_ne_nil
      have hfirst := ih (n / 10) (by omega) (by omega)
      rw [hdigits] at hfirst
      rw [Nat.toDigits_of_base_le (by decide) hhigh, hdigits]
      exact hfirst

/-- The bytes of digits are digits. -/
theorem exists_bytes_of_digits {cs : List Char} (h : ∀ c ∈ cs, c.isDigit) :
  ∃ bs, cs.flatMap String.utf8EncodeChar = bs ∧ bs.map Char.ofUInt8 = cs ∧ ∀ b ∈ bs, isDigit b
  := by
  induction cs with
  | nil => use [], rfl, rfl, fun b hb => absurd hb List.not_mem_nil
  | cons c cs ih =>
    have hc := h c List.mem_cons_self
    obtain ⟨hlow, hhigh⟩ := Char.isDigit_iff_toNat.mp hc
    obtain ⟨b, hb, hbyte⟩ := exists_byte_of_lt (lt_of_le_of_lt hhigh (by decide))
    obtain ⟨bs, hbs, hbytes, hdigits⟩ := ih fun c hc => h c (List.mem_cons_of_mem _ hc)
    use b :: bs
    rw [List.flatMap_cons, hb, hbs, List.map_cons, hbyte, hbytes, List.forall_mem_cons, isDigit,
      hbyte]
    use rfl, rfl, hc

/-- The text of a number is a nonempty list of digits. -/
theorem exists_bytes_toString (n : Nat) :
  ∃ b bs, bytesOf (toString n) = b :: bs ∧ (b :: bs).map Char.ofUInt8 = Nat.toDigits 10 n
    ∧ ∀ digit ∈ b :: bs, isDigit digit
  := by
  obtain ⟨bytes, hbytes, hchars, hdigits⟩ :=
    exists_bytes_of_digits fun c (hc : c ∈ Nat.toDigits 10 n) => isDigit_of_mem_toDigits hc
  have htext : bytesOf (toString n) = bytes := by
    rw [← hbytes, ← bytesOf_ofList]
    rfl
  cases bytes with
  | nil => cases Nat.toDigits_ne_nil hchars.symm
  | cons b bs => use b, bs, htext, hchars, hdigits

/-- A digit is none of some other characters. -/
theorem contains_ofUInt8_of_isDigit {b : UInt8} {cs : List Char} (hb : isDigit b)
    (h : cs.all (!·.isDigit)) :
  cs.contains (Char.ofUInt8 b) = false
  := by
  rw [Bool.eq_false_iff, Ne, List.contains_iff_mem]
  intro hmem
  have hdigit := List.all_eq_true.mp h _ hmem
  rw [Bool.not_eq_true', ← isDigit, hb] at hdigit
  cases hdigit

/-- The text of a number is read as its digits, with nothing left. -/
theorem readDigits_toString (n : Nat) :
  readDigits fault (bytesOf (toString n)) = .ok (Nat.toDigits 10 n, [])
  := by
  obtain ⟨b, bs, hbytes, hchars, hdigits⟩ := exists_bytes_toString n
  have htake : (b :: bs).takeWhile isDigit = b :: bs := List.takeWhile_eq_self_iff.mpr hdigits
  have hdrop : (b :: bs).dropWhile isDigit = [] := List.dropWhile_eq_nil_iff.mpr hdigits
  rw [hbytes, readDigits, htake, hdrop, hchars]
  apply if_neg
  rw [List.isEmpty_iff]
  apply Nat.toDigits_ne_nil

/-- The digits of a number are a numeral: there is no zero in front of other digits. -/
theorem readNumeral_toString (n : Nat) :
  readNumeral fault (bytesOf (toString n)) = .ok (⟨false, Nat.toDigits 10 n, none, none⟩, [])
  := by
  have hsign : after? ['-'] (bytesOf (toString n)) = none := by
    obtain ⟨b, bs, hbytes, -, hdigits⟩ := exists_bytes_toString n
    rw [hbytes, after?, contains_ofUInt8_of_isDigit (hdigits b List.mem_cons_self) (by decide)]
    rfl
  have hzero : ¬ ((Nat.toDigits 10 n).head? = some '0' && Nat.toDigits 10 n ≠ ['0']) := by
    rw [Bool.and_eq_true, decide_eq_true_iff, decide_eq_true_iff]
    rintro ⟨hhead, hne⟩
    obtain rfl | hpos := n.eq_zero_or_pos
    · apply hne rfl
    · apply head?_toDigits hpos hhead
  rw [readNumeral, hsign]
  apply Except.bind_eq_ok_iff.mpr
  use (Nat.toDigits 10 n, []), readDigits_toString n
  apply if_neg hzero

/-- The digits of a number and nothing else are read as the number. -/
theorem readNumber_toString {n : Nat} (h : n < Nat.pow 2 64) :
  readNumber (bytesOf (toString n)) = .ok (.natural n, [])
  := by
  have hvalue : Numeral.value ⟨false, Nat.toDigits 10 n, none, none⟩ = .ok (.natural n) := by
    rw [Numeral.value, keepDigits_of_lt, ofDigits_toDigits]
    · rfl
    · rw [ofDigits_toDigits]
      exact h
  apply Except.bind_eq_ok_iff.mpr ⟨_, readNumeral_toString n, _⟩
  exact Except.bind_eq_ok_iff.mpr ⟨_, hvalue, rfl⟩

end Json

namespace Request

open Json

variable {α : Type} {text : List UInt8} {f : Char → Reader α} {a : α} {x : Float}

/-! ### Values that may be absent -/

/-- A value that is read by its first character is read in the same way where it may be absent,
unless the reader takes an `n` at its front. -/
theorem takes_readOption (h : Takes (peekOr .endOfValue >>= f) text a)
    (hnull : Yields (f 'n') fun _ => False) :
  Takes (readOption (peekOr .endOfValue >>= f)) text (some a)
  := by
  intro rest hrest
  obtain ⟨c, left, hpeek, hread⟩ := bind_eq_ok_iff.mp (h rest hrest)
  obtain ⟨b, more, hdrop, rfl, rfl⟩ := peekOr_eq_ok_iff.mp hpeek
  have hspace : isSpace b = false := by
    have hidem := List.dropWhile_idempotent isSpace (text ++ rest)
    rw [hdrop, List.dropWhile_cons] at hidem
    by_contra hb
    rw [if_pos (by simpa using hb)] at hidem
    have hlength := (List.dropWhile_sublist isSpace (l := more)).length_le
    rw [hidem, List.length_cons] at hlength
    omega
  have hfirst : peek (text ++ rest) = .ok (some (Char.ofUInt8 b), b :: more) := by
    rw [peek, hdrop]
    rfl
  have hne : ¬ some (Char.ofUInt8 b) = some 'n' := by
    intro hb
    rw [Option.some_inj.mp hb] at hread
    apply hnull _ _ _ hread
  rw [readOption, bind_of_eq_ok hfirst, if_neg hne]
  apply bind_eq_ok_iff.mpr
  use a, rest
  rw [bind_of_eq_ok (peekOr_cons hspace more)]
  use hread
  rfl

/-! ### Texts and names -/

/-- A quoted string is read as that string. -/
theorem takes_readString (s : String) :
  Takes readString (bytesOf (quote s)) s
  := by
  intro rest _
  rw [bytesOf_quote, List.cons_append, List.append_assoc, List.singleton_append, readString,
    bind_of_eq_ok (peekOr_cons (by decide) _)]
  apply readText_escaped

/-- A quoted string is read as that string where null may stand as well. -/
theorem takes_readOption_readString (s : String) :
  Takes (readOption readString) (bytesOf (quote s)) (some s)
  := takes_readOption (takes_readString s) yields_refuse

/-- A name is read back where it is found among the names. -/
theorem takes_readChoice {choices : List α} {name : α → String}
    (h : choices.find? (name · = name a) = some a) :
  Takes (readChoice choices name) (bytesOf (quote (name a))) a
  := by
  intro rest _
  rw [bytesOf_quote, List.cons_append, List.append_assoc, List.singleton_append, readChoice,
    bind_of_eq_ok (peekOr_cons (by decide) _)]
  change readName choices name _ = _
  rw [readName]
  apply bind_eq_ok_iff.mpr
  use name a, rest, readText_escaped _ _
  rw [h]
  rfl

/-- The quoted name of a choice is read as the first choice of that name. -/
theorem takes_readOption_readChoice {choices : List α} {name : α → String}
    (h : choices.find? (name · = name a) = some a) :
  Takes (readOption (readChoice choices name)) (bytesOf (quote (name a))) (some a)
  := takes_readOption (takes_readChoice h) .throw

/-! ### Numbers -/

/-- The digits of a double are read as the double. -/
def ReadsBack (x : Float) : Prop :=
  readFloat (bytesOf (NumberStyle.json.text x)) = .ok (x, [])

/-- Digits are rounded before they are scaled, so that some doubles are read as a neighbour. -/
theorem not_forall_readsBack :
  ¬ ∀ x : Float, x.isFinite → ReadsBack x
  := by
  intro h
  have hread := congrArg Except.toOption (h 98.30571047624649 (by decide +kernel))
  revert hread
  decide +kernel

theorem isLocal_ofNumber {expected : Expected} {f : Number → Reader α}
    (h : ∀ number, IsLocal (f number)) :
  IsLocal (peekOr .endOfValue >>= fun c =>
    if c = '-' || c.isDigit then readNumber >>= f else refuse expected)
  := by
  apply IsLocal.bind isLocal_peekOr
  intro c
  split
  · apply IsLocal.bind isLocal_readNumber h
  · apply IsLocal.of_yields yields_refuse

/-- Reading a number as a double stops before what ends the value. -/
theorem isLocal_readFloat :
  IsLocal readFloat
  := isLocal_ofNumber fun _ => .pure

/-- A double that reads back from its text is read from it as the value of a field. -/
theorem ReadsBack.takes (h : ReadsBack x) :
  Takes (readOption readFloat) (bytesOf (NumberStyle.json.text x)) (some x)
  := takes_readOption (isLocal_readFloat.takes h) yields_refuse

/-- Reading a count stops before what ends the value. -/
theorem isLocal_readCount :
  IsLocal readCount
  := by
  apply isLocal_ofNumber
  intro number
  cases number with
  | natural n => apply IsLocal.pure
  | negative n => apply IsLocal.of_yields .throw
  | double x => apply IsLocal.of_yields .throw

/-- The text of a count below two to the sixty-fourth is read as that count. -/
theorem readCount_toString {n : Nat} (h : n < Nat.pow 2 64) :
  readCount (bytesOf (toString n)) = .ok (n, [])
  := by
  obtain ⟨b, bs, hbytes, -, hdigits⟩ := exists_bytes_toString n
  have hdigit := hdigits b List.mem_cons_self
  have hspace : isSpace b = false := contains_ofUInt8_of_isDigit hdigit (by decide)
  have hread := readNumber_toString h
  rw [hbytes] at hread
  rw [hbytes, readCount, bind_of_eq_ok (peekOr_cons hspace bs), if_pos, bind_of_eq_ok hread]
  · rfl
  · rw [Bool.or_eq_true]
    right
    exact hdigit

/-- The text of such a count is read as it where null may stand as well. -/
theorem takes_readOption_readCount {n : Nat} (h : n < Nat.pow 2 64) :
  Takes (readOption readCount) (bytesOf (toString n)) (some n)
  := takes_readOption (isLocal_readCount.takes (readCount_toString h)) yields_refuse

end Request

end Cohesion

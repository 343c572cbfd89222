import Cohesion.Text.Lines
import Mathlib.Data.List.Basic

/-!
# Lines of a text

The lines of an input are the pieces between its line breaks, without an empty piece in the end:
`splitLines_eq`.  The bytes of a text break into lines where the text does, `splitOn_bytes`, and the
bytes of a line are read as the line, up to a blank in the end: `exists_lineText?_bytes`.
-/

namespace Cohesion

/-! ### Pieces between separators -/

section

variable {α : Type} [DecidableEq α] {a : α} {xs piece : List α}

theorem not_mem_of_mem_splitOn (h : piece ∈ xs.splitOn a) :
  a ∉ piece
  := by
  induction xs generalizing piece with
  | nil =>
    rw [List.splitOn_nil, List.mem_singleton] at h
    rw [h]
    apply List.not_mem_nil
  | cons x xs ih =>
    obtain ⟨first, rest, hpieces⟩ := List.exists_cons_of_ne_nil (List.splitOn_ne_nil a xs)
    rw [List.splitOn_cons_eq_if_modifyHead, hpieces, List.modifyHead_cons] at h
    rw [hpieces] at ih
    split at h
    · obtain rfl | h := List.mem_cons.mp h
      · apply List.not_mem_nil
      · apply ih h
    · rename_i hx
      obtain rfl | h := List.mem_cons.mp h
      · rw [List.mem_cons, not_or]
        use Ne.symm (by simpa using hx), ih List.mem_cons_self
      · apply ih (List.mem_cons_of_mem first h)

/-- What has no separator in it goes in front of the first piece of the rest. -/
theorem splitOn_append_of_not_mem (h : a ∉ xs) (rest : List α) :
  (xs ++ rest).splitOn a = (rest.splitOn a).modifyHead (xs ++ ·)
  := by
  induction xs with
  | nil =>
    obtain ⟨first, others, hpieces⟩ := List.exists_cons_of_ne_nil (List.splitOn_ne_nil a rest)
    rw [List.nil_append, hpieces, List.modifyHead_cons, List.nil_append]
  | cons x xs ih =>
    rw [List.mem_cons, not_or] at h
    rw [List.cons_append, List.splitOn_cons_eq_if_modifyHead, if_neg (by simpa using Ne.symm h.1),
      ih h.2, List.modifyHead_modifyHead]
    rfl

end

/-! ### Lines of bytes -/

/-- Pieces without an empty one in the end. -/
def withoutEmptyEnd (pieces : List (List UInt8)) : List (List UInt8) :=
  if pieces.getLast? = some [] then pieces.dropLast else pieces

theorem withoutEmptyEnd_cons (piece : List UInt8) {pieces : List (List UInt8)} (h : pieces ≠ []) :
  withoutEmptyEnd (piece :: pieces) = piece :: withoutEmptyEnd pieces
  := by
  obtain ⟨first, rest, rfl⟩ := List.exists_cons_of_ne_nil h
  rw [withoutEmptyEnd, withoutEmptyEnd, List.getLast?_cons_cons]
  split
  · rfl
  · rfl

/-- The loop over the input gives the lines done, then the pieces of what is left. -/
theorem splitLines_go_eq (input before : List UInt8) (done : List (List UInt8)) :
  splitLines.go input before done
    = done.reverse ++ withoutEmptyEnd (List.splitOnPPrepend (· == 10) input before)
  := by
  induction input generalizing before done with
  | nil =>
    cases before with
    | nil =>
      rw [splitLines.go, List.splitOnPPrepend_nil]
      exact (List.append_nil _).symm
    | cons b before =>
      rw [splitLines.go, List.splitOnPPrepend_nil, withoutEmptyEnd, List.getLast?_singleton,
        if_neg (by simp), List.reverse_cons (a := (b :: before).reverse)]
      apply List.cons_ne_nil
  | cons b input ih =>
    rw [splitLines.go, List.splitOnPPrepend_cons_eq_if]
    by_cases hb : b = 10
    · rw [if_pos hb, if_pos (by simpa using hb), ih, List.splitOnPPrepend_nil_right,
        withoutEmptyEnd_cons _ (List.splitOnP_ne_nil _ _), List.reverse_cons, List.append_assoc,
        List.singleton_append]
    · rw [if_neg hb, if_neg (by simpa using hb), ih]

/-- The lines of an input are the pieces between line breaks, without an empty one in the end. -/
theorem splitLines_eq (input : List UInt8) :
  splitLines input = withoutEmptyEnd (input.splitOn 10)
  := splitLines_go_eq input [] []

/-- Every line is one of the pieces between line ends. -/
theorem mem_splitOn_of_mem_splitLines {input line : List UInt8} (h : line ∈ splitLines input) :
  line ∈ input.splitOn 10
  := by
  rw [splitLines_eq, withoutEmptyEnd] at h
  split at h
  · apply List.dropLast_subset _ h
  · exact h

/-- What is found in the lines is what is found in the pieces, if nothing is in an empty one. -/
theorem filterMap_splitLines {α : Type} {f : List UInt8 → Option α} (h : f [] = none)
    (input : List UInt8) :
  (splitLines input).filterMap f = (input.splitOn 10).filterMap f
  := by
  rw [splitLines_eq, withoutEmptyEnd]
  split
  · rename_i hlast
    obtain ⟨pieces, hpieces⟩ := List.getLast?_eq_some_iff.mp hlast
    rw [hpieces, List.dropLast_concat, List.filterMap_append, List.filterMap_cons, h,
      List.filterMap_nil, List.append_nil]
  · rfl

/-- A line with its line break is the only line of an input. -/
theorem splitLines_line {line : List UInt8} (h : 10 ∉ line) :
  splitLines (line ++ [10]) = [line]
  := by
  rw [splitLines_eq, List.splitOn_append_cons_self_of_not_mem h, List.splitOn_nil]
  rfl

/-! ### Lines of characters -/

theorem le_toNat_ofNat {n : Nat} (h : 128 ≤ n) (h' : n < 256) :
  128 ≤ (UInt8.ofNat n).toNat
  := by
  rw [UInt8.toNat_ofNat']
  omega

/-- A character below 128 is written as a byte, and any other one with greater bytes only. -/
theorem utf8EncodeChar_cases (c : Char) :
  c.toNat < 128 ∧ String.utf8EncodeChar c = [UInt8.ofNat c.toNat]
    ∨ 128 ≤ c.toNat ∧ ∀ b ∈ String.utf8EncodeChar c, 128 ≤ b.toNat
  := by
  have hv : c.val.toNat = c.toNat := rfl
  rw [String.utf8EncodeChar, hv]
  by_cases hc : c.toNat < 128
  · left
    use hc
    rw [if_pos (by omega)]
  · right
    use by omega
    intro b hb
    rw [if_neg (by omega)] at hb
    split at hb
    · simp only [List.mem_cons, List.not_mem_nil, or_false] at hb
      obtain rfl | rfl := hb
      · apply le_toNat_ofNat (by omega) (by omega)
      · apply le_toNat_ofNat (by omega) (by omega)
    · split at hb
      · simp only [List.mem_cons, List.not_mem_nil, or_false] at hb
        obtain rfl | rfl | rfl := hb
        · apply le_toNat_ofNat (by omega) (by omega)
        · apply le_toNat_ofNat (by omega) (by omega)
        · apply le_toNat_ofNat (by omega) (by omega)
      · simp only [List.mem_cons, List.not_mem_nil, or_false] at hb
        obtain rfl | rfl | rfl | rfl := hb
        · apply le_toNat_ofNat (by omega) (by omega)
        · apply le_toNat_ofNat (by omega) (by omega)
        · apply le_toNat_ofNat (by omega) (by omega)
        · apply le_toNat_ofNat (by omega) (by omega)

/-- A byte below 128 stands for the character of its number only. -/
theorem mem_utf8EncodeChar_iff {b : UInt8} {c : Char} (hb : b.toNat < 128) :
  b ∈ String.utf8EncodeChar c ↔ c.toNat = b.toNat
  := by
  obtain ⟨hc, hbytes⟩ | ⟨hc, hbytes⟩ := utf8EncodeChar_cases c
  · rw [hbytes, List.mem_singleton, ← UInt8.toNat_inj, UInt8.toNat_ofNat',
      Nat.mod_eq_of_lt (by omega), eq_comm]
  · constructor
    · intro h
      have := hbytes b h
      omega
    · intro h
      omega

/-- Of all characters only the line end has the byte of a line end in its encoding. -/
theorem newline_mem_utf8EncodeChar_iff {c : Char} :
  10 ∈ String.utf8EncodeChar c ↔ c = '\n'
  := by
  rw [mem_utf8EncodeChar_iff (by decide)]
  exact Char.toNat_inj (d := '\n')

/-- The bytes of a text break into lines where the text does. -/
theorem splitOn_bytes (cs : List Char) :
  (cs.flatMap String.utf8EncodeChar).splitOn 10
    = (cs.splitOn '\n').map (·.flatMap String.utf8EncodeChar)
  := by
  induction cs with
  | nil => rfl
  | cons c cs ih =>
    rw [List.flatMap_cons, List.splitOn_cons_eq_if_modifyHead]
    by_cases hc : c = '\n'
    · subst hc
      rw [if_pos (by rfl), List.map_cons, ← ih]
      apply List.splitOn_append_cons_self_of_not_mem List.not_mem_nil
    · obtain ⟨first, rest, hpieces⟩ := List.exists_cons_of_ne_nil (List.splitOn_ne_nil '\n' cs)
      rw [if_neg (by simpa using hc),
        splitOn_append_of_not_mem (mt newline_mem_utf8EncodeChar_iff.mp hc), ih, hpieces]
      rfl

/-- The encoding of a text is decoded as that text. -/
theorem textOfBytes?_bytes (cs : List Char) :
  textOfBytes? (cs.flatMap String.utf8EncodeChar) = some (String.ofList cs)
  := by
  have hbytes : (⟨(cs.flatMap String.utf8EncodeChar).toArray⟩ : ByteArray) = cs.utf8Encode :=
    ByteArray.ext List.data_toByteArray.symm
  rw [textOfBytes?, hbytes, String.fromUTF8?, dif_pos ByteArray.isValidUTF8_utf8Encode]
  rfl

/-- A blank in the end does not count. -/
theorem trimChars_concat {c : Char} (hc : isBlank c) (cs : List Char) :
  trimChars (cs ++ [c]) = trimChars cs
  := by
  rw [trimChars, trimChars, List.dropWhile_append]
  split
  · rename_i hempty
    rw [List.isEmpty_iff.mp hempty, List.dropWhile_cons_of_pos hc]
    rfl
  · rw [List.reverse_concat, List.dropWhile_cons_of_pos hc]

/-- The last byte of a text is a carriage return where the last character is. -/
theorem getLast?_bytes_eq_some_iff (cs : List Char) :
  (cs.flatMap String.utf8EncodeChar).getLast? = some 13 ↔ cs.getLast? = some '\r'
  := by
  obtain rfl | ⟨before, c, rfl⟩ := List.eq_nil_or_concat' cs
  · simp
  · rw [List.flatMap_append, List.flatMap_singleton, List.getLast?_concat, Option.some.injEq,
      List.getLast?_append_of_ne_nil _ String.utf8EncodeChar_ne_nil]
    constructor
    · intro h
      have hmem := List.mem_of_getLast? h
      rw [mem_utf8EncodeChar_iff (by decide)] at hmem
      exact (Char.toNat_inj (d := '\r')).mp hmem
    · rintro rfl
      rfl

/-- The bytes of a line of text are read as this line, up to the blanks around it. -/
theorem exists_lineText?_bytes (cs : List Char) :
  ∃ text, lineText? (cs.flatMap String.utf8EncodeChar) = some text
    ∧ trim text = trim (String.ofList cs)
  := by
  rw [lineText?]
  by_cases hlast : cs.getLast? = some '\r'
  · obtain ⟨before, rfl⟩ := List.getLast?_eq_some_iff.mp hlast
    rw [if_pos ((getLast?_bytes_eq_some_iff _).mpr hlast), List.flatMap_append,
      List.flatMap_singleton]
    have hbyte : String.utf8EncodeChar '\r' = [13] := rfl
    rw [hbyte, List.dropLast_concat, textOfBytes?_bytes]
    use String.ofList before, rfl
    rw [trim, trim, String.toList_ofList, String.toList_ofList, trimChars_concat (by decide)]
  · rw [if_neg (mt (getLast?_bytes_eq_some_iff _).mp hlast), textOfBytes?_bytes]
    use String.ofList cs

end Cohesion

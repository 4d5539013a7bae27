import Radioplay.Json.Printer
import Radioplay.Json.Reader

/-! Strings in JSON text: every escape is read back as the character it was written for. -/

namespace Radioplay.Json

open Text

/-- Is a character printed in ASCII, or a newline? -/
def IsTyped (c : Char) : Prop := c = '\n' ∨ 0x20 ≤ c.toNat ∧ c.toNat < 0x7F

instance : DecidablePred IsTyped := fun c =>
  inferInstanceAs (Decidable (c = '\n' ∨ 0x20 ≤ c.toNat ∧ c.toNat < 0x7F))

/-! ### Hexadecimal digits -/

theorem hexValue_hexDigit {n : Nat} (h : n < 16) : hexValue (hexDigit n) = some n := by
  revert n
  decide

theorem hex_four (n : Nat) :
    hex 4 n = [hexDigit (n / 16 / 16 / 16 % 16), hexDigit (n / 16 / 16 % 16),
      hexDigit (n / 16 % 16), hexDigit (n % 16)] := by
  simp [hex]

theorem fourHex_hex {n : Nat} (h : n < 0x10000) : fourHex (hex 4 n) = some n := by
  have hDigit (m : Nat) : hexValue (hexDigit (m % 16)) = some (m % 16) :=
    hexValue_hexDigit (Nat.mod_lt m (by decide))
  rw [hex_four, fourHex]
  simp only [hDigit, Option.bind_eq_bind, Option.bind_some, Option.pure_def, Option.some.injEq]
  omega

theorem length_hex_four (n : Nat) : (hex 4 n).length = 4 := by
  rw [hex_four]
  rfl

/-! ### Escapes -/

/-- The escape of a number that is no half of a pair is read as its character. -/
theorem readUnicode_escape (half : Char) {n : Nat} {rest : List Char} (hSmall : n < 0x10000)
    (hWhole : n < 0xD800 ∨ 0xE000 ≤ n) (hRest : rest ≠ []) :
    readUnicode half ('u' :: hex 4 n ++ rest) = .ok (Char.ofNat n, rest) := by
  have hTake : (hex 4 n ++ rest).take 4 = hex 4 n := List.take_left' (length_hex_four n)
  have hDrop : (hex 4 n ++ rest).drop 4 = rest := List.drop_left' (length_hex_four n)
  have hMore : rest.isEmpty = false := List.isEmpty_eq_false_iff.mpr hRest
  have hHigh : ¬ (0xD800 ≤ n ∧ n < 0xDC00 ∧ rest.drop 6 ≠ [] ∧ rest.take 2 = ['\\', 'u']) := by
    omega
  have hHalf : ¬ (0xD800 ≤ n ∧ n < 0xE000) := by omega
  unfold readUnicode
  simp only [List.cons_append, List.drop_succ_cons, List.drop_zero, hTake, hDrop, hMore,
    fourHex_hex hSmall]
  rw [if_neg (by decide), if_neg hHigh, unicodeChar, if_neg hHalf]

/-- The escapes of the two halves of a pair are read as one character. -/
theorem readUnicode_pair (half : Char) {n : Nat} {rest : List Char} (hLow : 0x10000 ≤ n)
    (hHigh : n < 0x110000) (hRest : rest ≠ []) :
    readUnicode half ('u' :: hex 4 (0xD800 + (n - 0x10000) / 1024) ++
      (unicodeEscape (0xDC00 + (n - 0x10000) % 1024) ++ rest)) = .ok (Char.ofNat n, rest) := by
  generalize hFirst : 0xD800 + (n - 0x10000) / 1024 = first
  generalize hSecond : 0xDC00 + (n - 0x10000) % 1024 = second
  have hTake (more : List Char) : (hex 4 first ++ more).take 4 = hex 4 first :=
    List.take_left' (length_hex_four first)
  have hDrop (more : List Char) : (hex 4 first ++ more).drop 4 = more :=
    List.drop_left' (length_hex_four first)
  have hTakeSecond : (hex 4 second ++ rest).take 4 = hex 4 second :=
    List.take_left' (length_hex_four second)
  have hDropSecond : (hex 4 second ++ rest).drop 4 = rest :=
    List.drop_left' (length_hex_four second)
  have hPair : 0xD800 ≤ first ∧ first < 0xDC00 := by omega
  have hLowHalf : 0xDC00 ≤ second ∧ second < 0xE000 := by omega
  have hValue : 0x10000 + (first - 0xD800) * 1024 + (second - 0xDC00) = n := by omega
  unfold readUnicode
  simp only [unicodeEscape, List.cons_append, List.drop_succ_cons, List.drop_zero, hTake, hDrop,
    List.isEmpty_cons, fourHex_hex (show first < 0x10000 by omega), List.take_succ_cons,
    List.take_zero, hDropSecond]
  rw [if_neg Bool.false_ne_true, if_pos ⟨hPair.1, hPair.2, hRest, trivial⟩, hTakeSecond,
    fourHex_hex (show second < 0x10000 by omega)]
  simp only [if_pos hLowHalf, hValue]

/-- The four ways to write a character: by a letter, as itself, by its number, and by two halves. -/
theorem escapeChar_cases (c : Char) :
    (∃ e, escapeChar c = ['\\', e] ∧ shortEscape e = some c ∧ e ≠ 'u' ∧ IsTyped e) ∨
    (escapeChar c = [c] ∧ c ≠ '"' ∧ c ≠ '\\' ∧ 0x20 ≤ c.toNat ∧ c.toNat < 0x7F) ∨
    (escapeChar c = unicodeEscape c.toNat ∧ c.toNat < 0x10000) ∨
    (escapeChar c = pairEscape c.toNat ∧ 0x10000 ≤ c.toNat) := by
  unfold escapeChar
  by_cases hQuote : c = '"'
  · subst hQuote
    exact .inl ⟨'"', rfl, rfl, by decide, by decide⟩
  by_cases hBackslash : c = '\\'
  · subst hBackslash
    exact .inl ⟨'\\', rfl, rfl, by decide, by decide⟩
  rw [if_neg hQuote, if_neg hBackslash]
  -- Five characters have letters of their own.
  iterate 5
    split
    · rename_i h
      subst h
      exact .inl ⟨_, rfl, rfl, by decide, by decide⟩
  split
  · rename_i hPrinted
    exact .inr (.inl ⟨rfl, hQuote, hBackslash, hPrinted⟩)
  split
  · rename_i hSmall
    exact .inr (.inr (.inl ⟨rfl, hSmall⟩))
  · rename_i hLarge
    exact .inr (.inr (.inr ⟨rfl, Nat.not_lt.mp hLarge⟩))

/-! ### Strings -/

variable {half : Char}

theorem readStringFrom_unicode {opening u rest : List Char} {c : Char}
    (h : readUnicode half ('u' :: u) = .ok (c, rest)) (fuel : Nat) (done : List Char) :
    readStringFrom half opening (fuel + 1) done ('\\' :: 'u' :: u) =
      readStringFrom half opening fuel (c :: done) rest := by
  simp [readStringFrom, h]

theorem readStringFrom_escapeChar (opening : List Char) (fuel : Nat) (done : List Char) (c : Char)
    {rest : List Char} (hRest : rest ≠ []) :
    readStringFrom half opening (fuel + 1) done (escapeChar c ++ rest) =
      readStringFrom half opening fuel (c :: done) rest := by
  have hSelf : Char.ofNat c.toNat = c := Char.ofNat_toNat c
  have hValid : c.toNat < 0xD800 ∨ 0xDFFF < c.toNat ∧ c.toNat < 0x110000 := c.valid
  rcases escapeChar_cases c with ⟨e, hEscape, hShort, hLetter, -⟩ |
    ⟨hEscape, hQuote, hBackslash, hPrinted, -⟩ | ⟨hEscape, hSmall⟩ | ⟨hEscape, hLarge⟩
  · rw [hEscape]
    simp [readStringFrom, hShort]
  · rw [hEscape]
    simp [readStringFrom, Nat.not_lt.mpr hPrinted]
  · have hRead := readUnicode_escape half hSmall (by omega) hRest
    rw [hSelf] at hRead
    rw [hEscape]
    exact readStringFrom_unicode hRead fuel done
  · have hRead := readUnicode_pair half hLarge (by omega) hRest
    rw [hSelf] at hRead
    rw [hEscape, pairEscape, List.append_assoc]
    exact readStringFrom_unicode hRead fuel done

theorem readStringFrom_escaped (opening : List Char) {fuel : Nat} (done : List Char)
    {cs : List Char} (rest : List Char) (hFuel : cs.length < fuel) :
    readStringFrom half opening fuel done (cs.flatMap escapeChar ++ '"' :: rest) =
      .ok (String.ofList (done.reverse ++ cs), rest) := by
  induction cs generalizing fuel done with
  | nil =>
    obtain ⟨fuel, rfl⟩ := Nat.exists_eq_add_of_lt hFuel
    simp [readStringFrom]
  | cons c cs ih =>
    obtain ⟨fuel, rfl⟩ : ∃ n, fuel = n + 1 := ⟨fuel - 1, by omega⟩
    rw [List.flatMap_cons, List.append_assoc, readStringFrom_escapeChar _ _ _ _ (by simp),
      ih (c :: done) (by simpa using hFuel)]
    simp

theorem length_escapeChar_pos (c : Char) : 0 < (escapeChar c).length := by
  rcases escapeChar_cases c with ⟨e, h, -⟩ | ⟨h, -⟩ | ⟨h, -⟩ | ⟨h, -⟩ <;>
    simp [h, unicodeEscape, pairEscape]

theorem length_le_escaped (cs : List Char) : cs.length ≤ (cs.flatMap escapeChar).length := by
  induction cs with
  | nil => exact Nat.zero_le _
  | cons c cs ih =>
    have hc := length_escapeChar_pos c
    rw [List.flatMap_cons, List.length_append, List.length_cons]
    omega

variable (half) in
/-- A string is read as it was written. -/
theorem readString_stringText (s : String) (rest : List Char) :
    readString half (stringText s ++ rest) = .ok (s, rest) := by
  have hText : stringText s ++ rest = '"' :: (s.toList.flatMap escapeChar ++ '"' :: rest) := by
    simp [stringText]
  have hFuel := length_le_escaped s.toList
  rw [readString, hText, List.drop_succ_cons, List.drop_zero, readStringFrom_escaped _ [] rest]
  · simp
  · simp only [List.length_cons, List.length_append]
    omega

/-! ### Characters of a text -/

theorem isTyped_hexDigit {n : Nat} (h : n < 16) : IsTyped (hexDigit n) := by
  revert n
  decide

theorem isTyped_unicodeEscape (n : Nat) : ∀ c ∈ unicodeEscape n, IsTyped c := by
  have hDigit (m : Nat) : IsTyped (hexDigit (m % 16)) :=
    isTyped_hexDigit (Nat.mod_lt m (by decide))
  rw [unicodeEscape, hex_four]
  simp only [List.forall_mem_cons, hDigit, List.not_mem_nil, false_implies, implies_true, and_true]
  exact ⟨by decide, by decide⟩

theorem isTyped_escapeChar (c : Char) : ∀ d ∈ escapeChar c, IsTyped d := by
  rcases escapeChar_cases c with ⟨e, hEscape, -, -, hLetter⟩ | ⟨hEscape, -, -, hPrinted⟩ |
    ⟨hEscape, -⟩ | ⟨hEscape, -⟩
  · rw [hEscape]
    simp only [List.forall_mem_cons, hLetter, List.not_mem_nil, false_implies, implies_true,
      and_true]
    decide
  · rw [hEscape]
    intro d hd
    rw [List.mem_singleton.mp hd]
    exact .inr hPrinted
  · rw [hEscape]
    exact isTyped_unicodeEscape _
  · rw [hEscape, pairEscape]
    exact List.forall_mem_append.mpr ⟨isTyped_unicodeEscape _, isTyped_unicodeEscape _⟩

theorem isTyped_stringText (s : String) : ∀ c ∈ stringText s, IsTyped c := by
  intro c hc
  rcases List.mem_cons.mp hc with rfl | hc
  · decide
  rcases List.mem_append.mp hc with hc | hc
  · obtain ⟨d, -, hd⟩ := List.mem_flatMap.mp hc
    exact isTyped_escapeChar d c hd
  · rw [List.mem_singleton.mp hc]
    decide

end Radioplay.Json

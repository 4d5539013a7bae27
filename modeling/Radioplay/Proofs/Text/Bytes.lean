import Radioplay.Text.Utf8

/-! Texts written to files and read again. A text of ASCII characters comes back as it was, unless a
carriage return in it is taken for the end of a line. -/

namespace Radioplay.Text

theorem encode_cons (c : Char) (s : List Char) : encode (c :: s) = encodeChar c ++ encode s := rfl

theorem encodeChar_of_lt {c : Char} (h : c.toNat < 0x80) : encodeChar c = [c.toNat.toUInt8] := by
  rw [encodeChar, if_pos h]

/-- A byte below 0x80 stands for the character of its number. -/
theorem decodeFrom_ascii {c : Char} (h : c.toNat < 0x80) (position : Nat) (done : List Char)
    (bytes : List UInt8) :
    decodeFrom position done (c.toNat.toUInt8 :: bytes) =
      decodeFrom (position + 1) (c :: done) bytes := by
  have hByte : c.toNat.toUInt8.toNat = c.toNat := by
    rw [UInt8.toNat_ofNat']
    omega
  have hFollowers : followers c.toNat.toUInt8 = some 0 := by
    rw [followers, hByte, if_pos h]
  have hSound : sequenceProblem c.toNat.toUInt8 bytes = none := by
    simp only [sequenceProblem, hFollowers]
  have hChar : sequenceChar c.toNat.toUInt8 [] = c := by
    simp [sequenceChar, hByte]
  rw [decodeFrom]
  simp only [hSound, hFollowers]
  rw [Option.getD_some, List.take_zero, List.drop_zero, hChar]

theorem decodeFrom_encode {s : List Char} (h : ∀ c ∈ s, c.toNat < 0x80) (position : Nat)
    (done : List Char) : decodeFrom position done (encode s) = .ok (done.reverse ++ s) := by
  induction s generalizing position done with
  | nil => simp [encode, decodeFrom]
  | cons c s ih =>
    have hc := h c List.mem_cons_self
    rw [encode_cons, encodeChar_of_lt hc, List.singleton_append, decodeFrom_ascii hc,
      ih fun d hd => h d (List.mem_cons_of_mem c hd)]
    simp

theorem newlines_of_not_mem {s : List Char} (h : '\r' ∉ s) : newlines s = s := by
  rw [newlines]
  induction s with
  | nil => rfl
  | cons c s ih =>
    have hc : c ≠ '\r' := fun hEq => h (hEq ▸ List.mem_cons_self)
    have hs : '\r' ∉ s := fun hMem => h (List.mem_cons_of_mem c hMem)
    rw [List.foldr_cons]
    simp only [if_neg hc, ih hs]

theorem ofFile_encode {s : List Char} (hAscii : ∀ c ∈ s, c.toNat < 0x80) (hReturn : '\r' ∉ s) :
    ofFile (encode s) = .ok s := by
  rw [ofFile, decode, decodeFrom_encode hAscii]
  exact congrArg Except.ok (newlines_of_not_mem hReturn)

end Radioplay.Text

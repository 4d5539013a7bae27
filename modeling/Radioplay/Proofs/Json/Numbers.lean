import Radioplay.Proofs.Json.Written
import Radioplay.Proofs.Text.Lines

/-! Whole numbers in JSON text. A number is read up to the end of its digits, where nothing follows
that would make more of it. -/

namespace Radioplay.Json

/-- Does a text go on with nothing that belongs to a number? -/
def EndsNumber (rest : List Char) : Prop :=
  ∀ c ∈ rest.head?, c.isDigit = false ∧ c ≠ '.' ∧ c ≠ 'e' ∧ c ≠ 'E'

theorem endsNumber_nil : EndsNumber [] := fun _ h => nomatch h

theorem endsNumber_cons {c : Char} (rest : List Char)
    (h : c.isDigit = false ∧ c ≠ '.' ∧ c ≠ 'e' ∧ c ≠ 'E') : EndsNumber (c :: rest) := by
  rintro d ⟨⟩
  exact h

variable {rest : List Char} {n : ℕ}

/-! ### Digits -/

theorem digitsValue_digits (n : ℕ) : digitsValue (Nat.toDigits 10 n) = n :=
  Text.foldl_toDigits n

theorem isDigit_of_mem_digits {c : Char} (h : c ∈ Nat.toDigits 10 n) : c.isDigit = true :=
  Nat.isDigit_of_mem_toDigits (by decide) (by decide) h

theorem ne_of_isDigit {c d : Char} (hc : c.isDigit = true) (hd : d.isDigit = false) : c ≠ d := by
  rintro rfl
  rw [hc] at hd
  cases hd

/-- Only the numeral of zero begins with a zero. -/
theorem digits_cases (n : ℕ) :
    Nat.toDigits 10 n = ['0'] ∨ ∃ c ds, Nat.toDigits 10 n = c :: ds ∧ c ≠ '0' := by
  induction n using Nat.strongRecOn with
  | ind n ih =>
    rcases Nat.lt_or_ge n 10 with hSmall | hLarge
    · rw [Nat.toDigits_of_lt_base hSmall]
      exact (em (n.digitChar = '0')).imp (congrArg fun c => [c]) fun hc => ⟨_, [], rfl, hc⟩
    · have hLess : n / 10 < n := Nat.div_lt_self (by omega) (by decide)
      rw [Nat.toDigits_of_base_le (by decide) hLarge]
      rcases ih (n / 10) hLess with hZero | ⟨c, ds, hDigits, hc⟩
      · have hValue := digitsValue_digits (n / 10)
        rw [hZero] at hValue
        have : n / 10 = 0 := hValue.symm
        omega
      · exact .inr ⟨c, ds ++ [(n % 10).digitChar], by rw [hDigits, List.cons_append], hc⟩

theorem length_digits_le {k : Int} (h : exceedsDigitLimit k = false) :
    (Nat.toDigits 10 k.natAbs).length ≤ digitLimit := by
  have hNot := of_decide_eq_false h
  exact (Nat.length_toDigits_le_iff (by decide) (by decide)).mpr (Nat.lt_of_not_le hNot)

/-! ### Whole numbers -/

theorem fractionDigits_eq_none (h : EndsNumber rest) : fractionDigits rest = none := by
  unfold fractionDigits
  split
  · exact absurd rfl (h _ rfl).2.1
  · rfl

theorem exponent_eq_none (h : EndsNumber rest) : exponent rest = none := by
  unfold exponent
  split
  · rename_i c _
    obtain ⟨-, -, he, hE⟩ := h c rfl
    rw [if_neg (by simp [he, hE])]
  · rfl

theorem takeWhile_digits (h : EndsNumber rest) (n : ℕ) :
    (Nat.toDigits 10 n ++ rest).takeWhile Char.isDigit = Nat.toDigits 10 n := by
  rw [List.takeWhile_append_of_pos fun c hc => isDigit_of_mem_digits hc]
  cases rest with
  | nil => simp
  | cons c rest => rw [List.takeWhile_cons_of_neg (by simp [(h c rfl).1]), List.append_nil]

/-- The digits of a number are read, and no further. -/
theorem wholeDigits_digits (h : EndsNumber rest) (n : ℕ) :
    wholeDigits (Nat.toDigits 10 n ++ rest) = Nat.toDigits 10 n := by
  rcases digits_cases n with hZero | ⟨c, ds, hDigits, hc⟩
  · rw [hZero]
    rfl
  · rw [wholeDigits]
    · exact takeWhile_digits h n
    · intro s hHead
      rw [hDigits] at hHead
      exact hc (List.cons.inj hHead).1

theorem readNumber_of_body {s : List Char} {negative : Bool}
    (hHead : (s.head? == some '-') = negative)
    (hBody : (if negative then s.drop 1 else s) = Nat.toDigits 10 n ++ rest)
    (hLength : (Nat.toDigits 10 n).length ≤ digitLimit) (h : EndsNumber rest) :
    readNumber s = .ok (.int (if negative then -n else n), rest) := by
  have hNe : ¬ (Nat.toDigits 10 n).isEmpty = true := by
    rw [List.isEmpty_iff]
    exact Nat.toDigits_ne_nil
  have hRest : (Nat.toDigits 10 n ++ rest).drop (Nat.toDigits 10 n).length = rest :=
    List.drop_left' rfl
  unfold readNumber
  simp only [hHead, hBody]
  rw [wholeDigits_digits h, if_neg hNe, hRest, fractionDigits_eq_none h, exponent_eq_none h]
  simp only [Bool.or_self, Bool.false_eq_true, if_false, if_neg (Nat.not_lt.mpr hLength),
    digitsValue_digits]

theorem head_digits (n : ℕ) (rest : List Char) :
    ((Nat.toDigits 10 n ++ rest).head? == some '-') = false := by
  obtain ⟨c, ds, hCons⟩ := List.exists_cons_of_ne_nil (Nat.toDigits_ne_nil (n := n) (b := 10))
  have hc : c.isDigit = true := isDigit_of_mem_digits (hCons ▸ List.mem_cons_self)
  have hMinus : c ≠ '-' := ne_of_isDigit hc rfl
  rw [hCons]
  simpa using hMinus

/-- A whole number is read as it was written. -/
theorem readNumber_int {k : Int} (hDigits : exceedsDigitLimit k = false) (h : EndsNumber rest) :
    readNumber ((toString k).toList ++ rest) = .ok (.int k, rest) := by
  have hLength := length_digits_le hDigits
  rw [toList_toString_int]
  split
  · rename_i hSign
    have hHead : (('-' :: (Nat.toDigits 10 k.natAbs ++ rest)).head? == some '-') = true := rfl
    rw [List.singleton_append, List.cons_append, readNumber_of_body hHead rfl hLength h]
    have hValue : -(k.natAbs : Int) = k := by omega
    rw [if_pos rfl, hValue]
  · rename_i hSign
    rw [List.nil_append, readNumber_of_body (head_digits _ rest) rfl hLength h]
    have hValue : (k.natAbs : Int) = k := by omega
    rw [if_neg Bool.false_ne_true, hValue]

end Radioplay.Json

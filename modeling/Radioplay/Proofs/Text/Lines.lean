import Mathlib.Data.List.DropRight
import Radioplay.Text.Blank

/-! Lines, their ends and the characters in them. A text is its lines joined by newlines, no line
has a newline in it, and what is left of a line when its ends are stripped is a part of it whose
ends are bare. The digits of a number are worth that number. -/

namespace Radioplay.Text

/-! ### Lines -/

theorem lines_cons_of_ne {c : Char} (hc : c ≠ '\n') (s : List Char) :
    ∃ l ls, lines s = l :: ls ∧ lines (c :: s) = (c :: l) :: ls := by
  obtain ⟨l, ls, hs⟩ := List.exists_cons_of_ne_nil (lines_ne_nil s)
  refine ⟨l, ls, hs, ?_⟩
  rw [lines, List.foldr_cons, if_neg hc, ← lines, hs]

theorem lines_cons_newline (s : List Char) : lines ('\n' :: s) = [] :: lines s := by
  rw [lines, List.foldr_cons, if_pos rfl, ← lines]

theorem lines_of_not_mem {l : List Char} (h : '\n' ∉ l) : lines l = [l] := by
  induction l with
  | nil => rfl
  | cons c cs ih =>
    rw [List.mem_cons, not_or] at h
    obtain ⟨l, ls, hs, hc⟩ := lines_cons_of_ne (Ne.symm h.1) cs
    rw [ih h.2] at hs
    cases hs
    exact hc

theorem lines_append_newline {l : List Char} (h : '\n' ∉ l) (s : List Char) :
    lines (l ++ '\n' :: s) = l :: lines s := by
  induction l with
  | nil => exact lines_cons_newline s
  | cons c cs ih =>
    rw [List.mem_cons, not_or] at h
    obtain ⟨l, ls, hs, hc⟩ := lines_cons_of_ne (Ne.symm h.1) (cs ++ '\n' :: s)
    rw [ih h.2] at hs
    cases hs
    exact hc

theorem lines_unlines {ls : List (List Char)} (hNe : ls ≠ []) (h : ∀ l ∈ ls, '\n' ∉ l) :
    lines (unlines ls) = ls := by
  induction ls with
  | nil => exact absurd rfl hNe
  | cons l rest ih =>
    obtain ⟨hl, hRest⟩ := List.forall_mem_cons.mp h
    cases rest with
    | nil => exact lines_of_not_mem hl
    | cons l' rest' =>
      show lines (l ++ '\n' :: unlines (l' :: rest')) = _
      rw [lines_append_newline hl, ih (List.cons_ne_nil _ _) hRest]

theorem newline_not_mem_of_mem_lines {l s : List Char} (h : l ∈ lines s) : '\n' ∉ l := by
  induction s generalizing l with
  | nil =>
    rw [lines_nil, List.mem_singleton] at h
    rw [h]
    exact List.not_mem_nil
  | cons c cs ih =>
    by_cases hc : c = '\n'
    · rw [hc, lines_cons_newline, List.mem_cons] at h
      rcases h with rfl | h
      · exact List.not_mem_nil
      · exact ih h
    · obtain ⟨first, rest, hcs, hcons⟩ := lines_cons_of_ne hc cs
      rw [hcons, List.mem_cons] at h
      rcases h with rfl | h
      · have hFirst : '\n' ∉ first := ih (hcs ▸ List.mem_cons_self)
        rw [List.mem_cons, not_or]
        exact ⟨Ne.symm hc, hFirst⟩
      · exact ih (hcs ▸ List.mem_cons_of_mem _ h)

/-! ### Runs -/

section

variable {α : Type} {p : α → Bool} {run : List α} {x : α}

theorem takeWhile_append_cons (hRun : ∀ c ∈ run, p c = true) (hx : p x = false) (rest : List α) :
    (run ++ x :: rest).takeWhile p = run := by
  rw [List.takeWhile_append_of_pos hRun, List.takeWhile_cons_of_neg (Bool.eq_false_iff.mp hx),
    List.append_nil]

theorem dropWhile_append_cons (hRun : ∀ c ∈ run, p c = true) (hx : p x = false) (rest : List α) :
    (run ++ x :: rest).dropWhile p = x :: rest := by
  rw [List.dropWhile_append_of_pos hRun, List.dropWhile_cons_of_neg (Bool.eq_false_iff.mp hx)]

/-- A list is one run of a class, or a run and something after it that is not in the class. -/
theorem run_cases (p : α → Bool) (s : List α) :
    (∀ c ∈ s, p c = true) ∨
      ∃ run x rest, s = run ++ x :: rest ∧ (∀ c ∈ run, p c = true) ∧ p x = false := by
  induction s with
  | nil => exact .inl fun c hc => absurd hc List.not_mem_nil
  | cons c cs ih =>
    cases hc : p c with
    | false => exact .inr ⟨[], c, cs, rfl, fun d hd => absurd hd List.not_mem_nil, hc⟩
    | true =>
      rcases ih with hAll | ⟨run, x, rest, rfl, hRun, hx⟩
      · exact .inl (List.forall_mem_cons.mpr ⟨hc, hAll⟩)
      · exact .inr ⟨c :: run, x, rest, rfl, List.forall_mem_cons.mpr ⟨hc, hRun⟩, hx⟩

end

/-! ### Ends -/

/-- No character of a class stands at either end. -/
structure Bare (p : Char → Bool) (s : List Char) : Prop where
  head : ∀ c ∈ s.head?, p c = false
  last : ∀ c ∈ s.getLast?, p c = false

variable {p : Char → Bool} {s : List Char}

theorem stripEnds_eq (p : Char → Bool) (s : List Char) :
    stripEnds p s = (s.dropWhile p).rdropWhile p := rfl

theorem stripEnds_isInfix (p : Char → Bool) (s : List Char) : stripEnds p s <:+: s := by
  rw [stripEnds_eq]
  exact (List.rdropWhile_prefix p _).isInfix.trans (List.dropWhile_suffix p).isInfix

theorem stripEnds_bare (p : Char → Bool) (s : List Char) : Bare p (stripEnds p s) := by
  rw [stripEnds_eq]
  constructor
  · intro c hc
    obtain ⟨rest, hRest⟩ := List.rdropWhile_prefix p (s.dropWhile p)
    have hHead : (s.dropWhile p).head? = some c := by
      rw [← hRest, List.head?_append, hc]
      rfl
    have hNot := List.head?_dropWhile_not p s
    rw [hHead] at hNot
    exact hNot
  · intro c hc
    obtain ⟨hNe, rfl⟩ := List.mem_getLast?_eq_getLast hc
    exact Bool.eq_false_iff.mpr (List.rdropWhile_last_not p _ hNe)

theorem stripEnds_eq_self (h : Bare p s) : stripEnds p s = s := by
  have hDrop : s.dropWhile p = s := by
    cases s with
    | nil => rfl
    | cons c cs => exact List.dropWhile_cons_of_neg (by simp [h.head c rfl])
  rw [stripEnds_eq, hDrop, List.rdropWhile_eq_self_iff]
  intro hNe
  rw [h.last _ (List.getLast?_eq_getLast_of_ne_nil hNe)]
  exact Bool.false_ne_true

theorem cleaned_isInfix (s : List Char) : cleaned s <:+: s :=
  (stripEnds_isInfix _ _).trans ((stripEnds_isInfix _ _).trans (stripEnds_isInfix _ _))

/-- What cleaning a line takes off its ends. -/
def isEdge (c : Char) : Bool := isBlank c || c == byteOrderMark

theorem Bare.mono {q : Char → Bool} (h : Bare q s) (hImp : ∀ c, q c = false → p c = false) :
    Bare p s where
  head c hc := hImp c (h.head c hc)
  last c hc := hImp c (h.last c hc)

theorem cleaned_eq_self (h : Bare isEdge s) : cleaned s = s := by
  have hBlank : Bare isBlank s := h.mono fun c hc => (Bool.or_eq_false_iff.mp hc).1
  have hMark : Bare (· == byteOrderMark) s := h.mono fun c hc => (Bool.or_eq_false_iff.mp hc).2
  rw [cleaned, trim, trim, stripEnds_eq_self hBlank, stripEnds_eq_self hMark,
    stripEnds_eq_self hBlank]

theorem Bare.append {u v : List Char} (hu : u ≠ []) (hv : v ≠ [])
    (hHead : ∀ c ∈ u.head?, p c = false) (hLast : ∀ c ∈ v.getLast?, p c = false)
    (middle : List Char) : Bare p (u ++ (middle ++ v)) where
  head c hc := by
    rw [List.head?_append_of_ne_nil u hu] at hc
    exact hHead c hc
  last c hc := by
    rw [← List.append_assoc, List.getLast?_append_of_ne_nil _ hv] at hc
    exact hLast c hc

theorem trim_cons_of_blank {c : Char} (hc : isBlank c = true) (s : List Char) :
    trim (c :: s) = trim s := by
  rw [trim, stripEnds_eq, List.dropWhile_cons_of_pos hc, trim, stripEnds_eq]

variable {gap : List Char}

theorem stripEnds_append_left (h : ∀ c ∈ gap, p c = true) (s : List Char) :
    stripEnds p (gap ++ s) = stripEnds p s := by
  rw [stripEnds_eq, List.dropWhile_append_of_pos h, stripEnds_eq]

theorem stripEnds_append_right (h : ∀ c ∈ gap, p c = true) (s : List Char) :
    stripEnds p (s ++ gap) = stripEnds p s := by
  rcases run_cases p s with hAll | ⟨run, x, rest, rfl, hRun, hx⟩
  · have hBoth : ∀ c ∈ s ++ gap, p c = true := List.forall_mem_append.mpr ⟨hAll, h⟩
    rw [stripEnds_eq, stripEnds_eq, List.dropWhile_eq_nil_iff.mpr hBoth,
      List.dropWhile_eq_nil_iff.mpr hAll]
  · have hReverse : ∀ c ∈ gap.reverse, p c = true := fun c hc => h c (List.mem_reverse.mp hc)
    rw [stripEnds_eq, stripEnds_eq, List.append_assoc, List.cons_append,
      dropWhile_append_cons hRun hx, dropWhile_append_cons hRun hx, ← List.cons_append,
      List.rdropWhile, List.reverse_append, List.dropWhile_append_of_pos hReverse, List.rdropWhile]

/-- A text is what stripping leaves of it between two runs of the class. -/
theorem exists_ends (p : Char → Bool) (s : List Char) :
    ∃ left right, s = left ++ (stripEnds p s ++ right) ∧ (∀ c ∈ left, p c = true) ∧
      ∀ c ∈ right, p c = true := by
  refine ⟨s.takeWhile p, (s.dropWhile p).rtakeWhile p, ?_, fun c hc => List.mem_takeWhile_imp hc,
    fun c hc => List.mem_rtakeWhile_imp hc⟩
  rw [stripEnds_eq, List.rdropWhile_append_rtakeWhile, List.takeWhile_append_dropWhile]

theorem trim_trim (s : List Char) : trim (trim s) = trim s :=
  stripEnds_eq_self (stripEnds_bare isBlank s)

theorem cleaned_of_not_mem (h : byteOrderMark ∉ s) : cleaned s = trim s := by
  have hBare : Bare (· == byteOrderMark) (trim s) := by
    have hAbsent {c : Char} (hc : c ∈ trim s) : (c == byteOrderMark) = false := by
      rw [beq_eq_false_iff_ne]
      rintro rfl
      exact h ((stripEnds_isInfix isBlank s).subset hc)
    exact ⟨fun c hc => hAbsent (List.mem_of_mem_head? hc),
      fun c hc => hAbsent (List.mem_of_mem_getLast? hc)⟩
  rw [cleaned, stripEnds_eq_self hBare, trim_trim]

theorem stripEnds_append_rdropWhile (front s : List Char) :
    stripEnds p (front ++ s.rdropWhile p) = stripEnds p (front ++ s) := by
  have hGap : ∀ c ∈ s.rtakeWhile p, p c = true := fun c hc => List.mem_rtakeWhile_imp hc
  have hStrip := stripEnds_append_right hGap (front ++ s.rdropWhile p)
  rw [List.append_assoc, List.rdropWhile_append_rtakeWhile] at hStrip
  exact hStrip.symm

theorem stripEnds_append_of_bare {front : List Char} (hNe : front ≠ []) (hFront : Bare p front)
    (s : List Char) : stripEnds p (front ++ s) = front ++ s.rdropWhile p := by
  have hBare : Bare p (front ++ s.rdropWhile p) := by
    by_cases hEmpty : s.rdropWhile p = []
    · rw [hEmpty, List.append_nil]
      exact hFront
    · refine Bare.append hNe hEmpty hFront.head ?_ []
      intro c hc
      obtain ⟨hLast, rfl⟩ := List.mem_getLast?_eq_getLast hc
      exact Bool.eq_false_iff.mpr (List.rdropWhile_last_not p s hLast)
  rw [← stripEnds_append_rdropWhile, stripEnds_eq_self hBare]

theorem isBlank_of_isSpace {c : Char} (h : isSpace c = true) : isBlank c = true := by
  rcases Bool.or_eq_true_iff.mp h with h | h
  · rw [beq_iff_eq.mp h]
    decide
  · simp only [Bool.and_eq_true, decide_eq_true_eq] at h
    simp [isBlank, h.1, h.2]

theorem trim_dropWhile_isSpace (s : List Char) : trim (s.dropWhile isSpace) = trim s := by
  have hGap : ∀ c ∈ s.takeWhile isSpace, isBlank c = true :=
    fun c hc => isBlank_of_isSpace (List.mem_takeWhile_imp hc)
  have hTrim := stripEnds_append_left hGap (s.dropWhile isSpace)
  rw [List.takeWhile_append_dropWhile] at hTrim
  exact hTrim.symm

/-! ### Classes -/

theorem toNat_of_isWordChar {c : Char} (h : isWordChar c = true) :
    48 ≤ c.toNat ∧ c.toNat ≤ 122 ∧ c.toNat ≠ 64 := by
  have hRange : (48 ≤ c.toNat ∧ c.toNat ≤ 57) ∨ (65 ≤ c.toNat ∧ c.toNat ≤ 90) ∨
      (97 ≤ c.toNat ∧ c.toNat ≤ 122) ∨ c.toNat = 95 := by
    change (decide (65 ≤ c.val ∧ c.val ≤ 90) || 97 ≤ c.val && c.val ≤ 122 ||
      48 ≤ c.val && c.val ≤ 57 || c == '_') = true at h
    simp only [Bool.or_eq_true, Bool.and_eq_true, decide_eq_true_eq, UInt32.le_iff_toNat_le,
      beq_iff_eq] at h
    rcases h with ((⟨h1, h2⟩ | ⟨h1, h2⟩) | ⟨h1, h2⟩) | rfl
    · exact .inr (.inl ⟨h1, h2⟩)
    · exact .inr (.inr (.inl ⟨h1, h2⟩))
    · exact .inl ⟨h1, h2⟩
    · exact .inr (.inr (.inr rfl))
  omega

theorem isWordChar_of_isDigit {c : Char} (h : c.isDigit = true) : isWordChar c = true := by
  simp [isWordChar, Char.isAlphanum, h]

theorem isUpper_of_isDigit {c : Char} (h : c.isDigit = true) : c.isUpper = false := by
  change (decide (48 ≤ c.val) && decide (c.val ≤ 57)) = true at h
  change decide (65 ≤ c.val ∧ c.val ≤ 90) = false
  simp only [Bool.and_eq_true, decide_eq_true_eq, decide_eq_false_iff_not, not_and,
    UInt32.le_iff_toNat_le] at h ⊢
  intro hLow
  exact absurd (hLow.trans h.2) (by decide)

theorem isBlank_of_visible {c : Char} (h : 33 ≤ c.toNat) (h' : c.toNat ≤ 126) :
    isBlank c = false := by
  simp [isBlank]
  omega

theorem isEdge_of_visible {c : Char} (h : 33 ≤ c.toNat) (h' : c.toNat ≤ 126) :
    isEdge c = false := by
  have hMark : c ≠ byteOrderMark := by
    rintro rfl
    exact absurd h' (by decide)
  simp [isEdge, isBlank_of_visible h h', hMark]

theorem isSpace_of_visible {c : Char} (h : 33 ≤ c.toNat) : isSpace c = false := by
  have hSpace : c ≠ ' ' := by
    rintro rfl
    exact absurd h (by decide)
  simp [isSpace, hSpace]
  omega

/-! ### Words -/

/-- The words of a text, and whether it begins with white space or is empty. -/
def countWords (s : List Char) : Nat × Bool :=
  s.foldr
    (fun c (n, atEnd) => if isBlank c then (n, true) else (if atEnd then n + 1 else n, false))
    (0, true)

theorem countWords_pos (h : (countWords s).2 = false ∨ ∃ c ∈ s, isBlank c = false) :
    0 < (countWords s).1 := by
  induction s with
  | nil =>
    rcases h with h | ⟨c, hc, -⟩
    · cases h
    · cases hc
  | cons c cs ih =>
    have hStep : countWords (c :: cs) =
        if isBlank c then ((countWords cs).1, true)
        else (if (countWords cs).2 then (countWords cs).1 + 1 else (countWords cs).1, false) := rfl
    rw [hStep] at h ⊢
    cases hc : isBlank c with
    | true =>
      simp only [hc, if_true, Bool.true_eq_false, false_or] at h ⊢
      obtain ⟨d, hd, hBlank⟩ := h
      rcases List.mem_cons.mp hd with rfl | hd
      · rw [hc] at hBlank
        cases hBlank
      · exact ih (.inr ⟨d, hd, hBlank⟩)
    | false =>
      simp only [Bool.false_eq_true, if_false]
      split
      · exact Nat.succ_pos _
      · rename_i hInside
        exact ih (.inl (Bool.eq_false_iff.mpr hInside))

/-- A text that is not all white space has a word in it. -/
theorem wordCount_pos {c : Char} (hc : c ∈ s) (hBlank : isBlank c = false) : 0 < wordCount s :=
  countWords_pos (.inr ⟨c, hc, hBlank⟩)

/-! ### Numerals -/

theorem foldl_toDigits (n : ℕ) :
    (Nat.toDigits 10 n).foldl (fun n c => n * 10 + (c.toNat - 48)) 0 = n := by
  have hFold : (Nat.toDigits 10 n).foldl (fun n c => n * 10 + (c.toNat - 48)) 0 =
      Nat.ofDigitChars 10 (Nat.toDigits 10 n) 0 := by
    rw [Nat.ofDigitChars]
    simp only [Nat.mul_comm]
    rfl
  rw [hFold, Nat.ofDigitChars_ten_toDigits]

end Radioplay.Text

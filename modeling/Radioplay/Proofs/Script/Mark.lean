import Radioplay.Proofs.Script.Layout

/-! Byte-order marks at the front of a text. Of a row's ends, white space is taken, then marks, then
white space, and nothing after that. So a mark in front is lost on every row but one that has a mark
of its own after white space: there the second mark stays, and the row, of no shape now, with it. -/

namespace Radioplay.Script

open Text

/-- White space and then a byte-order mark begin a row. -/
def HidesMark (row : List Char) : Prop :=
  ∃ gap rest, row = gap ++ byteOrderMark :: rest ∧ gap ≠ [] ∧ ∀ c ∈ gap, isBlank c = true

variable {row gap s : List Char}

/-! ### One row -/

theorem rdropWhile_append_cons {α : Type} {p : α → Bool} {x : α} (hx : p x = false)
    (front s : List α) :
    (front ++ x :: s).rdropWhile p = front ++ x :: s.rdropWhile p := by
  induction s using List.reverseRecOn with
  | nil => exact List.rdropWhile_concat_neg p front x (Bool.eq_false_iff.mp hx)
  | append_singleton s c ih =>
    rw [← List.cons_append, ← List.append_assoc, List.rdropWhile_concat, List.rdropWhile_concat, ih]
    split
    · rfl
    · simp

theorem bare_singleton {p : Char → Bool} {c : Char} (hc : p c = false) : Bare p [c] :=
  ⟨by rintro d ⟨⟩; exact hc, by rintro d ⟨⟩; exact hc⟩

theorem bare_of_blank (hGap : ∀ c ∈ gap, isBlank c = true) : Bare (· == byteOrderMark) gap := by
  have hAbsent {c : Char} (hc : c ∈ gap) : (c == byteOrderMark) = false := by
    rw [beq_eq_false_iff_ne]
    rintro rfl
    exact absurd (hGap _ hc) (by decide)
  exact ⟨fun c hc => hAbsent (List.mem_of_mem_head? hc),
    fun c hc => hAbsent (List.mem_of_mem_getLast? hc)⟩

theorem trim_cons_of_not_blank {c : Char} (hc : isBlank c = false) (s : List Char) :
    trim (c :: s) = c :: s.rdropWhile isBlank :=
  stripEnds_append_of_bare (List.cons_ne_nil c []) (bare_singleton hc) s

theorem trim_append_left (hGap : ∀ c ∈ gap, isBlank c = true) (s : List Char) :
    trim (gap ++ s) = trim s := stripEnds_append_left hGap s

theorem stripEnds_mark_cons (s : List Char) :
    stripEnds (· == byteOrderMark) (byteOrderMark :: s) = stripEnds (· == byteOrderMark) s :=
  stripEnds_append_left (show ∀ c ∈ [byteOrderMark], (c == byteOrderMark) = true by simp) s

/-- White space between a mark and the rest of a row is not taken first, and then it shields the
rest from the taking of marks. -/
theorem cleaned_mark_append (hNe : gap ≠ []) (hGap : ∀ c ∈ gap, isBlank c = true) {c : Char}
    (hc : isBlank c = false) (s : List Char) :
    cleaned (byteOrderMark :: (gap ++ c :: s)) =
      trim ((c :: s.rdropWhile isBlank).rdropWhile (· == byteOrderMark)) := by
  rw [cleaned, trim_cons_of_not_blank (by decide), rdropWhile_append_cons hc, stripEnds_mark_cons,
    stripEnds_append_of_bare hNe (bare_of_blank hGap), trim_append_left hGap]

theorem cleaned_mark_of_not_hidesMark (h : ¬HidesMark row) :
    cleaned (byteOrderMark :: row) = cleaned row := by
  rcases run_cases isBlank row with hAll | ⟨gap, c, s, rfl, hGap, hc⟩
  · have hNone : row.rdropWhile isBlank = [] := List.rdropWhile_eq_nil_iff.mpr hAll
    have hTrim : trim row = [] := by
      rw [trim, stripEnds_eq, List.dropWhile_eq_nil_iff.mpr hAll, List.rdropWhile_nil]
    rw [cleaned, trim_cons_of_not_blank (by decide), hNone, cleaned, hTrim, stripEnds_mark_cons]
  · have hTrim : trim (gap ++ c :: s) = c :: s.rdropWhile isBlank := by
      rw [trim_append_left hGap, trim_cons_of_not_blank hc]
    by_cases hNone : gap = []
    · have hKeep := rdropWhile_append_cons hc gap s
      rw [hNone, List.nil_append] at hTrim hKeep ⊢
      rw [cleaned, trim_cons_of_not_blank (by decide), stripEnds_mark_cons, cleaned, hTrim, hKeep,
        List.nil_append]
    · have hOther : (c == byteOrderMark) = false := by
        rw [beq_eq_false_iff_ne]
        rintro rfl
        exact h ⟨gap, s, rfl, hNone, hGap⟩
      have hKeep : (c :: s.rdropWhile isBlank).dropWhile (· == byteOrderMark) =
          c :: s.rdropWhile isBlank :=
        List.dropWhile_cons_of_neg (Bool.eq_false_iff.mp hOther)
      rw [cleaned_mark_append hNone hGap hc, cleaned, hTrim, stripEnds_eq, hKeep]

theorem not_hasShape_mark (s : List Char) : ¬Line.HasShape (byteOrderMark :: s) := by
  intro h
  generalize hRow : byteOrderMark :: s = row at h
  have hHead : row.head? = some byteOrderMark := by rw [← hRow, List.head?_cons]
  cases h with
  | comment rest => cases hHead
  | seed _ _ _ => cases hHead
  | location _ => cases hHead
  | dialogue hCharacter said =>
    rw [List.head?_append_of_ne_nil _ hCharacter.1] at hHead
    exact absurd (hCharacter.2 _ (List.mem_of_mem_head? hHead)) (by decide)

/-- A row that hides a mark keeps it behind another one, unless nothing else is left of it. -/
theorem isIdle_mark_of_hidesMark (h : HidesMark row) : IsIdle (byteOrderMark :: row) := by
  obtain ⟨gap, rest, rfl, hNe, hGap⟩ := h
  rw [IsIdle, cleaned_mark_append hNe hGap (by decide)]
  rcases List.prefix_cons_iff.mp (List.rdropWhile_prefix (· == byteOrderMark)
    (byteOrderMark :: rest.rdropWhile isBlank)) with hNone | ⟨s, hSome, -⟩
  · rw [hNone]
    exact .inl rfl
  · rw [hSome, trim_cons_of_not_blank (by decide)]
    exact .inr (.inr (not_hasShape_mark _))

/-! ### The first row -/

/-- A mark before a text is lost, unless the first row hides a mark. With such a row it is the row
that is lost: the text is read as it would be without it. -/
theorem parse_mark_cons {text first : List Char} {rest : List (List Char)}
    (hText : lines text = first :: rest) :
    (¬HidesMark first → parse (byteOrderMark :: text) = parse text) ∧
      (HidesMark first → parse (byteOrderMark :: text) = parse (unlines rest)) := by
  have hLines : lines (byteOrderMark :: text) = (byteOrderMark :: first) :: rest := by
    obtain ⟨l, ls, hSame, hCons⟩ := lines_cons_of_ne (show byteOrderMark ≠ '\n' by decide) text
    rw [hText] at hSame
    cases hSame
    exact hCons
  have hRest : ∀ row ∈ rest, '\n' ∉ row :=
    fun row hRow => newline_not_mem_of_mem_lines (hText ▸ List.mem_cons_of_mem _ hRow)
  constructor
  · intro hFirst
    rw [parse, hLines, parse, hText, List.map_cons, List.map_cons, Line.ofRaw,
      cleaned_mark_of_not_hidesMark hFirst, ← Line.ofRaw]
  · intro hFirst
    rw [parse, hLines, parse, readLines_lines_unlines hRest, List.map_cons,
      readLines_cons_of_isIdle (isIdle_mark_of_hidesMark hFirst)]

/-- The first row shows its own mark, or hides it behind white space. -/
def shownMark : List Char := "\uFEFF seed: 3\nmario: Hi".toList

def hiddenMark : List Char := " \uFEFFseed: 3\nmario: Hi".toList

theorem parse_marked :
    lines shownMark = "\uFEFF seed: 3".toList :: ["mario: Hi".toList] ∧
      ¬HidesMark "\uFEFF seed: 3".toList ∧
      parse (byteOrderMark :: shownMark) = parse shownMark ∧
      lines hiddenMark = " \uFEFFseed: 3".toList :: ["mario: Hi".toList] ∧
      HidesMark " \uFEFFseed: 3".toList ∧
      parse (byteOrderMark :: hiddenMark) = parse (unlines ["mario: Hi".toList]) := by
  have hShown : lines shownMark = "\uFEFF seed: 3".toList :: ["mario: Hi".toList] := by decide
  have hHidden : lines hiddenMark = " \uFEFFseed: 3".toList :: ["mario: Hi".toList] := by decide
  have hFirst : ¬HidesMark "\uFEFF seed: 3".toList := by
    rintro ⟨_ | ⟨c, gap⟩, rest, hRow, hNe, hGap⟩
    · exact hNe rfl
    · have hMark : byteOrderMark = c := (List.cons.inj hRow).1
      exact absurd (hGap c List.mem_cons_self) (hMark ▸ by decide)
  have hOther : HidesMark " \uFEFFseed: 3".toList :=
    ⟨" ".toList, "seed: 3".toList, rfl, by decide, List.all_eq_true.mp (by decide)⟩
  exact ⟨hShown, hFirst, (parse_mark_cons hShown).1 hFirst, hHidden, hOther,
    (parse_mark_cons hHidden).2 hOther⟩

/-- A mark before the text keeps a seed from being found. -/
theorem hidden_seed_lost :
    parse " \uFEFFseed: 1".toList = .ok ⟨some 1, []⟩ ∧
      parse (byteOrderMark :: " \uFEFFseed: 1".toList) = .ok ⟨none, []⟩ := by
  constructor <;> with_unfolding_all rfl

end Radioplay.Script

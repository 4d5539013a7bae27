import Radioplay.Proofs.Json.Numbers
import Radioplay.Proofs.Outcome

/-! What is written is read again: the text of an exact value stands for that value. A reader takes
the text of a value off the front of any text that does not go on with it; it has fuel enough, for
no character of a value's text takes more than one step. -/

namespace Radioplay

theorem Table.put_of_not_mem {α : Type} {k : String} {t : Table α} (h : k ∉ t.map Prod.fst)
    (v : α) : t.put k v = t ++ [(k, v)] := by
  induction t with
  | nil => rfl
  | cons e t ih =>
    obtain ⟨k', v'⟩ := e
    rw [List.map_cons, List.mem_cons, not_or] at h
    rw [Table.put, if_neg (Ne.symm h.1), ih h.2, List.cons_append]

/-- Where no name stands twice, a name is not among those before it. -/
theorem Table.not_mem_of_nodup {α : Type} {k : String} {v : α} {t rest : Table α}
    (h : ((t ++ (k, v) :: rest).map Prod.fst).Nodup) : k ∉ t.map Prod.fst := by
  rw [List.map_append, List.map_cons] at h
  exact fun hMem => (List.nodup_append.mp h).2.2 k hMem k List.mem_cons_self rfl

namespace Json

variable {v : Value} {room : ℕ} {half : Char}

/-! ### Gaps -/

theorem skipGap_of_not_gap {c : Char} (h : isGap c = false) (s : List Char) :
    skipGap (c :: s) = c :: s := List.dropWhile_cons_of_neg (Bool.eq_false_iff.mp h)

theorem skipGap_newline (level : ℕ) (s : List Char) : skipGap (newline level ++ s) = skipGap s := by
  refine List.dropWhile_append_of_pos fun c hc => ?_
  rcases List.mem_cons.mp hc with rfl | hc
  · rfl
  · rw [(List.mem_replicate.mp hc).2]
    rfl

/-- How the text of a value may begin. -/
def OpensValue (s : List Char) : Prop := ∃ c tail, s = c :: tail ∧ isGap c = false ∧ c ≠ ']'

theorem OpensValue.append {s : List Char} (h : OpensValue s) (rest : List Char) :
    OpensValue (s ++ rest) := by
  obtain ⟨c, tail, rfl, hc⟩ := h
  exact ⟨c, tail ++ rest, rfl, hc⟩

theorem OpensValue.skipGap_newline {s : List Char} (h : OpensValue s) (level : ℕ) :
    skipGap (newline level ++ s) = s := by
  obtain ⟨c, tail, rfl, hc, -⟩ := h
  rw [Json.skipGap_newline, skipGap_of_not_gap hc]

theorem not_gap_of_isDigit {c : Char} (h : c.isDigit = true) : isGap c = false ∧ c ≠ ']' := by
  refine ⟨?_, ne_of_isDigit h rfl⟩
  simp [isGap, ne_of_isDigit h (d := ' ') rfl, ne_of_isDigit h (d := '\t') rfl,
    ne_of_isDigit h (d := '\n') rfl, ne_of_isDigit h (d := '\r') rfl]

/-- A whole number is written with a digit in front, or after a minus. -/
theorem int_opens (n : Int) : ∃ c tail, c.isDigit = true ∧
    ((toString n).toList = c :: tail ∨ (toString n).toList = '-' :: c :: tail) := by
  obtain ⟨c, ds, hCons⟩ :=
    List.exists_cons_of_ne_nil (Nat.toDigits_ne_nil (n := n.natAbs) (b := 10))
  refine ⟨c, ds, isDigit_of_mem_digits (hCons ▸ List.mem_cons_self), ?_⟩
  rw [toList_toString_int, hCons]
  split
  · exact .inr rfl
  · exact .inl rfl

theorem valueText_opens (h : v.IsExact room) (level : ℕ) : OpensValue (valueText level v) := by
  cases h with
  | null => exact ⟨'n', _, rfl, rfl, by decide⟩
  | bool b => cases b <;> exact ⟨_, _, rfl, rfl, by decide⟩
  | @int _ n hDigits =>
    rw [valueText]
    obtain ⟨c, tail, hc, hText | hText⟩ := int_opens n
    · exact ⟨c, tail, hText, not_gap_of_isDigit hc⟩
    · exact ⟨'-', c :: tail, hText, rfl, by decide⟩
  | str s => exact ⟨'"', _, rfl, rfl, by decide⟩
  | @arr _ items hItems =>
    cases items with
    | nil => exact ⟨'[', _, by rw [valueText], rfl, by decide⟩
    | cons v vs => exact ⟨'[', _, by rw [valueText]; rfl, rfl, by decide⟩
  | @obj _ fields hKeys hFields =>
    rcases fields with _ | ⟨⟨k, v⟩, fields⟩
    · exact ⟨'\x7b', _, by rw [valueText], rfl, by decide⟩
    · exact ⟨'\x7b', _, by rw [valueText]; rfl, rfl, by decide⟩

theorem length_valueText_pos (h : v.IsExact room) (level : ℕ) :
    0 < (valueText level v).length := by
  obtain ⟨c, tail, hText, -⟩ := valueText_opens h level
  rw [hText]
  exact Nat.succ_pos _

/-! ### Values without parts -/

theorem readValue_string (fuel room : ℕ) (s : String) (rest : List Char) :
    readValue half (fuel + 1) room (stringText s ++ rest) = .ok (.str s, rest) := by
  have hText : stringText s ++ rest = '"' :: (s.toList.flatMap escapeChar ++ ['"'] ++ rest) := rfl
  have hRead := readString_stringText half s rest
  rw [hText] at hRead ⊢
  rw [readValue, hRead]
  rfl

theorem words_find_digit {c : Char} (hc : c.isDigit = true) (s : List Char) :
    words.find? (fun w => w.1.isPrefixOf (c :: s)) = none ∧
      words.find? (fun w => w.1.isPrefixOf ('-' :: c :: s)) = none := by
  have hOther (d : Char) (hd : d.isDigit = false) : (d == c) = false :=
    beq_eq_false_iff_ne.mpr (ne_of_isDigit hc hd).symm
  simp [words, List.isPrefixOf, hOther 'n' rfl, hOther 't' rfl, hOther 'f' rfl,
    hOther 'N' rfl, hOther 'I' rfl, hOther '-' rfl]

/-- What opens no text, array, object or word is a number. -/
theorem readValue_number (fuel room : ℕ) {c : Char} {s : List Char}
    (h : c ≠ '"' ∧ c ≠ '[' ∧ c ≠ '\x7b')
    (hWords : words.find? (fun w => w.1.isPrefixOf (c :: s)) = none) :
    readValue half (fuel + 1) room (c :: s) = readNumber (c :: s) := by
  rw [readValue, hWords] <;> simp [h]

theorem readValue_int (fuel room : ℕ) {n : Int} (hDigits : exceedsDigitLimit n = false)
    {rest : List Char} (h : EndsNumber rest) :
    readValue half (fuel + 1) room ((toString n).toList ++ rest) = .ok (.int n, rest) := by
  have hRead := readNumber_int hDigits h
  obtain ⟨c, tail, hc, hText | hText⟩ := int_opens n
  · have hBare : c ≠ '"' ∧ c ≠ '[' ∧ c ≠ '\x7b' :=
      ⟨ne_of_isDigit hc rfl, ne_of_isDigit hc rfl, ne_of_isDigit hc rfl⟩
    rw [hText, List.cons_append] at hRead ⊢
    rw [readValue_number fuel room hBare (words_find_digit hc (tail ++ rest)).1, hRead]
  · rw [hText, List.cons_append, List.cons_append] at hRead ⊢
    rw [readValue_number fuel room (by decide) (words_find_digit hc (tail ++ rest)).2, hRead]

/-! ### Arrays and objects -/

/-- Is the text of a value read as that value, whatever follows it? -/
def IsRead (half : Char) (room : ℕ) (v : Value) : Prop :=
  ∀ level fuel rest, (valueText level v).length ≤ fuel → EndsNumber rest →
    readValue half fuel room (valueText level v ++ rest) = .ok (v, rest)

theorem endsNumber_itemsText (level : ℕ) (items : List Value) (rest : List Char) :
    EndsNumber (itemsText level items ++ rest) := by
  cases items <;> exact endsNumber_cons _ (by decide)

theorem endsNumber_fieldsText (level : ℕ) (fields : List (String × Value)) (rest : List Char) :
    EndsNumber (fieldsText level fields ++ rest) := by
  rcases fields with _ | ⟨⟨k, v⟩, fields⟩ <;> exact endsNumber_cons _ (by decide)

theorem readItems_itemsText {items : List Value} (hv : v.IsExact room) (hRead : IsRead half room v)
    (hItems : ∀ w ∈ items, w.IsExact room ∧ IsRead half room w) (level : ℕ) {fuel : ℕ}
    (done : List Value) (rest : List Char)
    (hFuel : (valueText (level + 1) v ++ itemsText level items).length ≤ fuel) :
    readItems half fuel room done (valueText (level + 1) v ++ (itemsText level items ++ rest)) =
      .ok (.arr (done.reverse ++ v :: items), rest) := by
  induction items generalizing v fuel done with
  | nil =>
    have hLength : (itemsText level []).length = 2 * level + 2 := by simp [itemsText, newline]
    rw [List.length_append, hLength] at hFuel
    obtain ⟨fuel, rfl⟩ : ∃ n, fuel = n + 1 := ⟨fuel - 1, by omega⟩
    rw [readItems, hRead (level + 1) fuel _ (by omega) (endsNumber_itemsText level [] rest)]
    simp only [itemsText, List.append_assoc, skipGap_newline, List.singleton_append]
    rw [skipGap_of_not_gap (by decide)]
    simp
  | cons w items ih =>
    obtain ⟨hExact, hReadNext⟩ := hItems w List.mem_cons_self
    have hOpens : OpensValue (valueText (level + 1) w ++ (itemsText level items ++ rest)) :=
      (valueText_opens hExact (level + 1)).append _
    have hLength : (itemsText level (w :: items)).length =
        2 * level + 4 + (valueText (level + 1) w ++ itemsText level items).length := by
      simp [itemsText, newline]
      omega
    have hFirst := length_valueText_pos hv (level + 1)
    -- An item takes one step of fuel, and its text is not empty, so the rest has fuel enough.
    rw [List.length_append, hLength] at hFuel
    obtain ⟨fuel, rfl⟩ : ∃ n, fuel = n + 1 := ⟨fuel - 1, by omega⟩
    rw [readItems, hRead (level + 1) fuel _ (by omega) (endsNumber_itemsText level _ rest)]
    simp only [itemsText, List.append_assoc, List.cons_append]
    rw [skipGap_of_not_gap (by decide)]
    simp only
    rw [hOpens.skipGap_newline, ih hExact hReadNext
      (fun x hx => hItems x (List.mem_cons_of_mem w hx)) (v :: done) (by omega)]
    simp

theorem readName_field (k : String) {s : List Char} (h : OpensValue s) :
    readName half (stringText k ++ ':' :: ' ' :: s) = .ok (k, s) := by
  obtain ⟨c, tail, rfl, hc, -⟩ := h
  have hText : stringText k ++ ':' :: ' ' :: c :: tail =
      '"' :: (k.toList.flatMap escapeChar ++ ['"'] ++ ':' :: ' ' :: c :: tail) := rfl
  have hRead := readString_stringText half k (':' :: ' ' :: c :: tail)
  have hGap : skipGap (' ' :: c :: tail) = c :: tail := by
    rw [skipGap, List.dropWhile_cons_of_pos rfl]
    exact skipGap_of_not_gap hc tail
  rw [hText] at hRead ⊢
  rw [readName, hRead]
  simp only
  rw [skipGap_of_not_gap (by decide)]
  simp only [hGap]

theorem readFields_fieldsText {k : String} {fields : List (String × Value)}
    (hv : v.IsExact room) (hRead : IsRead half room v)
    (hFields : ∀ f ∈ fields, f.2.IsExact room ∧ IsRead half room f.2) (level : ℕ) {fuel : ℕ}
    (done : List (String × Value)) (rest : List Char)
    (hKeys : ((done ++ (k, v) :: fields).map Prod.fst).Nodup)
    (hFuel : (valueText (level + 1) v ++ fieldsText level fields).length ≤ fuel) :
    readFields half fuel room done
        (stringText k ++ ':' :: ' ' ::
          (valueText (level + 1) v ++ (fieldsText level fields ++ rest))) =
      .ok (.obj (done ++ (k, v) :: fields), rest) := by
  induction fields generalizing k v fuel done with
  | nil =>
    have hOpens := (valueText_opens hv (level + 1)).append (fieldsText level [] ++ rest)
    have hLength : (fieldsText level []).length = 2 * level + 2 := by simp [fieldsText, newline]
    rw [List.length_append, hLength] at hFuel
    obtain ⟨fuel, rfl⟩ : ∃ n, fuel = n + 1 := ⟨fuel - 1, by omega⟩
    rw [readFields, readName_field k hOpens]
    simp only
    rw [hRead (level + 1) fuel _ (by omega) (endsNumber_fieldsText level [] rest)]
    simp only [fieldsText, List.append_assoc, skipGap_newline, List.singleton_append]
    rw [skipGap_of_not_gap (by decide)]
    simp only [Table.put_of_not_mem (Table.not_mem_of_nodup hKeys)]
  | cons f fields ih =>
    obtain ⟨k', w⟩ := f
    obtain ⟨hExact, hReadNext⟩ : w.IsExact room ∧ IsRead half room w :=
      hFields (k', w) List.mem_cons_self
    have hOpens :=
      (valueText_opens hv (level + 1)).append (fieldsText level ((k', w) :: fields) ++ rest)
    have hQuoted : OpensValue (stringText k' ++ ':' :: ' ' ::
        (valueText (level + 1) w ++ (fieldsText level fields ++ rest))) :=
      ⟨'"', _, rfl, rfl, by decide⟩
    have hLength : (fieldsText level ((k', w) :: fields)).length = 2 * level + 6 +
        (stringText k').length + (valueText (level + 1) w ++ fieldsText level fields).length := by
      simp [fieldsText, newline]
      omega
    have hFirst := length_valueText_pos hv (level + 1)
    rw [List.length_append, hLength] at hFuel
    obtain ⟨fuel, rfl⟩ : ∃ n, fuel = n + 1 := ⟨fuel - 1, by omega⟩
    have hMore : ((done ++ [(k, v)]) ++ (k', w) :: fields).map Prod.fst =
        (done ++ (k, v) :: (k', w) :: fields).map Prod.fst := by
      rw [List.append_assoc, List.singleton_append]
    rw [readFields, readName_field k hOpens]
    simp only
    rw [hRead (level + 1) fuel _ (by omega) (endsNumber_fieldsText level _ rest)]
    simp only [fieldsText, List.append_assoc, List.cons_append, List.nil_append]
    rw [skipGap_of_not_gap (by decide)]
    simp only [Table.put_of_not_mem (Table.not_mem_of_nodup hKeys)]
    rw [hQuoted.skipGap_newline, ih hExact hReadNext
      (fun x hx => hFields x (List.mem_cons_of_mem _ hx)) (done ++ [(k, v)]) (hMore ▸ hKeys)
      (by omega), List.append_assoc, List.singleton_append]

theorem readValue_array (fuel room level : ℕ) {s : List Char} (h : OpensValue s) :
    readValue half (fuel + 1) (room + 1) ('[' :: (newline level ++ s)) =
      readItems half fuel room [] s := by
  have hGap := h.skipGap_newline level
  obtain ⟨c, tail, rfl, -, hEnd⟩ := h
  unfold readValue
  simp only [hGap]
  split
  · rename_i hRoom
    exact absurd hRoom (Nat.succ_ne_zero room)
  · rename_i hList _
    exact absurd (List.cons.inj hList).1 hEnd
  · rename_i hRoom _
    rw [Nat.succ.inj hRoom]

theorem readValue_object (fuel room level : ℕ) (k : String) (s : List Char) :
    readValue half (fuel + 1) (room + 1) ('\x7b' :: (newline level ++ (stringText k ++ s))) =
      readFields half fuel room [] (stringText k ++ s) := by
  have hOpens : OpensValue (stringText k ++ s) := ⟨'"', _, rfl, rfl, by decide⟩
  unfold readValue
  simp only [hOpens.skipGap_newline level]
  rfl

theorem IsRead.of_succ (hv : v.IsExact room)
    (h : ∀ level fuel rest, (valueText level v).length ≤ fuel + 1 → EndsNumber rest →
      readValue half (fuel + 1) room (valueText level v ++ rest) = .ok (v, rest)) :
    IsRead half room v := by
  intro level fuel rest hFuel hRest
  have hPos := length_valueText_pos hv level
  obtain ⟨fuel, rfl⟩ : ∃ n, fuel = n + 1 := ⟨fuel - 1, by omega⟩
  exact h level fuel rest hFuel hRest

variable (half) in
/-- The text of an exact value is read as that value. -/
theorem isRead (h : v.IsExact room) : IsRead half room v := by
  induction h with
  | null =>
    refine .of_succ .null fun level fuel rest _ _ => ?_
    rw [valueText]
    rfl
  | bool b =>
    refine .of_succ (.bool b) fun level fuel rest _ _ => ?_
    rw [valueText]
    cases b <;> rfl
  | int hDigits =>
    refine .of_succ (.int hDigits) fun level fuel rest _ hRest => ?_
    rw [valueText]
    exact readValue_int fuel _ hDigits hRest
  | str s =>
    refine .of_succ (.str s) fun level fuel rest _ _ => ?_
    rw [valueText]
    exact readValue_string fuel _ s rest
  | @arr room items hItems ih =>
    refine .of_succ (.arr hItems) fun level fuel rest hFuel _ => ?_
    cases items with
    | nil =>
      rw [valueText]
      rfl
    | cons v vs =>
      have hv := hItems v List.mem_cons_self
      have hOpens : OpensValue (valueText (level + 1) v ++ (itemsText level vs ++ rest)) :=
        (valueText_opens hv (level + 1)).append _
      simp only [valueText, List.cons_append, List.append_assoc, List.length_cons] at hFuel ⊢
      rw [readValue_array fuel room _ hOpens]
      refine readItems_itemsText hv (ih v List.mem_cons_self) (fun w hw => ?_) level [] rest ?_
      · exact ⟨hItems w (List.mem_cons_of_mem v hw), ih w (List.mem_cons_of_mem v hw)⟩
      · rw [List.length_append] at hFuel
        omega
  | @obj room fields hKeys hFields ih =>
    refine .of_succ (.obj hKeys hFields) fun level fuel rest hFuel _ => ?_
    rcases fields with _ | ⟨⟨k, v⟩, fields⟩
    · rw [valueText]
      rfl
    · simp only [valueText, List.cons_append, List.append_assoc, List.length_cons, List.nil_append]
        at hFuel ⊢
      rw [readValue_object fuel room]
      refine readFields_fieldsText (hFields (k, v) List.mem_cons_self)
        (ih (k, v) List.mem_cons_self) (fun f hf => ?_) level [] rest hKeys ?_
      · exact ⟨hFields f (List.mem_cons_of_mem _ hf), ih f (List.mem_cons_of_mem _ hf)⟩
      · simp only [List.length_append, List.length_cons] at hFuel ⊢
        omega

/-! ### Whole texts -/

/-- The text of an exact value stands for that value, whatever half of a pair is read as. -/
theorem parseWith_valueText (h : v.IsExact depthLimit) :
    parseWith half (valueText 0 v) = .ok v := by
  obtain ⟨c, tail, hText, hGap, -⟩ := valueText_opens h 0
  have hMark : (valueText 0 v).head? ≠ some Text.byteOrderMark := by
    have hTyped : IsTyped c := isTyped_valueText h c (hText ▸ List.mem_cons_self)
    rw [hText]
    rintro ⟨⟩
    revert hTyped
    decide
  have hSkip : skipGap (valueText 0 v) = valueText 0 v := by
    rw [hText, skipGap_of_not_gap hGap]
  have hRead := isRead half h 0 (readerFuel (valueText 0 v)) [] (by rw [readerFuel]; omega)
    endsNumber_nil
  rw [List.append_nil] at hRead
  rw [parseWith, readWhole, if_neg hMark, hSkip, hRead]
  rfl

theorem parse_valueText (h : v.IsExact depthLimit) : parse (valueText 0 v) = .ok v :=
  parseWith_valueText h

end Json

end Radioplay

import Radioplay.Proofs.Script.Shapes

/-! What a tag means, told by how its text can be written and not by a search in it. White space
before a value can belong to the value too, and a value cannot be empty; so the texts with a key are
those that can be written with one at all, and of the ways to write one the value is taken from the
way with the most white space before it. -/

namespace Radioplay.Tag

open Text Script

/-- A text written as a key, a colon, a gap of white space, a value on one line and perhaps a
newline at its end. -/
structure IsWritten (content key gap value ending : List Char) : Prop where
  text : content = key ++ ':' :: (gap ++ (value ++ ending))
  word : IsWord key
  blank : ∀ c ∈ gap, isSpace c = true
  ne_nil : value ≠ []
  line : '\n' ∉ value
  ending : ending = [] ∨ ending = ['\n']

/-- The key and the value of a text that is written with the longest gap there can be. -/
def HasValue (content key value : List Char) : Prop :=
  ∃ gap ending, IsWritten content key gap value ending ∧
    ∀ key' gap' value' ending', IsWritten content key' gap' value' ending' →
      gap'.length ≤ gap.length

/-- What a text between two brackets means. -/
inductive Means (content : List Char) : Tag → Prop
  | pause (h : content = ['.', '.', '.']) : Means content .pause
  | shot {value : List Char} (hBeat : content ≠ ['.', '.', '.'])
    (hValue : HasValue content ['s', 'h', 'o', 't'] value) :
    Means content (.shot (String.ofList value))
  | unknown {key value : List Char} (hBeat : content ≠ ['.', '.', '.'])
    (hValue : HasValue content key value) (hKey : key ≠ ['s', 'h', 'o', 't']) :
    Means content (.unknown (String.ofList content))
  | state (hBeat : content ≠ ['.', '.', '.'])
    (hNone : ∀ key gap value ending, ¬IsWritten content key gap value ending) :
    Means content (.state (String.ofList content))

variable {content key key' gap value ending rest s v : List Char} {n : ℕ}

/-! ### Values -/

theorem lineValue?_append (hNe : v ≠ []) (hLine : '\n' ∉ v)
    (hEnding : ending = [] ∨ ending = ['\n']) : lineValue? (v ++ ending) = some v := by
  rcases hEnding with rfl | rfl
  · rw [List.append_nil, lineValue?_of_line hNe hLine]
  · have hAll := Segments.ne_of_not_mem hLine
    have hTake := takeWhile_append_cons (p := (· != '\n')) (x := '\n') hAll rfl []
    have hDrop := dropWhile_append_cons (p := (· != '\n')) (x := '\n') hAll rfl []
    simp [lineValue?, hTake, hDrop, hNe]

theorem exists_ending_of_lineValue? (h : lineValue? s = some v) :
    ∃ ending, s = v ++ ending ∧ (ending = [] ∨ ending = ['\n']) := by
  simp only [lineValue?] at h
  split at h
  · cases h
  · split at h
    · rename_i hEnding
      cases h
      exact ⟨_, List.takeWhile_append_dropWhile.symm, hEnding⟩
    · cases h

/-- The search for a value gives back one character of white space after the other. -/
theorem valueAfter?_eq_some_iff :
    valueAfter? s n = some v ↔
      ∃ m ≤ n, lineValue? (s.drop m) = some v ∧
        ∀ k, m < k → k ≤ n → lineValue? (s.drop k) = none := by
  induction n with
  | zero =>
    constructor
    · intro h
      exact ⟨0, le_rfl, h, fun k hLess hLe => absurd hLess (by omega)⟩
    · rintro ⟨m, hm, hValue, -⟩
      rwa [Nat.le_zero.mp hm] at hValue
  | succ n ih =>
    rw [valueAfter?]
    cases hLast : lineValue? (s.drop (n + 1)) with
    | some w =>
      constructor
      · intro h
        cases h
        exact ⟨n + 1, le_rfl, hLast, fun k hLess hLe => absurd hLess (by omega)⟩
      · rintro ⟨m, hm, hValue, hNone⟩
        rcases Nat.lt_or_eq_of_le hm with hLess | rfl
        · rw [hNone (n + 1) hLess le_rfl] at hLast
          cases hLast
        · exact hLast.symm.trans hValue
    | none =>
      refine ih.trans ⟨?_, ?_⟩
      · rintro ⟨m, hm, hValue, hNone⟩
        refine ⟨m, by omega, hValue, fun k hLess hLe => ?_⟩
        rcases Nat.lt_or_eq_of_le hLe with hBelow | rfl
        · exact hNone k hLess (by omega)
        · exact hLast
      · rintro ⟨m, hm, hValue, hNone⟩
        have hNot : m ≠ n + 1 := by
          rintro rfl
          rw [hLast] at hValue
          cases hValue
        exact ⟨m, by omega, hValue, fun k hLess hLe => hNone k hLess (by omega)⟩

theorem lineValue?_drop_eq_none (h : valueAfter? s n = none) {m : ℕ} (hm : m ≤ n) :
    lineValue? (s.drop m) = none := by
  induction n with
  | zero => rwa [Nat.le_zero.mp hm]
  | succ n ih =>
    rw [valueAfter?] at h
    split at h
    · cases h
    · rename_i hLast
      rcases Nat.lt_or_eq_of_le hm with hLess | rfl
      · exact ih h (by omega)
      · exact hLast

/-! ### Ways to write a text -/

/-- The key is the same in all of them. -/
theorem IsWritten.of_append (hKey : IsWord key)
    (h : IsWritten (key ++ ':' :: rest) key' gap value ending) :
    key' = key ∧ rest = gap ++ (value ++ ending) := by
  have hTake := congrArg (List.takeWhile isWordChar) h.text
  have hDrop := congrArg (List.dropWhile isWordChar) h.text
  rw [takeWhile_append_cons hKey.2 rfl, takeWhile_append_cons h.word.2 rfl] at hTake
  rw [dropWhile_append_cons hKey.2 rfl, dropWhile_append_cons h.word.2 rfl] at hDrop
  exact ⟨hTake.symm, (List.cons.inj hDrop).2⟩

theorem IsWritten.lineValue?_drop (h : IsWritten content key gap value ending) :
    gap.length ≤ ((gap ++ (value ++ ending)).takeWhile isSpace).length ∧
      lineValue? ((gap ++ (value ++ ending)).drop gap.length) = some value := by
  constructor
  · rw [List.takeWhile_append_of_pos h.blank, List.length_append]
    exact Nat.le_add_right _ _
  · rw [List.drop_left, lineValue?_append h.ne_nil h.line h.ending]

theorem exists_isWritten (hKey : IsWord key) (hn : n ≤ (rest.takeWhile isSpace).length)
    (h : lineValue? (rest.drop n) = some v) :
    ∃ gap ending, gap.length = n ∧ IsWritten (key ++ ':' :: rest) key gap v ending := by
  obtain ⟨hNe, hLine, -⟩ := of_lineValue? h
  obtain ⟨ending, hDrop, hEnding⟩ := exists_ending_of_lineValue? h
  have hGap : rest.take n <+: rest.takeWhile isSpace :=
    List.prefix_of_prefix_length_le (List.take_prefix n rest) (List.takeWhile_prefix isSpace)
      ((List.length_take_le n rest).trans hn)
  have hLength : (rest.take n).length = n :=
    List.length_take_of_le (hn.trans (List.takeWhile_prefix isSpace).length_le)
  refine ⟨rest.take n, ending, hLength, ?_, hKey, ?_, hNe, hLine, hEnding⟩
  · rw [← hDrop, List.take_append_drop]
  · exact fun c hc => List.mem_takeWhile_imp (hGap.subset hc)

theorem keyed?_eq_some_iff : keyed? content = some (key, v) ↔ HasValue content key v := by
  constructor
  · intro h
    obtain ⟨rest, rfl, hKey, -⟩ := of_keyed? h
    rw [keyed?_append hKey] at h
    obtain ⟨found, hFound, hEq⟩ := Option.map_eq_some_iff.mp h
    cases hEq
    obtain ⟨m, hm, hValue, hNone⟩ := valueAfter?_eq_some_iff.mp hFound
    obtain ⟨gap, ending, hLength, hWritten⟩ := exists_isWritten hKey hm hValue
    refine ⟨gap, ending, hWritten, fun key' gap' value' ending' hOther => ?_⟩
    obtain ⟨-, rfl⟩ := hOther.of_append hKey
    obtain ⟨hSpaces, hOtherValue⟩ := hOther.lineValue?_drop
    -- A longer gap would have been tried before this one.
    by_contra hLonger
    rw [hNone gap'.length (by omega) hSpaces] at hOtherValue
    cases hOtherValue
  · rintro ⟨gap, ending, hWritten, hLongest⟩
    obtain ⟨hSpaces, hValue⟩ := hWritten.lineValue?_drop
    have hText := hWritten.text
    generalize gap ++ (v ++ ending) = rest at hText hSpaces hValue
    subst hText
    rw [keyed?_append hWritten.word]
    refine Option.map_eq_some_iff.mpr ⟨v, valueAfter?_eq_some_iff.mpr ?_, rfl⟩
    refine ⟨gap.length, hSpaces, hValue, fun k hLess hk => ?_⟩
    cases hOther : lineValue? (rest.drop k) with
    | none => rfl
    | some value' =>
      obtain ⟨gap', ending', hLength, hLonger⟩ := exists_isWritten hWritten.word hk hOther
      have hLe := hLongest key gap' value' ending' hLonger
      omega

theorem keyed?_eq_none_iff_not_written :
    keyed? content = none ↔
      ∀ key gap value ending, ¬IsWritten content key gap value ending := by
  constructor
  · intro hNone key gap value ending hWritten
    obtain ⟨hSpaces, hValue⟩ := hWritten.lineValue?_drop
    rw [hWritten.text, keyed?_append hWritten.word, Option.map_eq_none_iff] at hNone
    rw [lineValue?_drop_eq_none hNone hSpaces] at hValue
    cases hValue
  · intro hNot
    cases hKeyed : keyed? content with
    | none => rfl
    | some found =>
      obtain ⟨gap, ending, hWritten, -⟩ := keyed?_eq_some_iff.mp hKeyed
      exact absurd hWritten (hNot _ _ _ _)

/-! ### Tags -/

theorem classify_means (content : List Char) : Means content (classify content) := by
  unfold classify
  split
  · rename_i hBeat
    exact .pause hBeat
  · rename_i hBeat
    split
    · rename_i key v hKeyed
      have hValue := keyed?_eq_some_iff.mp hKeyed
      split
      · rename_i hKey
        subst hKey
        exact .shot hBeat hValue
      · rename_i hKey
        exact .unknown hBeat hValue hKey
    · rename_i hKeyed
      exact .state hBeat (keyed?_eq_none_iff_not_written.mp hKeyed)

theorem Means.classify_eq {tag : Tag} (h : Means content tag) : classify content = tag := by
  cases h with
  | pause h =>
    subst h
    rfl
  | shot hBeat hValue =>
    rw [classify, if_neg hBeat, keyed?_eq_some_iff.mpr hValue]
    rfl
  | unknown hBeat hValue hKey =>
    rw [classify, if_neg hBeat, keyed?_eq_some_iff.mpr hValue]
    exact if_neg hKey
  | state hBeat hNone => rw [classify, if_neg hBeat, keyed?_eq_none_iff_not_written.mpr hNone]

/-- Each text has one meaning, and it is the one that is read off it. -/
theorem classify_eq_iff {tag : Tag} : classify content = tag ↔ Means content tag := by
  constructor
  · rintro rfl
    exact classify_means content
  · exact Means.classify_eq

/-- White space is left for the value, and the newline at the end is none of it. -/
example : classify "shot: \n".toList = .shot " " := by decide

end Radioplay.Tag

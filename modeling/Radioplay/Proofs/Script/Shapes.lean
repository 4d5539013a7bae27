import Radioplay.Proofs.Script.Brackets
import Radioplay.Script.Parse

/-! What can stand in the fields of an event that is read from text. A tag is a state exactly when
it can be one by these rules, and a shot's name is what its tag leaves of a value on one line. -/

namespace Radioplay

open Text

namespace Script

/-- A name of ASCII letters, digits and underscores. -/
def IsWord (s : List Char) : Prop := s ≠ [] ∧ ∀ c ∈ s, isWordChar c = true

def IsPlace (s : List Char) : Prop := s ≠ [] ∧ ∀ c ∈ s, Line.isLocationChar c = true

instance (s : List Char) : Decidable (IsWord s) :=
  decidable_of_iff (s ≠ [] ∧ s.all isWordChar = true) (by rw [IsWord, List.all_eq_true])

instance (s : List Char) : Decidable (IsPlace s) :=
  decidable_of_iff (s ≠ [] ∧ s.all Line.isLocationChar = true) (by rw [IsPlace, List.all_eq_true])

/-- A word, a colon and something after it. -/
def IsKeyed (s : List Char) : Prop :=
  ∃ key value, s = key ++ ':' :: value ∧ IsWord key ∧ value ≠ []

/-- What can stand between two brackets. -/
structure IsContent (s : List Char) : Prop where
  ne_nil : s ≠ []
  closed : ']' ∉ s
  line : '\n' ∉ s

structure IsState (s : List Char) : Prop extends IsContent s where
  ne_beat : s ≠ ['.', '.', '.']
  not_keyed : ¬IsKeyed s

/-- What is said in an event: words on one line, and no tag among them. -/
structure IsSpoken (s : List Char) : Prop where
  ne_nil : s ≠ []
  bare : Bare isBlank s
  line : '\n' ∉ s
  untagged : ¬Segments.HasTag s
  word : 0 < wordCount s

/-! ### Values and keys -/

theorem lineValue?_of_line {s : List Char} (hNe : s ≠ []) (hLine : '\n' ∉ s) :
    Tag.lineValue? s = some s := by
  have hAll := Segments.ne_of_not_mem hLine
  rw [Tag.lineValue?, List.takeWhile_eq_self_iff.mpr hAll, List.dropWhile_eq_nil_iff.mpr hAll]
  simp [hNe]

theorem of_lineValue? {s v : List Char} (h : Tag.lineValue? s = some v) :
    v ≠ [] ∧ '\n' ∉ v ∧ v <+: s := by
  simp only [Tag.lineValue?] at h
  split at h
  · cases h
  · rename_i hNe
    split at h
    · cases h
      refine ⟨by simpa using hNe, ?_, List.takeWhile_prefix _⟩
      intro hMem
      have hNot := List.mem_takeWhile_imp hMem
      simp at hNot
    · cases h

theorem of_valueAfter? {s v : List Char} {n : ℕ} (h : Tag.valueAfter? s n = some v) :
    v ≠ [] ∧ '\n' ∉ v ∧ v <:+: s := by
  induction n with
  | zero =>
    obtain ⟨hNe, hLine, hPrefix⟩ := of_lineValue? h
    exact ⟨hNe, hLine, hPrefix.isInfix⟩
  | succ n ih =>
    rw [Tag.valueAfter?] at h
    split at h
    · rename_i found hFound
      cases h
      obtain ⟨hNe, hLine, hPrefix⟩ := of_lineValue? hFound
      exact ⟨hNe, hLine, hPrefix.isInfix.trans (List.drop_suffix _ _).isInfix⟩
    · exact ih h

theorem exists_valueAfter? {s : List Char} (hNe : s ≠ []) (hLine : '\n' ∉ s) (n : ℕ) :
    ∃ v, Tag.valueAfter? s n = some v := by
  induction n with
  | zero => exact ⟨s, lineValue?_of_line hNe hLine⟩
  | succ n ih =>
    rw [Tag.valueAfter?]
    split
    · rename_i v _
      exact ⟨v, rfl⟩
    · exact ih

theorem keyed?_append {key : List Char} (hKey : IsWord key) (value : List Char) :
    Tag.keyed? (key ++ ':' :: value) =
      (Tag.valueAfter? value (value.takeWhile isSpace).length).map fun v => (key, v) := by
  have hTake := takeWhile_append_cons hKey.2 (x := ':') rfl value
  have hDrop := dropWhile_append_cons hKey.2 (x := ':') rfl value
  obtain ⟨c, cs, rfl⟩ := List.exists_cons_of_ne_nil hKey.1
  simp only [Tag.keyed?, hTake, hDrop]

/-- The key of a keyed tag ends at its first colon. -/
theorem of_keyed? {s key v : List Char} (h : Tag.keyed? s = some (key, v)) :
    ∃ value, s = key ++ ':' :: value ∧ IsWord key ∧ v ≠ [] ∧ '\n' ∉ v ∧ v <:+: value := by
  simp only [Tag.keyed?] at h
  split at h
  · rename_i c cs value hTake hDrop
    obtain ⟨found, hFound, hEq⟩ := Option.map_eq_some_iff.mp h
    cases hEq
    have hSplit : s = s.takeWhile isWordChar ++ s.dropWhile isWordChar :=
      List.takeWhile_append_dropWhile.symm
    rw [hDrop] at hSplit
    refine ⟨value, hSplit, ⟨?_, ?_⟩, of_valueAfter? hFound⟩
    · rw [hTake]
      exact List.cons_ne_nil c cs
    · exact fun d hd => List.mem_takeWhile_imp hd
  · cases h

theorem keyed?_eq_none_iff {s : List Char} (hLine : '\n' ∉ s) :
    Tag.keyed? s = none ↔ ¬IsKeyed s := by
  constructor
  · rintro hNone ⟨key, value, rfl, hKey, hValue⟩
    have hValueLine : '\n' ∉ value := by
      intro hMem
      exact hLine (List.mem_append_right _ (List.mem_cons_of_mem _ hMem))
    obtain ⟨v, hv⟩ := exists_valueAfter? hValue hValueLine (value.takeWhile isSpace).length
    rw [keyed?_append hKey, hv] at hNone
    cases hNone
  · intro hNot
    rcases hKeyed : Tag.keyed? s with _ | ⟨key, v⟩
    · rfl
    · obtain ⟨value, hEq, hKey, hNe, -, hInfix⟩ := of_keyed? hKeyed
      refine absurd ⟨key, value, hEq, hKey, ?_⟩ hNot
      rintro rfl
      exact hNe (List.eq_nil_of_infix_nil hInfix)

/-! ### Tags -/

theorem classify_state {content : List Char} (h : IsState content) :
    Tag.classify content = .state (String.ofList content) := by
  rw [Tag.classify, if_neg h.ne_beat, (keyed?_eq_none_iff h.line).mpr h.not_keyed]

theorem of_classify_state {content : List Char} {name : String} (hContent : IsContent content)
    (h : Tag.classify content = .state name) : IsState name.toList := by
  unfold Tag.classify at h
  split at h
  · cases h
  · rename_i hBeat
    split at h
    · split at h <;> cases h
    · rename_i hNone
      cases h
      rw [String.toList_ofList]
      have hKeyed := (keyed?_eq_none_iff hContent.line).mp hNone
      exact { toIsContent := hContent, ne_beat := hBeat, not_keyed := hKeyed }

theorem of_classify_shot {content : List Char} {name : String} (hContent : IsContent content)
    (h : Tag.classify content = .shot name) : IsContent name.toList := by
  unfold Tag.classify at h
  split at h
  · cases h
  · split at h
    · rename_i key v hKeyed
      split at h
      · cases h
        rw [String.toList_ofList]
        obtain ⟨value, rfl, -, hNe, hLine, hInfix⟩ := of_keyed? hKeyed
        refine ⟨hNe, fun hMem => hContent.closed ?_, hLine⟩
        exact List.mem_append_right _ (List.mem_cons_of_mem _ (hInfix.subset hMem))
      · cases h
    · cases h

/-- A value that does not begin with ASCII white space is the whole value of a shot after a
space. -/
theorem classify_shot {v : List Char} (hNe : v ≠ []) (hLine : '\n' ∉ v)
    (hHead : ∀ c ∈ v.head?, isSpace c = false) :
    Tag.classify (['s', 'h', 'o', 't'] ++ ':' :: ' ' :: v) = .shot (String.ofList v) := by
  have hShot : IsWord ['s', 'h', 'o', 't'] := by decide
  have hSpaces : (' ' :: v).takeWhile isSpace = [' '] := by
    obtain ⟨c, cs, rfl⟩ := List.exists_cons_of_ne_nil hNe
    have hc : isSpace c = false := hHead c rfl
    rw [List.takeWhile_cons_of_pos rfl, List.takeWhile_cons_of_neg (by simp [hc])]
  have hValue : Tag.valueAfter? (' ' :: v) 1 = some v := by
    rw [Tag.valueAfter?, List.drop_succ_cons, List.drop_zero, lineValue?_of_line hNe hLine]
  rw [Tag.classify, if_neg (by simp), keyed?_append hShot, hSpaces, List.length_singleton, hValue]
  rfl

/-! ### Lines -/

theorem seed?_eq_none {s : List Char} {c : Char} (hc : c ∈ s) (hWord : c ∉ ['s', 'e', 'd', ':'])
    (hSpace : isSpace c = false) (hDigit : c.isDigit = false) : Line.seed? s = none := by
  unfold Line.seed?
  split
  · rename_i rest
    have hRest : c ∈ rest := by
      simp only [List.mem_cons, List.not_mem_nil, or_false, not_or] at hc hWord
      tauto
    have hDrop : c ∈ rest.dropWhile isSpace := by
      rw [← List.takeWhile_append_dropWhile (p := isSpace) (l := rest), List.mem_append] at hRest
      rcases hRest with hTake | hDrop
      · rw [List.mem_takeWhile_imp hTake] at hSpace
        cases hSpace
      · exact hDrop
    have hAll : (rest.dropWhile isSpace).all Char.isDigit = false := by
      rw [List.all_eq_false]
      exact ⟨c, hDrop, by simp [hDigit]⟩
    simp [hAll]
  · rfl

theorem classify_seed {gap digits : List Char} (hGap : ∀ c ∈ gap, isSpace c = true)
    (hNe : digits ≠ []) (hDigits : ∀ c ∈ digits, c.isDigit = true) :
    Line.classify ("seed:".toList ++ (gap ++ digits)) = .seed digits := by
  have hDrop : (gap ++ digits).dropWhile isSpace = digits := by
    obtain ⟨c, cs, rfl⟩ := List.exists_cons_of_ne_nil hNe
    have hWord := isWordChar_of_isDigit (hDigits c List.mem_cons_self)
    have hc : isSpace c = false :=
      isSpace_of_visible (Nat.le_trans (by decide) (toNat_of_isWordChar hWord).1)
    exact dropWhile_append_cons hGap hc cs
  have hSeed : Line.seed? ("seed:".toList ++ (gap ++ digits)) = some digits := by
    show Line.seed? ('s' :: 'e' :: 'e' :: 'd' :: ':' :: (gap ++ digits)) = some digits
    simp only [Line.seed?, hDrop]
    simpa [hNe] using hDigits
  rw [Line.classify, hSeed]
  rfl

theorem classify_location {name : List Char} (h : IsPlace name) :
    Line.classify ('@' :: name) = .location name := by
  have hLocation : Line.location? ('@' :: name) = some name := by
    simpa [Line.location?, h.1] using h.2
  rw [Line.classify, if_neg (by simp), if_neg (by simp), hLocation]
  rfl

theorem dialogue?_append {character : List Char} (h : IsWord character) (said : List Char) :
    Line.dialogue? (character ++ ':' :: said) = some (character, said.dropWhile isSpace) := by
  have hTake := takeWhile_append_cons h.2 (x := ':') rfl said
  have hDrop := dropWhile_append_cons h.2 (x := ':') rfl said
  obtain ⟨c, cs, rfl⟩ := List.exists_cons_of_ne_nil h.1
  simp only [Line.dialogue?, hTake, hDrop]

/-- A word and a colon begin a line of dialogue, unless the line is a seed. -/
theorem classify_dialogue {character : List Char} (h : IsWord character) (said : List Char)
    (hSeed : Line.seed? (character ++ ':' :: said) = none) :
    Line.classify (character ++ ':' :: said) = .dialogue character (said.dropWhile isSpace) := by
  have hDialogue := dialogue?_append h said
  obtain ⟨c, cs, rfl⟩ := List.exists_cons_of_ne_nil h.1
  obtain ⟨hLow, -, hAt⟩ := toNat_of_isWordChar (h.2 c List.mem_cons_self)
  have hMark : c ≠ '#' := by
    rintro rfl
    exact absurd hLow (by decide)
  have hLocation : Line.location? (c :: cs ++ ':' :: said) = none := by
    unfold Line.location?
    split
    · rename_i name hEq
      obtain ⟨rfl, -⟩ := List.cons.inj hEq
      exact absurd rfl hAt
    · rfl
  rw [Line.classify, if_neg (by simp), if_neg (by simp [hMark]), hSeed, hLocation, hDialogue]

end Script

/-- The fields of a line keep to the rules for them. -/
def Line.IsShaped : Line → Prop
  | .location name => Script.IsPlace name
  | .dialogue character text => Script.IsWord character ∧ '\n' ∉ text
  | _ => True

namespace Line

theorem of_location? {s name : List Char} (h : location? s = some name) : Script.IsPlace name := by
  unfold location? at h
  split at h
  · split at h
    · rename_i hName
      cases h
      simpa [Script.IsPlace] using hName
    · cases h
  · cases h

theorem of_dialogue? {s character text : List Char} (h : dialogue? s = some (character, text)) :
    Script.IsWord character ∧ text <:+: s := by
  simp only [dialogue?] at h
  split at h
  · rename_i c cs rest hTake hDrop
    cases h
    refine ⟨⟨?_, fun d hd => List.mem_takeWhile_imp hd⟩, ?_⟩
    · rw [hTake]
      exact List.cons_ne_nil c cs
    · have hRest : (':' :: rest) <:+ s := hDrop ▸ List.dropWhile_suffix _
      have hSaid : rest.dropWhile isSpace <:+ ':' :: rest :=
        (List.dropWhile_suffix _).trans (List.suffix_cons _ _)
      exact (hSaid.trans hRest).isInfix
  · cases h

theorem classify_isShaped {s : List Char} (hLine : '\n' ∉ s) : (classify s).IsShaped := by
  unfold classify
  split
  · trivial
  · split
    · trivial
    · split
      · trivial
      · split
        · rename_i name hName
          exact of_location? hName
        · split
          · rename_i character text hDialogue
            obtain ⟨hCharacter, hInfix⟩ := of_dialogue? hDialogue
            exact ⟨hCharacter, fun hMem => hLine (hInfix.subset hMem)⟩
          · trivial

theorem ofRaw_isShaped {s : List Char} (hLine : '\n' ∉ s) : (ofRaw s).IsShaped :=
  classify_isShaped fun hMem => hLine ((cleaned_isInfix s).subset hMem)

end Line

end Radioplay

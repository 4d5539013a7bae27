import Mathlib
import Radioplay.Proofs.Text.Lines
import Radioplay.Timing

/-! Which key of a table decides a setting. A key counts by its normal form alone: of the keys with
one normal form the last decides, and whether a key's words are joined by capitals or by
underscores makes no difference. -/

namespace Radioplay

/-! ### Normal forms -/

/-- Below 128 no character looks at its neighbours. -/
theorem Text.lowerFrom_eq_map (before cs : List Char) (h : ∀ c ∈ cs, c.toNat < 128) :
    Text.lowerFrom before cs = cs.map Char.toLower := by
  induction cs generalizing before with
  | nil => rfl
  | cons c cs ih =>
    obtain ⟨hc, hcs⟩ := List.forall_mem_cons.mp h
    have hSigma : c ≠ 'Σ' := by rintro rfl; exact absurd hc (by decide)
    have hDotted : c ≠ 'İ' := by rintro rfl; exact absurd hc (by decide)
    rw [Text.lowerFrom, Text.lowerChar, if_neg hSigma, if_neg hDotted, Text.lowerSimple,
      if_pos hc, ih (c :: before) hcs]
    rfl

namespace Setting

theorem splitCapitals_append (a b : List Char) :
    splitCapitals (a ++ b) = splitCapitals a ++ splitCapitals b := by
  induction a with
  | nil => rfl
  | cons c cs ih =>
    rw [List.cons_append, splitCapitals, splitCapitals, ih]
    split <;> rfl

theorem splitCapitals_eq_self {cs : List Char} (h : ∀ c ∈ cs, c.isUpper = false) :
    splitCapitals cs = cs := by
  induction cs with
  | nil => rfl
  | cons c cs ih =>
    obtain ⟨hc, hcs⟩ := List.forall_mem_cons.mp h
    rw [splitCapitals, if_neg (by simp [hc]), ih hcs]

theorem isWordChar_splitCapitals {cs : List Char} (h : ∀ c ∈ cs, Text.isWordChar c = true) :
    ∀ c ∈ splitCapitals cs, Text.isWordChar c = true := by
  induction cs with
  | nil => exact h
  | cons c cs ih =>
    obtain ⟨hc, hcs⟩ := List.forall_mem_cons.mp h
    have hRest : ∀ d ∈ c :: splitCapitals cs, Text.isWordChar d = true :=
      List.forall_mem_cons.mpr ⟨hc, ih hcs⟩
    rw [splitCapitals]
    split
    · exact List.forall_mem_cons.mpr ⟨rfl, hRest⟩
    · exact hRest

theorem toList_normalKey {key : String} {c : Char} {cs : List Char} (hKey : key.toList = c :: cs)
    (hChars : ∀ d ∈ key.toList, Text.isWordChar d = true) :
    (normalKey key).toList = (c :: splitCapitals cs).map Char.toLower := by
  rw [hKey] at hChars
  obtain ⟨hc, hcs⟩ := List.forall_mem_cons.mp hChars
  have hWord : ∀ d ∈ c :: splitCapitals cs, Text.isWordChar d = true :=
    List.forall_mem_cons.mpr ⟨hc, isWordChar_splitCapitals hcs⟩
  have hSplit : ∀ d ∈ c :: splitCapitals cs, d.toNat < 128 := by
    intro d hd
    have hHigh := (Text.toNat_of_isWordChar (hWord d hd)).2.1
    omega
  rw [normalKey, hKey]
  simp only [Text.lower, String.toList_ofList]
  rw [Text.lowerFrom_eq_map [] _ hSplit]

/-! ### Words -/

/-- A word of a key: a lower-case letter, then lower-case letters and digits. -/
structure Word where
  first : Char
  rest : List Char
  first_isLower : first.isLower
  rest_plain : ∀ c ∈ rest, c.isLower ∨ c.isDigit

namespace Word

variable (w : Word)

def text : String := String.ofList (w.first :: w.rest)

def capitalized : String := String.ofList (w.first.toUpper :: w.rest)

theorem isUpper_first : w.first.isUpper = false :=
  Bool.eq_false_iff.mpr (Char.not_isUpper_of_isLower w.first_isLower)

theorem isUpper_rest : ∀ c ∈ w.rest, c.isUpper = false := by
  intro c hc
  obtain hLower | hDigit := w.rest_plain c hc
  · exact Bool.eq_false_iff.mpr (Char.not_isUpper_of_isLower hLower)
  · exact Text.isUpper_of_isDigit hDigit

theorem isUpper_toUpper_first : w.first.toUpper.isUpper := by
  simp [Char.isAlpha, w.first_isLower]

theorem toLower_first : w.first.toLower = w.first :=
  Char.toLower_eq_of_not_isUpper (by simp [w.isUpper_first])

theorem map_toLower_rest : w.rest.map Char.toLower = w.rest := by
  refine (List.map_congr_left fun c hc => ?_).trans (List.map_id _)
  exact Char.toLower_eq_of_not_isUpper (by simp [w.isUpper_rest c hc])

theorem isWordChar_first : Text.isWordChar w.first = true := by
  simp [Text.isWordChar, Char.isAlphanum, Char.isAlpha, w.first_isLower]

theorem isWordChar_rest : ∀ c ∈ w.rest, Text.isWordChar c = true := by
  intro c hc
  obtain hLower | hDigit := w.rest_plain c hc
  · simp [Text.isWordChar, Char.isAlphanum, Char.isAlpha, hLower]
  · simp [Text.isWordChar, Char.isAlphanum, hDigit]

end Word

/-- Words joined by capitals; the first word has none. -/
def camel : List Word → String
  | [] => ""
  | w :: ws => w.text ++ String.join (ws.map Word.capitalized)

/-- Words joined by underscores. -/
def snake (ws : List Word) : String := String.intercalate "_" (ws.map Word.text)

theorem toList_camel (w : Word) (ws : List Word) :
    (camel (w :: ws)).toList =
      w.first :: (w.rest ++ ws.flatMap fun v => v.first.toUpper :: v.rest) := by
  simp [camel, Word.text, Word.capitalized, List.flatMap_map]

theorem toList_snake (w : Word) (ws : List Word) :
    (snake (w :: ws)).toList =
      w.first :: (w.rest ++ ws.flatMap fun v => '_' :: v.first :: v.rest) := by
  induction ws generalizing w with
  | nil => simp [snake, Word.text]
  | cons v ws ih =>
    have hJoin : snake (w :: v :: ws) = w.text ++ "_" ++ snake (v :: ws) :=
      String.intercalate_cons_cons
    simp [hJoin, ih, Word.text]

theorem isWordChar_camel (ws : List Word) : ∀ c ∈ (camel ws).toList, Text.isWordChar c = true := by
  cases ws with
  | nil => simp [camel]
  | cons w ws =>
    have hCapital (v : Word) : Text.isWordChar v.first.toUpper = true := by
      simp [Text.isWordChar, Char.isAlphanum, v.isUpper_toUpper_first, Char.isAlpha]
    simp only [toList_camel, List.forall_mem_cons, List.forall_mem_append, List.forall_mem_flatMap]
    exact ⟨w.isWordChar_first, w.isWordChar_rest, fun v _ => ⟨hCapital v, v.isWordChar_rest⟩⟩

theorem isWordChar_snake (ws : List Word) : ∀ c ∈ (snake ws).toList, Text.isWordChar c = true := by
  cases ws with
  | nil => simp [snake]
  | cons w ws =>
    simp only [toList_snake, List.forall_mem_cons, List.forall_mem_append, List.forall_mem_flatMap]
    exact ⟨w.isWordChar_first, w.isWordChar_rest,
      fun v _ => ⟨rfl, v.isWordChar_first, v.isWordChar_rest⟩⟩

theorem normalKey_camel (ws : List Word) : normalKey (camel ws) = snake ws := by
  cases ws with
  | nil => rfl
  | cons w ws =>
    have hSplit : splitCapitals (ws.flatMap fun v => v.first.toUpper :: v.rest) =
        ws.flatMap fun v => '_' :: v.first.toUpper :: v.rest := by
      induction ws with
      | nil => rfl
      | cons v ws ih =>
        rw [List.flatMap_cons, splitCapitals_append, ih, splitCapitals,
          if_pos v.isUpper_toUpper_first, splitCapitals_eq_self v.isUpper_rest,
          List.flatMap_cons]
    apply String.toList_injective
    rw [toList_normalKey (toList_camel w ws) (isWordChar_camel _), splitCapitals_append,
      splitCapitals_eq_self w.isUpper_rest, hSplit, toList_snake]
    simp [List.map_flatMap, Word.toLower_first, Word.map_toLower_rest]

theorem normalKey_snake (ws : List Word) : normalKey (snake ws) = snake ws := by
  cases ws with
  | nil => rfl
  | cons w ws =>
    have hSplit : splitCapitals (w.rest ++ ws.flatMap fun v => '_' :: v.first :: v.rest) =
        w.rest ++ ws.flatMap fun v => '_' :: v.first :: v.rest := by
      apply splitCapitals_eq_self
      simp only [List.forall_mem_cons, List.forall_mem_append, List.forall_mem_flatMap]
      exact ⟨w.isUpper_rest, fun v _ => ⟨rfl, v.isUpper_first, v.isUpper_rest⟩⟩
    apply String.toList_injective
    rw [toList_normalKey (toList_snake w ws) (isWordChar_snake _), hSplit, toList_snake]
    simp [List.map_flatMap, Word.toLower_first, Word.map_toLower_rest]

/-! ### The setting a key names -/

theorem name_injective : Function.Injective name := by
  intro s s' h
  cases s <;> cases s' <;> first | rfl | exact absurd h (by decide)

theorem ofKey?_eq_some_iff {key : String} {s : Setting} :
    ofKey? key = some s ↔ normalKey key = s.name := by
  have hNamed {s' : Setting} (h : ofKey? key = some s') : normalKey key = s'.name := by
    rw [ofKey?] at h
    have hName := List.find?_some h
    exact (beq_iff_eq.mp hName).symm
  refine ⟨hNamed, fun h => ?_⟩
  have hAll : s ∈ all := by cases s <;> decide
  have hFound : (ofKey? key).isSome :=
    List.find?_isSome.mpr ⟨s, hAll, beq_iff_eq.mpr h.symm⟩
  obtain ⟨s', hs'⟩ := Option.isSome_iff_exists.mp hFound
  rw [hs', name_injective ((hNamed hs').symm.trans h)]

/-- The same words in either spelling; any key may also be kept as it is. -/
inductive Respells : String → String → Prop
  | kept (key : String) : Respells key key
  | toSnake (ws : List Word) : Respells (camel ws) (snake ws)
  | toCamel (ws : List Word) : Respells (snake ws) (camel ws)

theorem Respells.normalKey_eq {key key' : String} (h : Respells key key') :
    normalKey key' = normalKey key := by
  cases h with
  | kept => rfl
  | toSnake ws => rw [normalKey_camel, normalKey_snake]
  | toCamel ws => rw [normalKey_camel, normalKey_snake]

end Setting

namespace Timing

open Setting

theorem ext_get {t t' : Timing} (h : ∀ s, t.get s = t'.get s) : t = t' := by
  cases t
  cases t'
  simp only [Timing.mk.injEq]
  exact ⟨h .msPerWord, h .minDurationMs, h .pauseDurationMs, h .speakerGapMs,
    h .stateChangeGapMs, h .locationDurationMs, h .energyWindowMs, h .energyThreshold,
    h .energySearchRange⟩

theorem get_take (t : Timing) (key : String) (v : Value) (s : Setting) :
    (t.take key v).get s = if normalKey key = s.name then v else t.get s := by
  rw [take]
  split
  case h_1 s' hKey =>
    simp only [get_set, ofKey?_eq_some_iff.mp hKey, name_injective.eq_iff, eq_comm]
  case h_2 hNone =>
    rw [if_neg fun h => by simp [ofKey?_eq_some_iff.mpr h] at hNone]

/-- Keys with different normal forms may change places. -/
theorem take_comm {key key' : String} (h : normalKey key ≠ normalKey key') (t : Timing)
    (v v' : Value) : (t.take key v).take key' v' = (t.take key' v').take key v := by
  apply ext_get
  intro s
  simp only [get_take]
  split_ifs with h' h''
  · exact absurd (h''.trans h'.symm) h
  all_goals rfl

theorem take_congr {key key' : String} (h : normalKey key' = normalKey key) (t : Timing)
    (v : Value) : t.take key' v = t.take key v := by
  apply ext_get
  intro s
  rw [get_take, get_take, h]

theorem ofTable_concat (t : Table Value) (key : String) (v : Value) :
    ofTable (t ++ [(key, v)]) = (ofTable t).take key v := by
  rw [ofTable, List.foldl_append]
  rfl

/-- The value of the last key whose normal form is the setting's name. -/
def lastGiven? (t : Table Value) (s : Setting) : Option Value :=
  (t.reverse.find? fun e => normalKey e.1 = s.name).map Prod.snd

theorem get_ofTable (t : Table Value) (s : Setting) :
    (ofTable t).get s = (lastGiven? t s).getD (({} : Timing).get s) := by
  -- From the end of the table, since its last key is the one taken last.
  induction t using List.reverseRecOn with
  | nil => rfl
  | append_singleton t e ih =>
    obtain ⟨key, v⟩ := e
    rw [ofTable_concat, get_take, lastGiven?, List.reverse_concat, List.find?_cons]
    by_cases h : normalKey key = s.name
    · simp [h]
    · simp only [h, decide_false, if_false]
      exact ih

example : (ofTable [("ms_per_word", .int 400), ("msPerWord", .int 250)]).msPerWord = .int 250 := by
  rfl

/-- A key that names no setting can be put anywhere, and taken from anywhere. -/
theorem ofTable_without {key : String} (h : ∀ s : Setting, normalKey key ≠ s.name)
    (before after : Table Value) (v : Value) :
    ofTable (before ++ (key, v) :: after) = ofTable (before ++ after) := by
  apply ext_get
  intro s
  rw [get_ofTable, get_ofTable, lastGiven?, lastGiven?]
  simp [List.find?_append, h s]

/-- The entries of `t` in any order, each with its key respelled or kept. -/
def Respelled (t t' : Table Value) : Prop :=
  ∃ u, List.Forall₂ (fun e e' => Respells e.1 e'.1 ∧ e.2 = e'.2) t u ∧ u.Perm t'

theorem ofTable_perm {t t' : Table Value} (h : t.Perm t')
    (hOnce : (t.map fun e => normalKey e.1).Nodup) : ofTable t = ofTable t' := by
  apply h.foldl_eq'
  intro e he e' he' timing
  by_cases hKey : normalKey e.1 = normalKey e'.1
  · -- Two entries with one normal form are one entry.
    rw [List.inj_on_of_nodup_map hOnce he he' hKey]
  · exact take_comm hKey timing e.2 e'.2

section Respelling

variable {t u : Table Value}
  (h : List.Forall₂ (fun e e' => Respells e.1 e'.1 ∧ e.2 = e'.2) t u)

include h

theorem map_normalKey_of_respells :
    u.map (fun e => normalKey e.1) = t.map fun e => normalKey e.1 := by
  induction h with
  | nil => rfl
  | cons he _ ih => rw [List.map_cons, List.map_cons, he.1.normalKey_eq, ih]

theorem ofTable_of_respells : ofTable u = ofTable t := by
  rw [ofTable, ofTable]
  generalize ({} : Timing) = timing
  induction h generalizing timing with
  | nil => rfl
  | @cons e e' _ _ he _ ih =>
    obtain ⟨key, v⟩ := e
    obtain ⟨key', _⟩ := e'
    obtain ⟨hKey, rfl⟩ := he
    simp only [List.foldl_cons, take_congr hKey.normalKey_eq, ih]

end Respelling

theorem Respelled.ofTable_eq {t t' : Table Value} (h : Respelled t t')
    (hOnce : (t.map fun e => normalKey e.1).Nodup) :
    (t'.map Prod.fst).Nodup ∧ ofTable t' = ofTable t := by
  obtain ⟨u, hKeys, hOrder⟩ := h
  have hNodup : (u.map fun e => normalKey e.1).Nodup := by
    rwa [map_normalKey_of_respells hKeys]
  refine ⟨?_, (ofTable_perm hOrder hNodup).symm.trans (ofTable_of_respells hKeys)⟩
  have hNodup' : (t'.map fun e => normalKey e.1).Nodup :=
    (hOrder.map _).nodup_iff.mp hNodup
  exact List.Nodup.of_map normalKey (by rwa [List.map_map])

/-- Each setting has the value of the last key whose normal form is its name, and its own default
where there is none; every other key can be left out. Both joints of a key's words have one normal
form, the underscored one, so that a table in which no normal form comes twice can be respelled at
will. -/
theorem ofTable_exact (t : Table Value) :
    (∀ s, (ofTable t).get s = (lastGiven? t s).getD (({} : Timing).get s)) ∧
    (∀ before key v after, t = before ++ (key, v) :: after →
      (∀ s : Setting, normalKey key ≠ s.name) → ofTable (before ++ after) = ofTable t) ∧
    (∀ ws : List Word, normalKey (camel ws) = snake ws ∧ normalKey (snake ws) = snake ws) ∧
    ∀ t', (t.map fun e => normalKey e.1).Nodup → Respelled t t' →
      (t'.map Prod.fst).Nodup ∧ ofTable t' = ofTable t := by
  refine ⟨get_ofTable t, ?_, fun ws => ⟨normalKey_camel ws, normalKey_snake ws⟩,
    fun _ hOnce h => h.ofTable_eq hOnce⟩
  rintro before key v after rfl hOther
  exact (ofTable_without hOther before after v).symm

def house : Table Value :=
  [("msPerWord", .int 250), ("tempo", .int 3), ("speaker_gap_ms", .int 0)]

/-- The same from the end, in the other spellings. -/
def houseRespelled : Table Value :=
  [("speakerGapMs", .int 0), ("tempo", .int 3), ("ms_per_word", .int 250)]

def pace : List Word :=
  [⟨'m', ['s'], rfl, by simp [Char.isLower]⟩, ⟨'p', ['e', 'r'], rfl, by simp [Char.isLower]⟩,
    ⟨'w', ['o', 'r', 'd'], rfl, by simp [Char.isLower]⟩]

def speakerGap : List Word :=
  [⟨'s', ['p', 'e', 'a', 'k', 'e', 'r'], rfl, by simp [Char.isLower]⟩,
    ⟨'g', ['a', 'p'], rfl, by simp [Char.isLower]⟩, ⟨'m', ['s'], rfl, by simp [Char.isLower]⟩]

theorem pace_spelled : camel pace = "msPerWord" ∧ snake pace = "ms_per_word" := by decide +kernel

theorem speakerGap_spelled :
    camel speakerGap = "speakerGapMs" ∧ snake speakerGap = "speaker_gap_ms" := by decide +kernel

theorem house_respelled : Respelled house houseRespelled := by
  have hPace : Respells "msPerWord" "ms_per_word" := by
    rw [← pace_spelled.1, ← pace_spelled.2]
    exact .toSnake pace
  have hGap : Respells "speaker_gap_ms" "speakerGapMs" := by
    rw [← speakerGap_spelled.1, ← speakerGap_spelled.2]
    exact .toCamel speakerGap
  exact ⟨houseRespelled.reverse,
    .cons ⟨hPace, rfl⟩ (.cons ⟨.kept "tempo", rfl⟩ (.cons ⟨hGap, rfl⟩ .nil)),
    List.reverse_perm houseRespelled⟩

theorem house_exact :
    (∀ s : Setting, normalKey "tempo" ≠ s.name) ∧
    (house.map fun e => normalKey e.1).Nodup ∧ Respelled house houseRespelled ∧
    ofTable houseRespelled = ofTable house ∧
    ofTable [("msPerWord", .int 250), ("speaker_gap_ms", .int 0)] = ofTable house ∧
    (ofTable house).get .msPerWord = .int 250 ∧ (ofTable house).get .minDurationMs = .int 500 := by
  have hKeys : house.map (fun e => normalKey e.1) = ["ms_per_word", "tempo", "speaker_gap_ms"] := by
    decide +kernel
  have hOnce : (house.map fun e => normalKey e.1).Nodup := by
    rw [hKeys]
    decide
  have hTempo (s : Setting) : normalKey "tempo" ≠ s.name := by cases s <;> decide +kernel
  obtain ⟨hGet, hWithout, -, hRespelled⟩ := ofTable_exact house
  exact ⟨hTempo, hOnce, house_respelled, (hRespelled _ hOnce house_respelled).2,
    hWithout [_] _ _ [_] rfl hTempo, hGet .msPerWord, hGet .minDurationMs⟩

end Timing

end Radioplay

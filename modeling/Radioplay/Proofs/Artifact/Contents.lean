import Mathlib.Algebra.Group.Nat.Defs
import Radioplay.Proofs.Json.Written
import Radioplay.Proofs.Script.Seeds
import Radioplay.Proofs.Script.WellFormed
import Radioplay.Proofs.Timeline.Walk

/-! What an episode's artifacts hold. A script that has been read from a text can always be written
as one, and a timeline that has been made always has a value; whether that can be written is up to
its numbers. -/

namespace Radioplay

namespace Script

/-! ### Seeds that can be written -/

theorem digitsValue_append (ds : List Char) (c : Char) :
    digitsValue (ds ++ [c]) = digitsValue ds * 10 + (c.toNat - 48) := by
  rw [digitsValue, List.foldl_append]
  rfl

theorem digitsValue_lt {ds : List Char} (h : ∀ c ∈ ds, c.isDigit = true) :
    digitsValue ds < 10 ^ ds.length := by
  induction ds using List.reverseRecOn with
  | nil => decide
  | append_singleton ds c ih =>
    have hRest := ih fun d hd => h d (List.mem_append_left _ hd)
    have hDigit := h c (List.mem_append_right _ List.mem_cons_self)
    have hSmall : c.toNat ≤ 57 := by
      rw [Char.isDigit, Bool.and_eq_true, decide_eq_true_iff, decide_eq_true_iff] at hDigit
      exact hDigit.2
    rw [digitsValue_append, List.length_append, List.length_singleton, Nat.pow_succ]
    omega

theorem isDigit_of_seed? {s digits : List Char} (h : Line.seed? s = some digits) :
    ∀ c ∈ digits, c.isDigit = true := by
  unfold Line.seed? at h
  split at h
  · simp only at h
    split at h
    · rename_i hAll
      cases h
      rw [Bool.and_eq_true] at hAll
      exact List.all_eq_true.mp hAll.2
    · cases h
  · cases h

theorem isDigit_of_numerals {text digits : List Char} (h : digits ∈ numerals text) :
    ∀ c ∈ digits, c.isDigit = true := by
  obtain ⟨line, hLine, hDigits⟩ := List.mem_filterMap.mp h
  obtain ⟨raw, -, rfl⟩ := List.mem_map.mp hLine
  rw [Line.ofRaw, Line.classify] at hDigits
  split at hDigits
  · cases hDigits
  split at hDigits
  · cases hDigits
  split at hDigits
  · rename_i hSeed
    cases hDigits
    exact isDigit_of_seed? hSeed
  · split at hDigits
    · cases hDigits
    · split at hDigits <;> cases hDigits

variable {text : List Char} {script : Script}

/-- A text is not read just if a numeral on one of its seed lines is overlong. -/
theorem exists_parse_error_iff :
    (∃ fault, parse text = .error fault) ↔ ∃ digits ∈ numerals text, isOverlong digits = true := by
  simp only [parse_eq_error, readLines_eq_error]
  rw [← List.find?_isSome, Option.isSome_iff_exists]
  constructor
  · rintro ⟨_, digits, hFound, -⟩
    exact ⟨digits, hFound⟩
  · rintro ⟨digits, hFound⟩
    exact ⟨_, digits, hFound, rfl⟩

theorem length_le_of_parse (h : parse text = .ok script) {digits : List Char}
    (hMem : digits ∈ numerals text) : digits.length ≤ digitLimit := by
  by_contra hLong
  obtain ⟨fault, hFault⟩ := exists_parse_error_iff.mpr
    ⟨digits, hMem, decide_eq_true (Nat.lt_of_not_le hLong)⟩
  rw [h] at hFault
  cases hFault

theorem seed_isExact (h : parse text = .ok script) {n : Int} (hSeed : script.seed = some n) :
    exceedsDigitLimit n = false := by
  rw [parse_seed h, declaredSeed?, Option.map_eq_some_iff] at hSeed
  obtain ⟨digits, hLast, rfl⟩ := hSeed
  have hMem := List.mem_of_getLast? hLast
  have hValue := digitsValue_lt (isDigit_of_numerals hMem)
  have hLength := length_le_of_parse h hMem
  refine decide_eq_false (Nat.not_le.mpr ?_)
  rw [Int.natAbs_natCast]
  exact Nat.lt_of_lt_of_le hValue (Nat.pow_le_pow_right (by decide) hLength)

/-! ### Scripts that can be written -/

theorem events_wellFormed (h : parse text = .ok script) : ∀ e ∈ script.events, e.WellFormed := by
  obtain ⟨r, hRead, -⟩ := parse_eq_ok.mp h
  refine (readLines_wellFormed Reading.start_isSound (fun l hl => ?_) hRead).1
  obtain ⟨raw, hRaw, rfl⟩ := List.mem_map.mp hl
  exact Line.ofRaw_isShaped (Text.newline_not_mem_of_mem_lines hRaw)

end Script

theorem Value.IsExact.ofText? {room : ℕ} (s : Option String) : (Value.ofText? s).IsExact room := by
  cases s with
  | none => exact .null
  | some s => exact .str s

theorem Event.WellFormed.fields_isExact {room : ℕ} {e : Event} (h : e.WellFormed) :
    (Value.obj e.fields).IsExact (room + 1) := by
  cases h with
  | location hName =>
    exact .obj (by simp [Event.fields]) (by simp [Event.fields, Value.IsExact.str])
  | text hCharacter hState hWords =>
    exact .obj (by simp [Event.fields])
      (by simp [Event.fields, Value.IsExact.str, Value.IsExact.ofText?])
  | pause hCharacter hState =>
    exact .obj (by simp [Event.fields])
      (by simp [Event.fields, Value.IsExact.str, Value.IsExact.ofText?])
  | shot hName => exact .obj (by simp [Event.fields]) (by simp [Event.fields, Value.IsExact.str])

/-- A script that has been read holds nothing that cannot be written and read exactly. -/
theorem Script.toValue_isExact {text : List Char} {script : Script} (h : parse text = .ok script)
    (room : ℕ) : script.toValue.IsExact (room + 3) := by
  refine .obj (by simp) ?_
  simp only [List.forall_mem_cons]
  refine ⟨?_, .arr fun v hv => ?_, fun _ hf => nomatch hf⟩
  · split
    · rename_i n hSeed
      exact .int (seed_isExact h hSeed)
    · exact .null
  · obtain ⟨e, he, rfl⟩ := List.mem_map.mp hv
    exact (events_wellFormed h e he).fields_isExact

theorem Script.exists_print {text : List Char} {script : Script} (h : parse text = .ok script) :
    ∃ json, Json.print script.toValue = .ok json := by
  refine ⟨Json.valueText 0 script.toValue, ?_⟩
  rw [Json.print, Json.write_exact (toValue_isExact h 0)]

/-! ### Timelines that have a value -/

namespace Timeline

variable {σ : Type} {studio : Studio σ Number} {timing : Timing} {s s' : σ}

theorem exists_valuesOf {entries : List (Entry Number)}
    (h : ∀ e ∈ entries, ∃ n, e.finish = .ok n) : ∃ values, Entry.valuesOf entries = .ok values := by
  induction entries with
  | nil => exact ⟨[], rfl⟩
  | cons e rest ih =>
    obtain ⟨⟨n, hFinish⟩, hRest⟩ := List.forall_mem_cons.mp h
    obtain ⟨values, hValues⟩ := ih hRest
    have hEntry : ∃ v, e.toValue = .ok v := by
      rw [Entry.toValue, hFinish, ok_bind]
      cases e.voice <;> exact ⟨_, rfl⟩
    obtain ⟨v, hv⟩ := hEntry
    exact ⟨v :: values, bind_eq_ok.mpr ⟨v, hv, bind_eq_ok.mpr ⟨values, hValues, rfl⟩⟩⟩

/-- The ends of all entries are known, since the walk has gone on from them. -/
theorem walk_finish {clock last : Clock} {items : List (Event × Option String)}
    {entries : List (Entry Number)}
    (h : (walk studio timing clock items).perform s = (.ok (entries, last), s')) :
    ∀ e ∈ entries, ∃ n, e.finish = .ok n := by
  induction items generalizing clock s entries with
  | nil =>
    obtain ⟨rfl, -, -⟩ := walk_nil_ok h
    exact fun _ he => nomatch he
  | cons item rest ih =>
    obtain ⟨entry, between, s₁, now, more, -, hFinish, hWalk, rfl⟩ := walk_cons_ok h
    exact List.forall_mem_cons.mpr ⟨⟨now, hFinish⟩, ih hWalk⟩

theorem exists_toValue {script : Script} {generator : Option Generator}
    {timeline : Timeline Number} {g : Generator}
    (h : (generate studio timing script generator).perform s = (.ok (timeline, g), s')) :
    ∃ value, timeline.toValue = .ok value := by
  obtain ⟨paths, s₁, s₂, last, -, -, hWalk, -⟩ := generate_ok h
  obtain ⟨values, hValues⟩ := exists_valuesOf (walk_finish hWalk)
  exact ⟨_, bind_eq_ok.mpr ⟨values, hValues, rfl⟩⟩

end Timeline

end Radioplay

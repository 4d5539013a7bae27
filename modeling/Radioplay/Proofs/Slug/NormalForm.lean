import Mathlib
import Radioplay.Proofs.Text.Lines
import Radioplay.Slug

/-! The normal form of slugs. The slug of a path is made of the runs of letters and digits in the
stem of its last part, in lower case and with one underscore between each two; a slug is made of
such runs alone, so it is its own slug. -/

namespace Radioplay

open Text

/-! ### Stems -/

namespace Path

/-- The last part of a path: what follows its last slash, or all of it if there is none. -/
inductive IsLast : (path name : List Char) → Prop
  | whole {name : List Char} (hName : '/' ∉ name) : IsLast name name
  | below {folder name : List Char} (hName : '/' ∉ name) : IsLast (folder ++ '/' :: name) name

/-- A name without its last extension, which dots at the front do not start. -/
inductive IsStem : (name stem : List Char) → Prop
  | whole {dots rest : List Char} (hDots : ∀ c ∈ dots, c = '.') (hRest : '.' ∉ rest) :
    IsStem (dots ++ rest) (dots ++ rest)
  | cut {stem extension : List Char} (hStem : ∃ c ∈ stem, c ≠ '.') (hExtension : '.' ∉ extension) :
    IsStem (stem ++ '.' :: extension) stem

def HasStem (path stem : List Char) : Prop := ∃ name, IsLast path name ∧ IsStem name stem

variable {before after name path s : List Char}

/-- A list without a character, or cut at the last place where it stands. -/
theorem last_cases (a : Char) (s : List Char) :
    a ∉ s ∨ ∃ before after, s = before ++ a :: after ∧ a ∉ after := by
  by_cases ha : a ∈ s
  · obtain ⟨after, before, hReverse, hAfter⟩ :=
      List.eq_append_cons_of_mem (List.mem_reverse.mpr ha)
    refine .inr ⟨before.reverse, after.reverse, ?_, by rwa [List.mem_reverse]⟩
    have hEq := congrArg List.reverse hReverse
    simpa using hEq
  · exact .inl ha

theorem ne_of_not_mem_reverse {a : Char} (h : a ∉ s) : ∀ c ∈ s.reverse, (c != a) = true := by
  intro c hc
  rw [bne_iff_ne]
  rintro rfl
  exact h (List.mem_reverse.mp hc)

theorem lastPart_of_not_mem (h : '/' ∉ s) : lastPart s = s := by
  rw [lastPart, List.takeWhile_eq_self_iff.mpr (ne_of_not_mem_reverse h), List.reverse_reverse]

theorem lastPart_append (h : '/' ∉ name) (folder : List Char) :
    lastPart (folder ++ '/' :: name) = name := by
  have hReverse : (folder ++ '/' :: name).reverse = name.reverse ++ '/' :: folder.reverse := by simp
  rw [lastPart, hReverse, takeWhile_append_cons (ne_of_not_mem_reverse h) rfl,
    List.reverse_reverse]

theorem isLast_iff : IsLast path name ↔ lastPart path = name := by
  constructor
  · intro h
    cases h with
    | whole hName => exact lastPart_of_not_mem hName
    | below hName => exact lastPart_append hName _
  · rintro rfl
    rcases last_cases '/' path with hNone | ⟨folder, name, rfl, hName⟩
    · rw [lastPart_of_not_mem hNone]
      exact .whole hNone
    · rw [lastPart_append hName]
      exact .below hName

theorem stem_of_not_mem (h : '.' ∉ s) : stem s = s := by
  rw [stem, List.dropWhile_eq_nil_iff.mpr (ne_of_not_mem_reverse h)]

theorem stem_append (h : '.' ∉ after) (before : List Char) :
    stem (before ++ '.' :: after) =
      if before.all (· == '.') then before ++ '.' :: after else before := by
  have hReverse : (before ++ '.' :: after).reverse = after.reverse ++ '.' :: before.reverse := by
    simp
  rw [stem, hReverse, dropWhile_append_cons (ne_of_not_mem_reverse h) rfl]
  simp

theorem isStem_iff : IsStem name s ↔ stem name = s := by
  constructor
  · intro h
    cases h with
    | @whole dots rest hDots hRest =>
      rcases List.eq_nil_or_concat dots with rfl | ⟨front, d, rfl⟩
      · exact stem_of_not_mem hRest
      · -- The last dot is the last one at the front, and before it there are dots alone.
        rw [List.concat_eq_append] at hDots ⊢
        obtain ⟨hFront, hd⟩ := List.forall_mem_append.mp hDots
        obtain rfl : d = '.' := hd d List.mem_cons_self
        rw [List.append_assoc, List.singleton_append, stem_append hRest,
          if_pos (by simpa using hFront)]
    | cut hStem hExtension =>
      rw [stem_append hExtension, if_neg]
      simpa using hStem
  · rintro rfl
    rcases last_cases '.' name with hNone | ⟨before, after, rfl, hAfter⟩
    · rw [stem_of_not_mem hNone]
      exact @IsStem.whole [] name (fun _ h => absurd h List.not_mem_nil) hNone
    · rw [stem_append hAfter]
      split
      · rename_i hDots
        have hBefore : ∀ c ∈ before, c = '.' := by simpa using hDots
        have hAll : ∀ c ∈ before ++ ['.'], c = '.' :=
          List.forall_mem_append.mpr ⟨hBefore, fun c hc => List.mem_singleton.mp hc⟩
        have hWhole := IsStem.whole hAll hAfter
        rwa [List.append_assoc, List.singleton_append] at hWhole
      · rename_i hMixed
        exact .cut (by simpa using hMixed) hAfter

theorem hasStem_iff : HasStem path s ↔ stem (lastPart path) = s := by
  constructor
  · rintro ⟨name, hLast, hStem⟩
    rw [isLast_iff.mp hLast, isStem_iff.mp hStem]
  · intro h
    exact ⟨lastPart path, isLast_iff.mpr rfl, isStem_iff.mpr h⟩

end Path

namespace Slug

/-- The longest stretches of letters and digits, in order: what is left between all other
characters, unless it is nothing. -/
def runs (s : List Char) : List (List Char) :=
  (s.splitOnP fun c => !c.isAlphanum).filter fun run => !run.isEmpty

/-- A run of letters and digits. -/
def IsRun (w : List Char) : Prop := w ≠ [] ∧ ∀ c ∈ w, c.isAlphanum = true

/-- A run of lower-case letters and digits. -/
def IsWord (w : List Char) : Prop := w ≠ [] ∧ ∀ c ∈ w, c.isLower ∨ c.isDigit

def joined (words : List (List Char)) : List Char := ['_'].intercalate words

/-- Words with one underscore between each two; there may be none. -/
def IsSlug (s : List Char) : Prop := ∃ words, (∀ w ∈ words, IsWord w) ∧ s = joined words

variable {c x : Char} {s w : List Char} {words : List (List Char)}

/-! ### Runs -/

theorem IsRun.runs_eq (h : IsRun w) : runs w = [w] := by
  rw [runs, List.splitOnP_eq_singleton fun c hc => by simp [h.2 c hc]]
  simp [h.1]

theorem runs_append_cons (hx : x.isAlphanum = false) (front s : List Char) :
    runs (front ++ x :: s) = runs front ++ runs s := by
  rw [runs, List.splitOnP_append_cons front s (by simp [hx]), List.filter_append, runs, runs]

theorem runs_cons (hx : x.isAlphanum = false) (s : List Char) : runs (x :: s) = runs s :=
  runs_append_cons hx [] s

theorem IsRun.runs_append (h : IsRun w) (hx : x.isAlphanum = false) (s : List Char) :
    runs (w ++ x :: s) = w :: runs s := by
  rw [runs_append_cons hx, h.runs_eq, List.singleton_append]

/-- The ways in which a text can go on. -/
theorem runInduction {motive : List Char → Prop} (nil : motive [])
    (last : ∀ w, IsRun w → motive w)
    (other : ∀ x s, x.isAlphanum = false → motive s → motive (x :: s))
    (run : ∀ w x s, IsRun w → x.isAlphanum = false → motive s → motive (w ++ x :: s)) :
    ∀ s, motive s := by
  intro s
  induction hn : s.length using Nat.strong_induction_on generalizing s with
  | _ n ih =>
    rcases run_cases Char.isAlphanum s with hAll | ⟨w, x, rest, rfl, hw, hx⟩
    · rcases eq_or_ne s [] with rfl | hNe
      · exact nil
      · exact last s ⟨hNe, hAll⟩
    · have hRest : motive rest := by
        refine ih rest.length ?_ rest rfl
        rw [← hn, List.length_append, List.length_cons]
        omega
      rcases eq_or_ne w [] with rfl | hNe
      · exact other x rest hx hRest
      · exact run w x rest ⟨hNe, hw⟩ hx hRest

theorem isRun_of_mem_runs (h : w ∈ runs s) : IsRun w := by
  induction s using runInduction with
  | nil => cases h
  | last v hv =>
    rw [hv.runs_eq, List.mem_singleton] at h
    exact h ▸ hv
  | other x s hx ih =>
    rw [runs_cons hx] at h
    exact ih h
  | run v x s hv hx ih =>
    rw [hv.runs_append hx, List.mem_cons] at h
    rcases h with rfl | h
    · exact hv
    · exact ih h

/-! ### Squeezing -/

theorem squeeze_cons (hc : c.isAlphanum = true) (s : List Char) :
    squeeze (c :: s) = c :: squeeze s := by
  rw [squeeze, List.foldr_cons, if_pos hc, ← squeeze]

theorem squeeze_other (hx : x.isAlphanum = false) (s : List Char) :
    squeeze (x :: s) = if (squeeze s).head? = some '_' then squeeze s else '_' :: squeeze s := by
  rw [squeeze, List.foldr_cons, if_neg (by simp [hx]), ← squeeze]

theorem squeeze_append (hw : ∀ c ∈ w, c.isAlphanum = true) (s : List Char) :
    squeeze (w ++ s) = w ++ squeeze s := by
  induction w with
  | nil => rfl
  | cons c cs ih =>
    obtain ⟨hc, hcs⟩ := List.forall_mem_cons.mp hw
    rw [List.cons_append, squeeze_cons hc, ih hcs, List.cons_append]

/-- Any other character becomes an underscore. -/
theorem squeeze_other_eq (hx : x.isAlphanum = false) (s : List Char) :
    squeeze (x :: s) = squeeze ('_' :: s) := by
  rw [squeeze_other hx, squeeze_other rfl]

theorem squeeze_underscore_other (hx : x.isAlphanum = false) (s : List Char) :
    squeeze ('_' :: x :: s) = squeeze ('_' :: s) := by
  have hHead : (squeeze (x :: s)).head? = some '_' := by
    rw [squeeze_other hx]
    split
    · assumption
    · rfl
  rw [squeeze_other rfl, if_pos hHead, squeeze_other_eq hx]

theorem IsRun.squeeze_underscore (h : IsRun w) (s : List Char) :
    squeeze ('_' :: (w ++ s)) = '_' :: (w ++ squeeze s) := by
  obtain ⟨c, cs, rfl⟩ := List.exists_cons_of_ne_nil h.1
  have hHead : ((c :: cs) ++ squeeze s).head? ≠ some '_' := by
    rintro ⟨⟩
    exact absurd (h.2 '_' List.mem_cons_self) (by decide)
  rw [squeeze_other rfl, squeeze_append h.2, if_neg hHead]

/-- Words, each after an underscore. -/
def underscored (words : List (List Char)) : List Char := words.flatMap fun w => '_' :: w

theorem underscored_cons (w : List Char) (words : List (List Char)) :
    underscored (w :: words) = '_' :: (w ++ underscored words) := rfl

/-- Put after an underscore, a text is squeezed to its runs, each after an underscore. -/
theorem squeeze_underscore (s : List Char) :
    ∃ right, (∀ c ∈ right, c = '_') ∧ squeeze ('_' :: s) = underscored (runs s) ++ right := by
  induction s using runInduction with
  | nil => exact ⟨['_'], fun c hc => List.mem_singleton.mp hc, rfl⟩
  | last w hw =>
    have hSqueeze := hw.squeeze_underscore []
    refine ⟨[], fun c hc => absurd hc List.not_mem_nil, ?_⟩
    rw [List.append_nil] at hSqueeze
    rw [hSqueeze, hw.runs_eq]
    simp [underscored, squeeze]
  | other x s hx ih => rwa [squeeze_underscore_other hx, runs_cons hx]
  | run w x s hw hx ih =>
    obtain ⟨right, hRight, hSqueeze⟩ := ih
    refine ⟨right, hRight, ?_⟩
    rw [hw.squeeze_underscore, squeeze_other_eq hx, hSqueeze, hw.runs_append hx, underscored_cons,
      List.cons_append, List.append_assoc]

/-! ### Joined words -/

theorem joined_cons_cons (w v : List Char) (words : List (List Char)) :
    joined (w :: v :: words) = w ++ '_' :: joined (v :: words) := by
  rw [joined, List.intercalate_cons_cons, List.append_assoc, List.singleton_append, joined]

theorem joined_cons (w : List Char) (words : List (List Char)) :
    joined (w :: words) = w ++ underscored words := by
  induction words generalizing w with
  | nil => simp [joined, underscored]
  | cons v words ih => rw [joined_cons_cons, ih v, underscored_cons]

theorem IsRun.bare (h : IsRun w) : Bare (· == '_') w := by
  have hNot {c : Char} (hc : c ∈ w) : (c == '_') = false := by
    rw [beq_eq_false_iff_ne]
    rintro rfl
    exact absurd (h.2 '_' hc) (by decide)
  exact ⟨fun c hc => hNot (List.mem_of_mem_head? hc),
    fun c hc => hNot (List.mem_of_mem_getLast? hc)⟩

theorem joined_bare (h : ∀ w ∈ words, IsRun w) : Bare (· == '_') (joined words) := by
  cases words with
  | nil => exact ⟨nofun, nofun⟩
  | cons w words =>
    obtain ⟨hw, hWords⟩ := List.forall_mem_cons.mp h
    rw [joined_cons]
    rcases List.eq_nil_or_concat words with rfl | ⟨front, v, rfl⟩
    · simpa [underscored] using hw.bare
    · have hv : IsRun v := hWords v (by simp)
      have hMiddle := Bare.append hw.1 hv.1 hw.bare.head hv.bare.last (underscored front ++ ['_'])
      simpa [underscored] using hMiddle

theorem stripEnds_underscore (s : List Char) :
    stripEnds (· == '_') ('_' :: s) = stripEnds (· == '_') s :=
  stripEnds_append_left (by simp : ∀ c ∈ ['_'], (c == '_') = true) s

theorem stripEnds_underscored (h : ∀ w ∈ words, IsRun w) :
    stripEnds (· == '_') (underscored words) = joined words := by
  cases words with
  | nil => rfl
  | cons w words =>
    rw [underscored_cons, ← joined_cons, stripEnds_underscore, stripEnds_eq_self (joined_bare h)]

theorem stripEnds_squeeze (s : List Char) :
    stripEnds (· == '_') (squeeze s) = joined (runs s) := by
  -- An underscore put in front is one more to be squeezed or to be stripped.
  have hFront : stripEnds (· == '_') (squeeze s) = stripEnds (· == '_') (squeeze ('_' :: s)) := by
    rw [squeeze_other rfl]
    split
    · rfl
    · exact (stripEnds_underscore (squeeze s)).symm
  obtain ⟨right, hRight, hSqueeze⟩ := squeeze_underscore s
  rw [hFront, hSqueeze, stripEnds_append_right fun c hc => beq_iff_eq.mpr (hRight c hc),
    stripEnds_underscored fun w hw => isRun_of_mem_runs hw]

theorem map_joined (words : List (List Char)) :
    (joined words).map Char.toLower = joined (words.map fun w => w.map Char.toLower) := by
  cases words with
  | nil => rfl
  | cons w words =>
    have hUnderscore : '_'.toLower = '_' := by decide
    rw [List.map_cons, joined_cons, joined_cons]
    simp [underscored, List.map_flatMap, List.flatMap_map, hUnderscore]

theorem ofStem_eq (s : List Char) :
    ofStem s = joined ((runs s).map fun w => w.map Char.toLower) := by
  rw [ofStem, stripEnds_squeeze, map_joined]

/-! ### Slugs -/

theorem IsRun.lower (h : IsRun w) : IsWord (w.map Char.toLower) := by
  refine ⟨by simpa using h.1, fun d hd => ?_⟩
  obtain ⟨c, hc, rfl⟩ := List.mem_map.mp hd
  cases hAlpha : c.isAlpha with
  | true => exact .inl (by rw [Char.isLower_toLower_eq_isAlpha, hAlpha])
  | false =>
    have hDigit : c.isDigit = true := by simpa [Char.isAlphanum, hAlpha] using h.2 c hc
    rw [Char.toLower_eq_of_not_isUpper (by simp [isUpper_of_isDigit hDigit])]
    exact .inr hDigit

theorem IsWord.isRun (h : IsWord w) : IsRun w := by
  refine ⟨h.1, fun c hc => ?_⟩
  rcases h.2 c hc with hLower | hDigit
  · simp [Char.isAlphanum, Char.isAlpha, hLower]
  · simp [Char.isAlphanum, hDigit]

theorem IsWord.map_toLower (h : IsWord w) : w.map Char.toLower = w := by
  refine (List.map_congr_left fun c hc => ?_).trans (List.map_id w)
  apply Char.toLower_eq_of_not_isUpper
  rcases h.2 c hc with hLower | hDigit
  · exact Char.not_isUpper_of_isLower hLower
  · simp [isUpper_of_isDigit hDigit]

theorem runs_joined (h : ∀ w ∈ words, IsRun w) : runs (joined words) = words := by
  induction words with
  | nil => rfl
  | cons w words ih =>
    obtain ⟨hw, hWords⟩ := List.forall_mem_cons.mp h
    cases words with
    | nil => rw [joined_cons, underscored, List.flatMap_nil, List.append_nil, hw.runs_eq]
    | cons v words => rw [joined_cons_cons, hw.runs_append rfl, ih hWords]

theorem mem_joined (h : c ∈ joined words) : c = '_' ∨ ∃ w ∈ words, c ∈ w := by
  cases words with
  | nil => cases h
  | cons w words =>
    simp only [joined_cons, underscored, List.mem_append, List.mem_flatMap, List.mem_cons] at h
    rcases h with h | ⟨v, hv, rfl | h⟩
    · exact .inr ⟨w, List.mem_cons_self, h⟩
    · exact .inl rfl
    · exact .inr ⟨v, List.mem_cons_of_mem w hv, h⟩

theorem ofPath_isSlug (path : String) : IsSlug (ofPath path).toList := by
  rw [ofPath, String.toList_ofList, ofStem_eq]
  refine ⟨_, fun w hw => ?_, rfl⟩
  obtain ⟨run, hRun, rfl⟩ := List.mem_map.mp hw
  exact (isRun_of_mem_runs hRun).lower

theorem IsSlug.not_mem (h : IsSlug s) (hx : x.isAlphanum = false) (hNe : x ≠ '_') : x ∉ s := by
  obtain ⟨words, hWords, rfl⟩ := h
  intro hMem
  rcases mem_joined hMem with hEq | ⟨w, hw, hMem⟩
  · exact hNe hEq
  · rw [(hWords w hw).isRun.2 x hMem] at hx
    cases hx

/-- A slug is its own slug. -/
theorem ofPath_of_isSlug {path : String} (h : IsSlug path.toList) : ofPath path = path := by
  have hSlash : '/' ∉ path.toList := h.not_mem rfl (by decide)
  have hDot : '.' ∉ path.toList := h.not_mem rfl (by decide)
  obtain ⟨words, hWords, hJoined⟩ := h
  have hLower : words.map (fun w => w.map Char.toLower) = words :=
    (List.map_congr_left fun w hw => (hWords w hw).map_toLower).trans (List.map_id words)
  rw [ofPath, Path.lastPart_of_not_mem hSlash, Path.stem_of_not_mem hDot, ofStem_eq, hJoined,
    runs_joined fun w hw => (hWords w hw).isRun, hLower, ← hJoined, String.ofList_toList]

/-- A path has one stem, and its slug is made of the runs of that; it is one part of a path, with no
extension, and its own slug. -/
theorem ofPath_normal (path : String) :
    (∃ stem, (∀ s, Path.HasStem path.toList s ↔ s = stem) ∧
      (ofPath path).toList = joined ((runs stem).map fun w => w.map Char.toLower)) ∧
    IsSlug (ofPath path).toList ∧
    '/' ∉ (ofPath path).toList ∧ '.' ∉ (ofPath path).toList ∧
    ofPath (ofPath path) = ofPath path := by
  have hSlug := ofPath_isSlug path
  refine ⟨⟨Path.stem (Path.lastPart path.toList), fun s => ?_, ?_⟩, hSlug,
    hSlug.not_mem rfl (by decide), hSlug.not_mem rfl (by decide), ofPath_of_isSlug hSlug⟩
  · rw [Path.hasStem_iff, eq_comm]
  · rw [ofPath, String.toList_ofList, ofStem_eq]

/-- The dots at the front start no extension. -/
example : ofPath "takes.v1/..Wide--Shot 2" = "wide_shot_2" := by decide

end Slug

end Radioplay

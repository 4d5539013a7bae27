import Radioplay.Proofs.Script.Brackets

/-! What the bracket split of a text can be: tags with something in them that nothing in them
closes, between plain texts in which each opening bracket is closed at once; only after the last tag
may one stay open for good. The split of every text is such, and it is the only one that the text is
put together from. So a split that is taken apart at a tag leaves the splits of the two texts, and
more text without brackets at an end of the whole goes into the plain text there. -/

namespace Radioplay.Segments

open Text

/-- What follows each opening bracket of a text has a property. -/
def AfterOpen (P : List Char → Prop) (s : List Char) : Prop :=
  ∀ before after, s = before ++ '[' :: after → P after

/-- Each opening bracket is closed at once. -/
def IsFlat (s : List Char) : Prop := AfterOpen (fun after => after.head? = some ']') s

/-- Each opening bracket is closed at once, or never. -/
def IsLoose (s : List Char) : Prop :=
  AfterOpen (fun after => after.head? = some ']' ∨ ']' ∉ after) s

/-- What a text can be split into. -/
inductive IsSplit : Segments → Prop
  | rest {p : List Char} (hp : IsLoose p) : IsSplit ⟨p, []⟩
  | tag {p t q : List Char} {tail : List (List Char × List Char)} (hp : IsFlat p) (hNe : t ≠ [])
    (ht : ']' ∉ t) (hRest : IsSplit ⟨q, tail⟩) : IsSplit ⟨p, (t, q) :: tail⟩

variable {P Q : List Char → Prop} {p q s t : List Char}

/-! ### Opening brackets -/

theorem AfterOpen.mono (h : AfterOpen P s) (hImp : ∀ after, P after → Q after) : AfterOpen Q s :=
  fun before after hs => hImp after (h before after hs)

theorem IsFlat.isLoose (h : IsFlat s) : IsLoose s := h.mono fun _ => .inl

theorem afterOpen_of_not_mem (h : '[' ∉ s) : AfterOpen P s := by
  rintro before after rfl
  simp at h

theorem afterOpen_cons {c : Char} : AfterOpen P (c :: s) ↔ (c = '[' → P s) ∧ AfterOpen P s := by
  constructor
  · intro h
    refine ⟨?_, ?_⟩
    · rintro rfl
      exact h [] s rfl
    · rintro before after rfl
      exact h (c :: before) after rfl
  · rintro ⟨hHead, hRest⟩ before after hs
    cases before with
    | nil =>
      obtain ⟨hc, rfl⟩ := List.cons.inj hs
      exact hHead hc
    | cons d before =>
      obtain ⟨-, hs⟩ := List.cons.inj hs
      exact hRest before after hs

/-- What stands before the first bracket does not matter. -/
theorem afterOpen_append (hp : '[' ∉ p) : AfterOpen P (p ++ s) ↔ AfterOpen P s := by
  induction p with
  | nil => exact Iff.rfl
  | cons c cs ih =>
    rw [List.mem_cons, not_or] at hp
    rw [List.cons_append, afterOpen_cons, ih hp.2]
    exact and_iff_right fun hc => absurd hc.symm hp.1

theorem afterOpen_hollow (hp : '[' ∉ p) (hP : P (']' :: s)) :
    AfterOpen P (p ++ '[' :: ']' :: s) ↔ AfterOpen P s := by
  rw [afterOpen_append hp, afterOpen_cons, afterOpen_cons]
  simp [hP]

theorem isFlat_hollow (hp : '[' ∉ p) : IsFlat (p ++ '[' :: ']' :: s) ↔ IsFlat s :=
  afterOpen_hollow (P := fun after => after.head? = some ']') hp rfl

theorem isLoose_hollow (hp : '[' ∉ p) : IsLoose (p ++ '[' :: ']' :: s) ↔ IsLoose s :=
  afterOpen_hollow (P := fun after => after.head? = some ']' ∨ ']' ∉ after) hp (.inl rfl)

theorem not_isFlat_open (hs : s.head? ≠ some ']') : ¬IsFlat (p ++ '[' :: s) :=
  fun h => hs (h p s rfl)

/-! ### The split of a text -/

/-- A split whose plain beginning gets a closed pair of brackets in front. -/
theorem IsSplit.hollow {tail : List (List Char × List Char)} (hp : '[' ∉ p)
    (h : IsSplit ⟨q, tail⟩) : IsSplit ⟨p ++ '[' :: ']' :: q, tail⟩ := by
  cases h with
  | rest hq => exact .rest ((isLoose_hollow hp).mpr hq)
  | tag hq hNe ht hRest => exact .tag ((isFlat_hollow hp).mpr hq) hNe ht hRest

theorem isSplit_ofText (s : List Char) : IsSplit (ofText s) := by
  induction s using bracketInduction with
  | plain s hs =>
    rw [ofText_of_not_mem hs]
    exact .rest (afterOpen_of_not_mem hs)
  | unclosed p s hp hs =>
    rw [ofText_unclosed hp hs]
    refine .rest ((afterOpen_append hp).mpr (afterOpen_cons.mpr ⟨fun _ => .inr hs, ?_⟩))
    rintro before after rfl
    refine .inr fun hMem => hs ?_
    exact List.mem_append_right _ (List.mem_cons_of_mem _ hMem)
  | hollow p s hp ih =>
    rw [ofText_hollow hp]
    exact ih.hollow hp
  | tag p t s hp hNe ht ih =>
    rw [ofText_tag hp hNe ht]
    exact .tag (afterOpen_of_not_mem hp) hNe ht ih

/-- No tag begins in a flat text. -/
theorem ofText_flat_tag (hp : IsFlat p) (hNe : t ≠ []) (ht : ']' ∉ t) (s : List Char) :
    ofText (p ++ '[' :: (t ++ ']' :: s)) = ⟨p, (t, (ofText s).head) :: (ofText s).tail⟩ := by
  induction p using bracketInduction with
  | plain p hOpen => exact ofText_tag hOpen hNe ht s
  | unclosed p q hOpen hq =>
    refine absurd hp (not_isFlat_open fun hHead => hq ?_)
    exact List.mem_of_head? hHead
  | hollow p q hOpen ih =>
    rw [isFlat_hollow hOpen] at hp
    rw [List.append_assoc, List.cons_append, List.cons_append, ofText_hollow hOpen, ih hp]
  | tag p u q hOpen hNeU hu ih =>
    refine absurd hp (not_isFlat_open fun hHead => hu ?_)
    rw [List.head?_append_of_ne_nil u hNeU] at hHead
    exact List.mem_of_head? hHead

theorem ofText_loose (hp : IsLoose p) : ofText p = ⟨p, []⟩ := by
  induction p using bracketInduction with
  | plain p hOpen => exact ofText_of_not_mem hOpen
  | unclosed p q hOpen hq => exact ofText_unclosed hOpen hq
  | hollow p q hOpen ih =>
    rw [isLoose_hollow hOpen] at hp
    rw [ofText_hollow hOpen, ih hp]
  | tag p u q hOpen hNeU hu ih =>
    rcases hp p _ rfl with hHead | hClosed
    · rw [List.head?_append_of_ne_nil u hNeU] at hHead
      exact absurd (List.mem_of_head? hHead) hu
    · exact absurd (List.mem_append_right u List.mem_cons_self) hClosed

/-- A text has one split. -/
theorem IsSplit.ofText_toText {g : Segments} (h : IsSplit g) : ofText g.toText = g := by
  induction h with
  | rest hp =>
    rw [toText, List.flatMap_nil, List.append_nil]
    exact ofText_loose hp
  | @tag p t q tail hp hNe ht hRest ih =>
    have hText : toText ⟨p, (t, q) :: tail⟩ = p ++ '[' :: (t ++ ']' :: toText ⟨q, tail⟩) := by
      simp [toText]
    rw [hText, ofText_flat_tag hp hNe ht, ih]

/-! ### The rules of a split -/

def tags (g : Segments) : List (List Char) := g.tail.map Prod.fst

/-- The plain texts around the tags, one more than there are tags. -/
def plains (g : Segments) : List (List Char) := g.head :: g.tail.map Prod.snd

theorem plains_ne_nil (g : Segments) : g.plains ≠ [] := List.cons_ne_nil _ _

theorem isSplit_iff {g : Segments} :
    IsSplit g ↔ (∀ t ∈ g.tags, t ≠ [] ∧ ']' ∉ t) ∧ (∀ p ∈ g.plains.dropLast, IsFlat p) ∧
      IsLoose (g.plains.getLast g.plains_ne_nil) := by
  obtain ⟨p, tail⟩ := g
  induction tail generalizing p with
  | nil =>
    have hTags : tags ⟨p, []⟩ = [] := rfl
    have hPlains : plains ⟨p, []⟩ = [p] := rfl
    simp only [hTags, hPlains, List.dropLast_singleton, List.getLast_singleton, List.not_mem_nil,
      IsEmpty.forall_iff, implies_true, true_and]
    constructor
    · intro h
      cases h with
      | rest hp => exact hp
    · exact .rest
  | cons segment tail ih =>
    obtain ⟨t, q⟩ := segment
    have hTags : tags ⟨p, (t, q) :: tail⟩ = t :: tags ⟨q, tail⟩ := rfl
    have hPlains : plains ⟨p, (t, q) :: tail⟩ = p :: plains ⟨q, tail⟩ := rfl
    have hRest := plains_ne_nil ⟨q, tail⟩
    simp only [hTags, hPlains, List.dropLast_cons_of_ne_nil hRest, List.getLast_cons hRest,
      List.forall_mem_cons]
    constructor
    · intro h
      cases h with
      | tag hp hNe ht hSplit =>
        obtain ⟨hTags, hFlat, hLoose⟩ := (ih q).mp hSplit
        exact ⟨⟨⟨hNe, ht⟩, hTags⟩, ⟨hp, hFlat⟩, hLoose⟩
    · rintro ⟨⟨⟨hNe, ht⟩, hTags⟩, ⟨hp, hFlat⟩, hLoose⟩
      exact .tag hp hNe ht ((ih q).mpr ⟨hTags, hFlat, hLoose⟩)

/-- A text is split in the one way in which it is put together from tags with something in them that
nothing in them closes, and plain texts in which each opening bracket is closed at once; after the
last tag one may also stay open for good. -/
theorem ofText_eq_iff {s : List Char} {g : Segments} :
    ofText s = g ↔
      g.toText = s ∧ (∀ t ∈ g.tags, t ≠ [] ∧ ']' ∉ t) ∧ (∀ p ∈ g.plains.dropLast, IsFlat p) ∧
        IsLoose (g.plains.getLast g.plains_ne_nil) := by
  rw [← isSplit_iff]
  constructor
  · rintro rfl
    exact ⟨toText_ofText s, isSplit_ofText s⟩
  · rintro ⟨rfl, hSplit⟩
    exact hSplit.ofText_toText

/-! ### Parts of a split -/

/-- A split is taken apart at one of its tags. -/
theorem IsSplit.parts {front back : List (List Char × List Char)}
    (h : IsSplit ⟨p, front ++ (t, q) :: back⟩) :
    IsSplit ⟨p, front⟩ ∧ IsSplit ⟨p, front ++ [(t, [])]⟩ ∧ IsSplit ⟨[], (t, q) :: back⟩ ∧
      IsSplit ⟨q, back⟩ := by
  have hNil : IsSplit ⟨[], []⟩ := .rest (afterOpen_of_not_mem List.not_mem_nil)
  induction front generalizing p with
  | nil =>
    cases h with
    | tag hp hNe ht hRest =>
      exact ⟨.rest hp.isLoose, .tag hp hNe ht hNil,
        .tag (afterOpen_of_not_mem List.not_mem_nil) hNe ht hRest, hRest⟩
  | cons first front ih =>
    cases h with
    | tag hp hNe ht hRest =>
      obtain ⟨hFront, hWith, hBack⟩ := ih hRest
      exact ⟨.tag hp hNe ht hFront, .tag hp hNe ht hWith, hBack⟩

theorem parts_ofText {front back : List (List Char × List Char)}
    (h : (ofText s).tail = front ++ (t, q) :: back) :
    IsSplit ⟨(ofText s).head, front⟩ ∧ IsSplit ⟨(ofText s).head, front ++ [(t, [])]⟩ ∧
      IsSplit ⟨[], (t, q) :: back⟩ ∧ IsSplit ⟨q, back⟩ :=
  IsSplit.parts (h ▸ isSplit_ofText s)

variable {gap : List Char} {tail : List (List Char × List Char)}

/-! ### More text at the ends -/

theorem IsSplit.append_left (hGap : '[' ∉ gap) (h : IsSplit ⟨p, tail⟩) :
    IsSplit ⟨gap ++ p, tail⟩ := by
  cases h with
  | rest hp => exact .rest ((afterOpen_append hGap).mpr hp)
  | tag hp hNe ht hRest => exact .tag ((afterOpen_append hGap).mpr hp) hNe ht hRest

theorem ofText_append_left (hGap : '[' ∉ gap) (s : List Char) :
    ofText (gap ++ s) = ⟨gap ++ (ofText s).head, (ofText s).tail⟩ := by
  have hSplit := (isSplit_ofText s).append_left hGap
  have hText := toText_ofText s
  rw [toText] at hText
  rw [← hSplit.ofText_toText, toText, List.append_assoc, hText]

theorem IsLoose.append_right (hOpen : '[' ∉ gap) (hClose : ']' ∉ gap) (h : IsLoose p) :
    IsLoose (p ++ gap) := by
  intro before after hText
  rcases List.append_eq_append_iff.mp hText with ⟨rest, -, hGap⟩ | ⟨rest, rfl, hRest⟩
  · simp [hGap] at hOpen
  · cases rest with
    | nil =>
      rw [List.nil_append] at hRest
      simp [← hRest] at hOpen
    | cons c rest =>
      obtain ⟨rfl, rfl⟩ := List.cons.inj hRest
      rcases h before rest rfl with hHead | hNone
      · exact .inl (List.mem_head?_append_of_mem_head? hHead)
      · exact .inr (List.mem_append.not.mpr (not_or.mpr ⟨hNone, hClose⟩))

/-- A split with more text at its end. -/
def extend (gap p : List Char) : List (List Char × List Char) → Segments
  | [] => ⟨p ++ gap, []⟩
  | (t, q) :: tail => ⟨p, (t, (extend gap q tail).head) :: (extend gap q tail).tail⟩

theorem IsSplit.extend (hOpen : '[' ∉ gap) (hClose : ']' ∉ gap) {g : Segments} (h : IsSplit g) :
    IsSplit (extend gap g.head g.tail) := by
  induction h with
  | rest hp => exact .rest (hp.append_right hOpen hClose)
  | tag hp hNe ht _ ih => exact .tag hp hNe ht ih

theorem toText_extend (gap p : List Char) (tail : List (List Char × List Char)) :
    toText (extend gap p tail) = toText ⟨p, tail⟩ ++ gap := by
  induction tail generalizing p with
  | nil => simp [extend, toText]
  | cons segment tail ih =>
    obtain ⟨t, q⟩ := segment
    have hRest := ih q
    simp only [toText, List.append_assoc] at hRest
    simp [extend, toText, hRest]

theorem ofText_append_right (hOpen : '[' ∉ gap) (hClose : ']' ∉ gap) (s : List Char) :
    ofText (s ++ gap) = extend gap (ofText s).head (ofText s).tail := by
  have hSplit := (isSplit_ofText s).extend hOpen hClose
  rw [← hSplit.ofText_toText, toText_extend, toText_ofText]

/-! ### Cuts -/

/-- A text is cut at a tag of its split: just before the tag, or just after it. -/
inductive IsCut (s : List Char) : List Char → List Char → Prop
  | before {front back : List (List Char × List Char)} {t q : List Char}
    (h : (ofText s).tail = front ++ (t, q) :: back) :
    IsCut s (toText ⟨(ofText s).head, front⟩) (toText ⟨[], (t, q) :: back⟩)
  | after {front back : List (List Char × List Char)} {t q : List Char}
    (h : (ofText s).tail = front ++ (t, q) :: back) :
    IsCut s (toText ⟨(ofText s).head, front ++ [(t, [])]⟩) (toText ⟨q, back⟩)

theorem IsCut.append {s u v : List Char} (h : IsCut s u v) : u ++ v = s := by
  have hText := toText_ofText s
  cases h with
  | before hTail =>
    rw [toText, hTail] at hText
    simpa [toText] using hText
  | after hTail =>
    rw [toText, hTail] at hText
    simpa [toText] using hText

end Radioplay.Segments

import Radioplay.Proofs.Text.Lines
import Radioplay.Script.Tag

/-! The bracket split, by one equation for each way in which a text can go on from its first
bracket: there is none, nothing closes it, it closes at once, or it opens a tag. What holds in each
of these holds of every text, so the split loses nothing, and no tag is left in what it calls
plain. -/

namespace Radioplay.Segments

open Text

theorem ne_of_not_mem {a : Char} {s : List Char} (h : a ∉ s) : ∀ c ∈ s, (c != a) = true := by
  intro c hc
  rw [bne_iff_ne]
  rintro rfl
  exact h hc

theorem ofText_of_not_mem {s : List Char} (h : '[' ∉ s) : ofText s = ⟨s, []⟩ := by
  have hAll := ne_of_not_mem h
  rw [ofText]
  split
  · rw [List.takeWhile_eq_self_iff.mpr hAll]
  · rename_i hDrop
    rw [List.dropWhile_eq_nil_iff.mpr hAll] at hDrop
    cases hDrop

/-- The split of a text with a bracket in it, by what is between the bracket and the next one that
closes. -/
theorem ofText_append_open {p : List Char} (hp : '[' ∉ p) (inner : List Char) :
    ofText (p ++ '[' :: inner) =
      match inner.dropWhile (· != ']') with
      | [] => ⟨p ++ '[' :: inner, []⟩
      | _ :: after =>
        let content := inner.takeWhile (· != ']')
        let r := ofText after
        if content.isEmpty then ⟨p ++ '[' :: ']' :: r.head, r.tail⟩
        else ⟨p, (content, r.head) :: r.tail⟩ := by
  have hTake := takeWhile_append_cons (p := (· != '[')) (x := '[') (ne_of_not_mem hp) rfl inner
  have hDrop := dropWhile_append_cons (p := (· != '[')) (x := '[') (ne_of_not_mem hp) rfl inner
  rw [ofText]
  split
  · rename_i h
    rw [hDrop] at h
    cases h
  · rename_i h
    rw [hDrop] at h
    cases h
    rw [hTake]
    split
    · rename_i hClose
      rw [hClose]
    · rename_i hClose
      rw [hClose]

theorem ofText_unclosed {p inner : List Char} (hp : '[' ∉ p) (hInner : ']' ∉ inner) :
    ofText (p ++ '[' :: inner) = ⟨p ++ '[' :: inner, []⟩ := by
  rw [ofText_append_open hp, List.dropWhile_eq_nil_iff.mpr (ne_of_not_mem hInner)]

theorem ofText_hollow {p : List Char} (hp : '[' ∉ p) (s : List Char) :
    ofText (p ++ '[' :: ']' :: s) = ⟨p ++ '[' :: ']' :: (ofText s).head, (ofText s).tail⟩ := by
  rw [ofText_append_open hp]
  rfl

theorem ofText_tag {p t : List Char} (hp : '[' ∉ p) (hNe : t ≠ []) (ht : ']' ∉ t) (s : List Char) :
    ofText (p ++ '[' :: (t ++ ']' :: s)) = ⟨p, (t, (ofText s).head) :: (ofText s).tail⟩ := by
  have hTake := takeWhile_append_cons (p := (· != ']')) (x := ']') (ne_of_not_mem ht) rfl s
  have hDrop := dropWhile_append_cons (p := (· != ']')) (x := ']') (ne_of_not_mem ht) rfl s
  rw [ofText_append_open hp, hDrop, hTake]
  exact if_neg (by simpa using hNe)

/-- The four ways to go on from the first bracket of a text. -/
theorem bracketInduction {motive : List Char → Prop} (plain : ∀ s, '[' ∉ s → motive s)
    (unclosed : ∀ p s, '[' ∉ p → ']' ∉ s → motive (p ++ '[' :: s))
    (hollow : ∀ p s, '[' ∉ p → motive s → motive (p ++ '[' :: ']' :: s))
    (tag : ∀ p t s, '[' ∉ p → t ≠ [] → ']' ∉ t → motive s → motive (p ++ '[' :: (t ++ ']' :: s))) :
    ∀ s, motive s := by
  intro s
  induction hn : s.length using Nat.strong_induction_on generalizing s with
  | _ n ih =>
    have hFree {a : Char} {run : List Char} (h : ∀ c ∈ run, (c != a) = true) : a ∉ run := by
      intro ha
      exact absurd (h a ha) (by simp)
    rcases run_cases (· != '[') s with hAll | ⟨p, x, inner, rfl, hp, hx⟩
    · exact plain s (hFree hAll)
    · obtain rfl : x = '[' := by simpa using hx
      rcases run_cases (· != ']') inner with hAll | ⟨t, y, rest, rfl, ht, hy⟩
      · exact unclosed p inner (hFree hp) (hFree hAll)
      · obtain rfl : y = ']' := by simpa using hy
        have hRest : motive rest := by
          refine ih rest.length ?_ rest rfl
          rw [← hn]
          simp only [List.length_append, List.length_cons]
          omega
        cases t with
        | nil => exact hollow p rest (hFree hp) hRest
        | cons c cs =>
          exact tag p (c :: cs) rest (hFree hp) (List.cons_ne_nil c cs) (hFree ht) hRest

/-- The split loses nothing. -/
theorem toText_ofText (s : List Char) : (ofText s).toText = s := by
  induction s using bracketInduction with
  | plain s h =>
    rw [ofText_of_not_mem h, toText]
    exact List.append_nil s
  | unclosed p s hp hs =>
    rw [ofText_unclosed hp hs, toText]
    exact List.append_nil _
  | hollow p s hp ih =>
    rw [ofText_hollow hp, toText, List.append_assoc]
    rw [toText] at ih
    rw [List.cons_append, List.cons_append, ih]
  | tag p t s hp hNe ht ih =>
    rw [ofText_tag hp hNe ht, toText, List.flatMap_cons]
    rw [toText] at ih
    simp only [List.cons_append, List.append_assoc, ih]

theorem tag_of_mem_tail {s t p : List Char} (h : (t, p) ∈ (ofText s).tail) : t ≠ [] ∧ ']' ∉ t := by
  induction s using bracketInduction with
  | plain s hs =>
    rw [ofText_of_not_mem hs] at h
    cases h
  | unclosed p s hp hs =>
    rw [ofText_unclosed hp hs] at h
    cases h
  | hollow p s hp ih =>
    rw [ofText_hollow hp] at h
    exact ih h
  | tag p t s hp hNe ht ih =>
    rw [ofText_tag hp hNe ht, List.mem_cons] at h
    rcases h with ⟨rfl, -⟩ | h
    · exact ⟨hNe, ht⟩
    · exact ih h

/-! ### Plain text -/

/-- Somewhere in a text there is a bracket pair around at least one character. -/
def HasTag (s : List Char) : Prop :=
  ∃ before t after, s = before ++ '[' :: (t ++ ']' :: after) ∧ t ≠ [] ∧ ']' ∉ t

theorem HasTag.of_isInfix {s u : List Char} (h : HasTag s) (hInfix : s <:+: u) : HasTag u := by
  obtain ⟨before, t, after, rfl, hNe, ht⟩ := h
  obtain ⟨left, right, rfl⟩ := hInfix
  exact ⟨left ++ before, t, after ++ right, by simp, hNe, ht⟩

theorem HasTag.close_mem {s : List Char} (h : HasTag s) : ']' ∈ s := by
  obtain ⟨before, t, after, rfl, -⟩ := h
  simp

theorem HasTag.of_cons {c : Char} {s : List Char} (h : HasTag (c :: s)) :
    HasTag s ∨ c = '[' ∧ ∃ t after, s = t ++ ']' :: after ∧ t ≠ [] ∧ ']' ∉ t := by
  obtain ⟨before, t, after, hEq, hNe, ht⟩ := h
  cases before with
  | nil =>
    obtain ⟨hc, hs⟩ := List.cons.inj hEq
    exact .inr ⟨hc, t, after, hs, hNe, ht⟩
  | cons d before =>
    obtain ⟨-, hs⟩ := List.cons.inj hEq
    exact .inl ⟨before, t, after, hs, hNe, ht⟩

/-- What stands before the first bracket is in no tag. -/
theorem HasTag.of_append {p s : List Char} (hp : '[' ∉ p) (h : HasTag (p ++ s)) : HasTag s := by
  induction p with
  | nil => exact h
  | cons c cs ih =>
    rw [List.mem_cons, not_or] at hp
    rcases h.of_cons with h | ⟨hc, -⟩
    · exact ih hp.2 h
    · exact absurd hc.symm hp.1

theorem HasTag.of_hollow {s : List Char} (h : HasTag ('[' :: ']' :: s)) : HasTag s := by
  rcases h.of_cons with h | ⟨-, t, after, hEq, hNe, ht⟩
  · rcases h.of_cons with h | ⟨hc, -⟩
    · exact h
    · exact absurd hc (by decide)
  · obtain ⟨c, cs, rfl⟩ := List.exists_cons_of_ne_nil hNe
    obtain ⟨rfl, -⟩ := List.cons.inj hEq
    exact absurd List.mem_cons_self ht

theorem not_hasTag_of_not_mem {p : List Char} (hp : '[' ∉ p) : ¬HasTag p := by
  rintro ⟨before, t, after, rfl, -⟩
  simp at hp

theorem not_hasTag_unclosed {p s : List Char} (hp : '[' ∉ p) (hs : ']' ∉ s) :
    ¬HasTag (p ++ '[' :: s) := by
  intro h
  rcases (h.of_append hp).of_cons with h | ⟨-, t, after, rfl, -⟩
  · exact hs h.close_mem
  · simp at hs

/-- No tag is left in what the split calls plain. -/
theorem plain_not_hasTag (s : List Char) :
    ¬HasTag (ofText s).head ∧ ∀ t p, (t, p) ∈ (ofText s).tail → ¬HasTag p := by
  induction s using bracketInduction with
  | plain s hs =>
    rw [ofText_of_not_mem hs]
    exact ⟨not_hasTag_of_not_mem hs, fun _ _ h => absurd h List.not_mem_nil⟩
  | unclosed p s hp hs =>
    rw [ofText_unclosed hp hs]
    exact ⟨not_hasTag_unclosed hp hs, fun _ _ h => absurd h List.not_mem_nil⟩
  | hollow p s hp ih =>
    rw [ofText_hollow hp]
    exact ⟨fun h => ih.1 (h.of_append hp).of_hollow, ih.2⟩
  | tag p t s hp hNe ht ih =>
    rw [ofText_tag hp hNe ht]
    refine ⟨not_hasTag_of_not_mem hp, fun t' p' h => ?_⟩
    rcases List.mem_cons.mp h with h | h
    · cases h
      exact ih.1
    · exact ih.2 t' p' h

/-! ### Parts -/

theorem head_isInfix (s : List Char) : (ofText s).head <:+: s :=
  ⟨[], _, toText_ofText s⟩

theorem tail_isInfix {s t p : List Char} (h : (t, p) ∈ (ofText s).tail) : t <:+: s ∧ p <:+: s := by
  obtain ⟨xs, ys, hTail⟩ := List.append_of_mem h
  have hText := toText_ofText s
  rw [toText, hTail, List.flatMap_append, List.flatMap_cons, ← List.append_assoc] at hText
  generalize (ofText s).head ++ _ = left at hText
  generalize List.flatMap _ ys = right at hText
  constructor
  · exact ⟨left ++ ['['], ']' :: (p ++ right), by simpa using hText⟩
  · exact ⟨left ++ '[' :: (t ++ [']']), right, by simpa using hText⟩

end Radioplay.Segments

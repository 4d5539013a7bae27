import Radioplay.Proofs.Script.Grammar
import Radioplay.Proofs.Script.Splits
import Radioplay.Proofs.Script.Stream

/-! Lines of dialogue that are cut in two. White space at the ends of what is said is lost in any
case, so it does not matter how much of it a line keeps. Between two parts of a line nothing is
carried but the state of the character, and the table of states hands that on from line to line.
So a line that is cut just before or just after one of its tags is read as it was in one piece. -/

namespace Radioplay

open Text

namespace Script

variable {c : String} {state : String} {gap s : List Char}

/-! ### Events of a split -/

/-- The events of a split, and the state in force at its end. -/
def splitEvents (c state : String) (g : Segments) : List Event × String :=
  (plainEvents c state g.head ++ (tailEvents c state g.tail).1, (tailEvents c state g.tail).2)

theorem dialogue_eq_splitEvents (c state : String) (s : List Char) :
    dialogue c state s = splitEvents c state (Segments.ofText s) := rfl

theorem dialogue_toText {g : Segments} (h : Segments.IsSplit g) (c state : String) :
    dialogue c state g.toText = splitEvents c state g := by
  rw [dialogue_eq_splitEvents, h.ofText_toText]

theorem plainEvents_append_left (h : ∀ a ∈ gap, isBlank a = true) (c state : String)
    (s : List Char) : plainEvents c state (gap ++ s) = plainEvents c state s := by
  rw [plainEvents, trim, stripEnds_append_left h, plainEvents, trim]

theorem plainEvents_append_right (h : ∀ a ∈ gap, isBlank a = true) (c state : String)
    (s : List Char) : plainEvents c state (s ++ gap) = plainEvents c state s := by
  rw [plainEvents, trim, stripEnds_append_right h, plainEvents, trim]

theorem splitEvents_extend (h : ∀ a ∈ gap, isBlank a = true) (c state : String) (p : List Char)
    (tail : List (List Char × List Char)) :
    splitEvents c state (Segments.extend gap p tail) = splitEvents c state ⟨p, tail⟩ := by
  induction tail generalizing p state with
  | nil => rw [splitEvents, Segments.extend, plainEvents_append_right h, splitEvents]
  | cons segment tail ih =>
    obtain ⟨t, q⟩ := segment
    have hRest := ih ((Tag.classify t).stateAfter state) q
    rw [splitEvents, splitEvents, Prod.mk.injEq] at hRest
    simp only [splitEvents, Segments.extend, tailEvents, hRest]

/-! ### White space -/

theorem dialogue_append_left (h : ∀ a ∈ gap, isBlank a = true) (c state : String) (s : List Char) :
    dialogue c state (gap ++ s) = dialogue c state s := by
  have hOpen : '[' ∉ gap := fun hMem => absurd (h _ hMem) (by decide)
  rw [dialogue_eq_splitEvents, Segments.ofText_append_left hOpen, splitEvents,
    plainEvents_append_left h]
  rfl

theorem dialogue_append_right (h : ∀ a ∈ gap, isBlank a = true) (c state : String) (s : List Char) :
    dialogue c state (s ++ gap) = dialogue c state s := by
  have hOpen : '[' ∉ gap := fun hMem => absurd (h _ hMem) (by decide)
  have hClose : ']' ∉ gap := fun hMem => absurd (h _ hMem) (by decide)
  rw [dialogue_eq_splitEvents, Segments.ofText_append_right hOpen hClose, splitEvents_extend h]
  rfl

theorem dialogue_trim (c state : String) (s : List Char) :
    dialogue c state (trim s) = dialogue c state s := by
  obtain ⟨left, right, hText, hLeft, hRight⟩ := exists_ends isBlank s
  conv_rhs => rw [hText, dialogue_append_left hLeft, dialogue_append_right hRight]
  rfl

/-- White space at the ends of what is said does not matter. -/
theorem dialogue_congr {s s' : List Char} (h : trim s = trim s') (c state : String) :
    dialogue c state s = dialogue c state s' := by
  rw [← dialogue_trim, h, dialogue_trim]

/-! ### Two parts -/

/-- Events, and those of what is read in the state that they end in. -/
def thenIn (first : List Event × String) (next : String → List Event × String) :
    List Event × String :=
  (first.1 ++ (next first.2).1, (next first.2).2)

theorem tailEvents_append (c state : String) (xs ys : List (List Char × List Char)) :
    tailEvents c state (xs ++ ys) =
      thenIn (tailEvents c state xs) fun after => tailEvents c after ys := by
  induction xs generalizing state with
  | nil => rfl
  | cons segment xs ih =>
    obtain ⟨t, q⟩ := segment
    simp only [List.cons_append, tailEvents, ih, thenIn, List.append_assoc]

/-- A line that is cut at a tag has the events of its parts, of which the second is read in the
state that the first leaves. -/
theorem dialogue_cut {u v : List Char} (h : Segments.IsCut s u v) (c state : String) :
    dialogue c state s =
      thenIn (dialogue c state u) fun after => dialogue c after v := by
  cases h with
  | before hTail =>
    obtain ⟨hFront, -, hTagged, -⟩ := Segments.parts_ofText hTail
    rw [dialogue_eq_splitEvents, splitEvents, hTail, tailEvents_append]
    simp only [dialogue_toText hFront, dialogue_toText hTagged, splitEvents, thenIn,
      plainEvents_nil, List.nil_append, List.append_assoc]
  | after hTail =>
    obtain ⟨-, hTagged, -, hBack⟩ := Segments.parts_ofText hTail
    rw [dialogue_eq_splitEvents, splitEvents, hTail, tailEvents_append]
    simp only [dialogue_toText hTagged, dialogue_toText hBack, splitEvents, tailEvents_append,
      tailEvents, thenIn, plainEvents_nil, List.append_nil, List.append_assoc]

/-! ### Lines -/

/-- A line of dialogue as one writes it. -/
def spoken (character s : List Char) : List Char := character ++ ':' :: ' ' :: s

/-- A line of a character's dialogue, and what is said on it, with all or some of the white space
at its ends or with none. -/
structure Says (row character s : List Char) : Prop where
  part : s <:+: row
  said : ∃ said, Line.ofRaw row = .dialogue character said ∧ trim said = trim s

theorem newline_not_mem_spoken {character s : List Char} (h : IsWord character) (hs : '\n' ∉ s) :
    '\n' ∉ spoken character s := by
  simp [spoken, h.line, hs]

theorem seed?_eq_none_of_ne {character : List Char} (h : IsWord character)
    (hSeed : character ≠ "seed".toList) (said : List Char) :
    Line.seed? (character ++ ':' :: said) = none := by
  unfold Line.seed?
  split
  · rename_i rest hText
    have hTake := takeWhile_append_cons h.2 (x := ':') rfl said
    rw [hText] at hTake
    exact absurd hTake.symm hSeed
  · rfl

/-- What is said on a line is read from it, but for white space at the ends. -/
theorem spoken_says {character s : List Char} (h : IsWord character)
    (hSeed : character ≠ "seed".toList) (hMark : byteOrderMark ∉ s) :
    Says (spoken character s) character s := by
  have hFront : Bare isBlank (character ++ [':']) := by
    refine Bare.append h.1 (List.cons_ne_nil ':' []) ?_ (by rintro c ⟨⟩; decide) []
    exact fun c hc => (Bool.or_eq_false_iff.mp (h.head c hc)).1
  have hUnmarked : byteOrderMark ∉ spoken character s := by
    intro hMem
    rcases List.mem_append.mp hMem with hMem | hMem
    · exact absurd (h.2 _ hMem) (by decide)
    · exact hMark (by simpa [byteOrderMark] using hMem)
  have hCleaned : cleaned (spoken character s) =
      character ++ ':' :: (' ' :: s).rdropWhile isBlank := by
    have hTrim := stripEnds_append_of_bare (by simp) hFront (' ' :: s)
    rw [List.append_assoc, List.append_assoc] at hTrim
    rw [cleaned_of_not_mem hUnmarked]
    exact hTrim
  have hRead : Line.ofRaw (spoken character s) =
      .dialogue character (((' ' :: s).rdropWhile isBlank).dropWhile isSpace) := by
    rw [Line.ofRaw, hCleaned]
    exact classify_dialogue h _ (seed?_eq_none_of_ne h hSeed _)
  refine ⟨⟨character ++ [':', ' '], [], by simp [spoken]⟩, _, hRead, ?_⟩
  rw [trim_dropWhile_isSpace]
  exact (stripEnds_append_rdropWhile [] (' ' :: s)).trans (trim_cons_of_blank (by decide) s)

theorem Says.readLine {row character s : List Char} (h : Says row character s) (r : Reading) :
    readLine r (Line.ofRaw row) =
      let (events, last) :=
        dialogue (String.ofList character) (r.state (String.ofList character)) s
      .ok (events, { r with states := r.states.put (String.ofList character) last }) := by
  obtain ⟨said, hLine, hSame⟩ := h.said
  rw [hLine, Script.readLine, dialogue_congr hSame]

/-- The two parts of a line, on a line each, are read as the line is. -/
theorem readLines_cut {row character s u v : List Char} (hRow : Says row character s)
    (hu : Says (spoken character u) character u) (hv : Says (spoken character v) character v)
    (hCut : Segments.IsCut s u v) (r : Reading) (rest : List Line) :
    readLines r (Line.ofRaw (spoken character u) :: Line.ofRaw (spoken character v) :: rest) =
      readLines r (Line.ofRaw row :: rest) := by
  simp only [readLines, hRow.readLine, hu.readLine, hv.readLine, dialogue_cut hCut, thenIn,
    Reading.state_put, if_true, Table.put_put]
  rcases readLines _ rest with fault | ⟨events, r'⟩
  · rfl
  · simp

theorem Says.isWord {row character s : List Char} (h : Says row character s) (hLine : '\n' ∉ row) :
    IsWord character := by
  obtain ⟨said, hRead, -⟩ := h.said
  have hShaped := Line.ofRaw_isShaped hLine
  rw [hRead] at hShaped
  exact hShaped.1

/-- A line of dialogue without a byte-order mark, of a character that is not named like a seed, is
cut just before or just after any tag of it. The text with the two parts on lines of their own, each
said by the same character, is read to what the whole text is. -/
theorem parse_cut {text row character s u v : List Char} {front back : List (List Char)}
    (hText : lines text = front ++ row :: back) (hSays : Says row character s)
    (hMark : byteOrderMark ∉ row) (hSeed : character ≠ "seed".toList)
    (hCut : Segments.IsCut s u v) :
    u ++ v = s ∧
      parse (unlines (front ++ spoken character u :: spoken character v :: back)) = parse text := by
  have hLines : ∀ l ∈ front ++ row :: back, '\n' ∉ l :=
    fun l hl => newline_not_mem_of_mem_lines (hText ▸ hl)
  simp only [List.forall_mem_append, List.forall_mem_cons] at hLines
  obtain ⟨hFront, hRow, hBack⟩ := hLines
  have hWord := hSays.isWord hRow
  have hWhole := hCut.append
  have hPart {part : List Char} (h : part <:+: s) : part <:+: row := h.trans hSays.part
  have hFirst : u <:+: row := hPart ⟨[], v, hWhole⟩
  have hSecond : v <:+: row := hPart ⟨u, [], by rw [List.append_nil, hWhole]⟩
  have hu := spoken_says hWord hSeed fun hMem => hMark (hFirst.subset hMem)
  have hv := spoken_says hWord hSeed fun hMem => hMark (hSecond.subset hMem)
  have hParts : ∀ l ∈ front ++ spoken character u :: spoken character v :: back, '\n' ∉ l := by
    simp only [List.forall_mem_append, List.forall_mem_cons]
    refine ⟨hFront, ?_, ?_, hBack⟩
    · exact newline_not_mem_spoken hWord fun hMem => hRow (hFirst.subset hMem)
    · exact newline_not_mem_spoken hWord fun hMem => hRow (hSecond.subset hMem)
  refine ⟨hWhole, ?_⟩
  have hRead := readLines_append_congr (readLines_cut hSays hu hv hCut · (back.map Line.ofRaw))
    (front.map Line.ofRaw) .start
  rw [parse, parse, lines_unlines (by simp) hParts, hText]
  simp only [List.map_append, List.map_cons, hRead]

def knotStart : List Char := " a [x[y]".toList

def knotEnd : List Char := " []b [ [...] c]  ".toList

/-- A page around a line with white space at its ends, a tag with a bracket in it, a hollow pair of
brackets and a tag that begins like one in another. -/
def knotPage : List Char :=
  "@park\n mario: ".toList ++ (knotStart ++ knotEnd) ++ "\nmario: d".toList

theorem knot_cut :
    lines knotPage = ["@park".toList] ++ (" mario: ".toList ++ (knotStart ++ knotEnd)) ::
        ["mario: d".toList] ∧
      Says (" mario: ".toList ++ (knotStart ++ knotEnd)) "mario".toList (knotStart ++ knotEnd) ∧
      byteOrderMark ∉ " mario: ".toList ++ (knotStart ++ knotEnd) ∧
      "mario".toList ≠ "seed".toList ∧
      Segments.IsCut (knotStart ++ knotEnd) knotStart knotEnd ∧
      parse (unlines (["@park".toList] ++ spoken "mario".toList knotStart ::
        spoken "mario".toList knotEnd :: ["mario: d".toList])) = parse knotPage := by
  have hText : lines knotPage = ["@park".toList] ++
      (" mario: ".toList ++ (knotStart ++ knotEnd)) :: ["mario: d".toList] := by decide
  have hSays : Says (" mario: ".toList ++ (knotStart ++ knotEnd)) "mario".toList
      (knotStart ++ knotEnd) :=
    ⟨⟨" mario: ".toList, [], rfl⟩, "a [x[y] []b [ [...] c]".toList, by decide, by decide⟩
  have hMark : byteOrderMark ∉ " mario: ".toList ++ (knotStart ++ knotEnd) := by decide
  have hSeed : "mario".toList ≠ "seed".toList := by decide
  have hSplit : Segments.ofText (knotStart ++ knotEnd) =
      ⟨" a ".toList, [("x[y".toList, " []b ".toList), (" [...".toList, " c]  ".toList)]⟩ := by
    with_unfolding_all rfl
  have hTail : (Segments.ofText (knotStart ++ knotEnd)).tail =
      [] ++ ("x[y".toList, " []b ".toList) :: [(" [...".toList, " c]  ".toList)] := by
    rw [hSplit]
    rfl
  have hCut := Segments.IsCut.after hTail
  rw [hSplit] at hCut
  exact ⟨hText, hSays, hMark, hSeed, hCut, (parse_cut hText hSays hMark hSeed hCut).2⟩

end Script

end Radioplay

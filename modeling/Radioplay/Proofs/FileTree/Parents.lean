import Mathlib.Data.List.TakeWhile
import Radioplay.Proofs.FileTree.Names

/-! Paths cut at their last slash. Slashes in a row lead nowhere new, so what comes before the last
of them leads to the folder in which the last part is looked up. -/

namespace Radioplay

namespace Path

variable {path : String}

def slashes (n : ℕ) : String := String.ofList (List.replicate n '/')

/-- The pieces between slashes, as lists of characters. -/
def pieces (cs : List Char) : List (List Char) := cs.foldr splitStep [[]]

theorem components_pieces (path : String) :
    components path = (pieces path.toList).map String.ofList := rfl

theorem pieces_cons_slash (cs : List Char) : pieces ('/' :: cs) = [] :: pieces cs := rfl

theorem pieces_append_slash (as bs : List Char) :
    pieces (as ++ '/' :: bs) = pieces as ++ pieces bs := by
  obtain ⟨q, qs, hBefore, hAll⟩ := foldr_splitStep_append as [] [] (pieces bs)
  have hSlash : ('/' :: bs).foldr splitStep [[]] = [] :: pieces bs := rfl
  rw [List.nil_append] at hAll
  rw [pieces, pieces, List.foldr_append, hSlash, hAll, hBefore, List.cons_append]

theorem pieces_slashes (n : ℕ) (cs : List Char) :
    pieces (List.replicate n '/' ++ cs) = List.replicate n [] ++ pieces cs := by
  induction n with
  | zero => rfl
  | succ n ih =>
    rw [List.replicate_succ, List.cons_append, pieces_cons_slash, ih, List.replicate_succ,
      List.cons_append]

theorem pieces_slash_free {cs : List Char} (h : '/' ∉ cs) : pieces cs = [cs] :=
  foldr_splitStep_slash_free fun _ hc hSlash => h (hSlash ▸ hc)

theorem map_replicate_nil (n : ℕ) :
    (List.replicate n ([] : List Char)).map String.ofList = List.replicate n "" := by
  rw [List.map_replicate]

/-- A list is what is left without the slashes at its end, and those slashes. -/
theorem exists_slashes (cs : List Char) :
    ∃ n, cs = (cs.reverse.dropWhile (· == '/')).reverse ++ List.replicate n '/' := by
  refine ⟨(cs.reverse.takeWhile (· == '/')).length, ?_⟩
  have hRun : cs.reverse.takeWhile (· == '/') =
      List.replicate (cs.reverse.takeWhile (· == '/')).length '/' := by
    rw [List.eq_replicate_iff]
    exact ⟨rfl, fun c hc => by simpa using List.mem_takeWhile_imp hc⟩
  have hSplit := congrArg List.reverse
    (List.takeWhile_append_dropWhile (p := (· == '/')) (l := cs.reverse))
  rw [List.reverse_append, List.reverse_reverse, hRun, List.reverse_replicate] at hSplit
  exact hSplit.symm

/-- Without its slashes at the end a path loses nothing but empty components. -/
theorem components_trimmed (path : String) :
    ∃ n, components path = components (trimmed path) ++ List.replicate n "" := by
  unfold trimmed
  split
  · exact ⟨0, by simp⟩
  · obtain ⟨n, hSplit⟩ := exists_slashes path.toList
    refine ⟨n, ?_⟩
    rw [components_pieces, components_pieces, String.toList_ofList]
    generalize (path.toList.reverse.dropWhile (· == '/')).reverse = body at hSplit
    rw [hSplit]
    cases n with
    | zero => simp
    | succ n =>
      have hBlank := pieces_slashes n []
      rw [List.append_nil] at hBlank
      rw [List.replicate_succ, pieces_append_slash, hBlank, List.map_append, List.map_append,
        map_replicate_nil, List.replicate_succ']
      rfl

/-- What is left of a list without a run at its end does not end with one of the run. -/
theorem getLast?_dropWhile {α : Type} (p : α → Bool) (s : List α) :
    ∀ c ∈ (s.reverse.dropWhile p).reverse.getLast?, p c = false := by
  intro c hc
  have hHead := List.head?_dropWhile_not p s.reverse
  rw [List.getLast?_reverse] at hc
  rw [Option.mem_def.mp hc] at hHead
  exact hHead

/-- A path is cut at its last slash: there is none, there is nothing but slashes before the last
part, or what comes before it is left without the slashes at its end. -/
theorem parent_cases (path : String) :
    '/' ∉ (baseName path).toList ∧
      ((parent path = "" ∧ baseName path = path) ∨
        (∃ n, parent path = slashes (n + 1) ∧ path = slashes (n + 1) ++ baseName path) ∨
        ∃ n, IsClosed (parent path) ∧ path = parent path ++ slashes (n + 1) ++ baseName path) := by
  have hSplit := congrArg List.reverse
    (List.takeWhile_append_dropWhile (p := (· != '/')) (l := path.toList.reverse))
  rw [List.reverse_append, List.reverse_reverse] at hSplit
  generalize hHead : (path.toList.reverse.dropWhile (· != '/')).reverse = head at hSplit
  have hBase : (baseName path).toList = (path.toList.reverse.takeWhile (· != '/')).reverse := by
    rw [baseName, lastPart, String.toList_ofList]
  rw [← hBase] at hSplit
  constructor
  · rw [hBase, List.mem_reverse]
    intro hMem
    have hNot := List.mem_takeWhile_imp hMem
    simp at hNot
  have hEnd : ∀ c ∈ head.getLast?, c = '/' := by
    intro c hc
    rw [← hHead] at hc
    simpa using getLast?_dropWhile (· != '/') path.toList c hc
  unfold parent
  simp only [hHead]
  split
  · rename_i hAll
    have hSlashes : head = List.replicate head.length '/' :=
      List.eq_replicate_iff.mpr ⟨rfl, fun c hc => by simpa using List.all_eq_true.mp hAll c hc⟩
    cases hLength : head.length with
    | zero =>
      have hNil : head = [] := List.length_eq_zero_iff.mp hLength
      rw [hNil, List.nil_append] at hSplit
      exact .inl ⟨by rw [hNil], String.toList_inj.mp hSplit⟩
    | succ n =>
      rw [hLength] at hSlashes
      refine .inr (.inl ⟨n, by rw [hSlashes, slashes], String.toList_inj.mp ?_⟩)
      rw [String.toList_append, slashes, String.toList_ofList, ← hSlashes, hSplit]
  · rename_i hMixed
    obtain ⟨n, hRun⟩ := exists_slashes head
    have hClosed := getLast?_dropWhile (· == '/') head
    generalize (head.reverse.dropWhile (· == '/')).reverse = body at hRun hClosed
    refine .inr (.inr ?_)
    cases n with
    | zero =>
      rw [List.replicate_zero, List.append_nil] at hRun
      cases hLast : head.getLast? with
      | none => exact absurd (by rw [List.getLast?_eq_none_iff.mp hLast]; rfl) hMixed
      | some c =>
        have hOther := hClosed c (hRun ▸ hLast)
        rw [hEnd c hLast] at hOther
        cases hOther
    | succ n =>
      refine ⟨n, ?_, String.toList_inj.mp ?_⟩
      · rw [IsClosed, String.toList_ofList]
        cases hLast : body.getLast? with
        | none =>
          refine absurd (List.all_eq_true.mpr fun c hc => ?_) hMixed
          rw [hRun, List.getLast?_eq_none_iff.mp hLast, List.nil_append] at hc
          simpa using List.eq_of_mem_replicate hc
        | some c => exact ⟨c, rfl, by simpa using hClosed c hLast⟩
      · rw [String.toList_append, String.toList_append, slashes, String.toList_ofList,
          String.toList_ofList, ← hRun, hSplit]

theorem components_slashes_append {last : String} (hLast : '/' ∉ last.toList) (n : ℕ) :
    components (slashes n ++ last) = List.replicate n "" ++ [last] := by
  rw [components_pieces, String.toList_append, slashes, String.toList_ofList, pieces_slashes,
    pieces_slash_free hLast, List.map_append, map_replicate_nil, List.map_singleton,
    String.ofList_toList]

theorem components_slashes (n : ℕ) : components (slashes n) = List.replicate (n + 1) "" := by
  have hNoSlash : '/' ∉ "".toList := by decide
  have hComponents := components_slashes_append hNoSlash n
  rw [String.append_empty, ← List.replicate_succ'] at hComponents
  exact hComponents

theorem isRooted_slashes_append (n : ℕ) (last : String) :
    isRooted (slashes (n + 1) ++ last) = true := by
  rw [isRooted, String.toList_append, slashes, String.toList_ofList]
  rfl

theorem components_append_slashes {base last : String} (hLast : '/' ∉ last.toList) (n : ℕ) :
    components (base ++ slashes (n + 1) ++ last) =
      components base ++ List.replicate n "" ++ [last] := by
  have hText : (base ++ slashes (n + 1) ++ last).toList =
      base.toList ++ '/' :: (List.replicate n '/' ++ last.toList) := by
    rw [String.toList_append, String.toList_append, slashes, String.toList_ofList,
      List.replicate_succ, List.append_assoc, List.cons_append]
  rw [components_pieces, components_pieces, hText, pieces_append_slash, pieces_slashes,
    pieces_slash_free hLast, List.map_append, List.map_append, map_replicate_nil,
    List.map_singleton, String.ofList_toList, List.append_assoc]

theorem IsClosed.ne_empty {base : String} (h : IsClosed base) : base ≠ "" := by
  rintro rfl
  obtain ⟨c, hLast, -⟩ := h
  cases hLast

theorem isRooted_append {base : String} (h : IsClosed base) (rest : String) :
    isRooted (base ++ rest) = isRooted base := by
  obtain ⟨c, hLast, -⟩ := h
  rw [isRooted, isRooted, String.toList_append]
  cases hList : base.toList with
  | nil => simp [hList] at hLast
  | cons d ds => rfl

theorem isRooted_of_slash_free {last : String} (h : '/' ∉ last.toList) : isRooted last = false := by
  rw [isRooted, beq_eq_false_iff_ne]
  exact fun hHead => h (List.mem_of_mem_head? hHead)

theorem under_slash_free {base last : List Char} (hLast : '/' ∉ last) :
    under base last =
      if base.isEmpty || base.getLast? == some '/' then base ++ last else base ++ '/' :: last := by
  have hHead : last.head? ≠ some '/' := fun hHead => hLast (List.mem_of_mem_head? hHead)
  rw [under, if_neg hHead]

/-- A last part without slashes is put after a path with one. -/
theorem join_slash_free {base last : String} (hBase : IsClosed base) (hLast : '/' ∉ last.toList) :
    join base [last] = base ++ slashes (0 + 1) ++ last := by
  obtain ⟨c, hEnd, hc⟩ := hBase
  apply String.toList_inj.mp
  rw [join, List.foldl_cons, List.foldl_nil, String.toList_ofList, under_slash_free hLast, hEnd]
  cases hList : base.toList with
  | nil => simp [hList] at hEnd
  | cons d ds => simp [hc, hList, slashes]

theorem join_slashes {last : String} (hLast : '/' ∉ last.toList) (n : ℕ) :
    join (slashes (n + 1)) [last] = slashes (n + 1) ++ last := by
  apply String.toList_inj.mp
  have hEnd : (List.replicate (n + 1) '/').getLast? = some '/' := by
    rw [List.replicate_succ', List.getLast?_concat]
  rw [join, List.foldl_cons, List.foldl_nil, String.toList_ofList, under_slash_free hLast, slashes,
    String.toList_ofList, hEnd]
  simp

end Path

namespace FileTree

variable {t : FileTree} {place folder here cs : List String} {path : String}

/-! ### Where the parts lead -/

theorem follow_blank (t : FileTree) (here : List String) (h : cs ≠ []) :
    t.follow here ("" :: cs) = t.follow here cs := by
  obtain ⟨c, rest, rfl⟩ := List.exists_cons_of_ne_nil h
  rw [follow]
  cases hHere : t.obstacle? here with
  | some problem => rw [follow, hHere]
  | none => simp

theorem follow_blanks (t : FileTree) (here : List String) (n : ℕ) (h : cs ≠ []) :
    t.follow here (List.replicate n "" ++ cs) = t.follow here cs := by
  induction n with
  | zero => rfl
  | succ n ih => rw [List.replicate_succ, List.cons_append, follow_blank _ _ (by simp [h]), ih]

/-- Blanks at the end lead on from no folder to anywhere else. -/
theorem follow_append_blanks (t : FileTree) (here cs : List String) (n : ℕ)
    (h : t.follow here cs = .ok place) (hFolder : t.node? place = some .folder) :
    t.follow here (cs ++ List.replicate n "") = .ok place := by
  induction n with
  | zero => rwa [List.replicate_zero, List.append_nil]
  | succ n ih =>
    rw [List.replicate_succ', ← List.append_assoc, follow_append, ih]
    simp [Except.bind, follow, obstacle?_eq_none_iff.mpr hFolder]

/-- A last part without slashes is looked up where a path leads that it is put after. -/
theorem follow_append_slashes {base last : String} (hBase : Path.IsClosed base)
    (hLast : '/' ∉ last.toList) (n : ℕ) :
    (t.follow (if Path.isRooted (base ++ Path.slashes (n + 1) ++ last) then root else [])
      (Path.components (base ++ Path.slashes (n + 1) ++ last)) = .ok place) ↔
      ∃ folder, t.follow (if Path.isRooted base then root else []) (Path.components base) =
        .ok folder ∧ t.follow folder [last] = .ok place := by
  have hBlanks (folder : List String) :
      t.follow folder (List.replicate n "" ++ [last]) = t.follow folder [last] :=
    follow_blanks t folder n (List.cons_ne_nil last [])
  rw [Path.components_append_slashes hLast, String.append_assoc, Path.isRooted_append hBase,
    List.append_assoc, follow_append]
  cases t.follow (if Path.isRooted base then root else []) (Path.components base) with
  | error problem => simp [Except.bind]
  | ok folder => simp [Except.bind, hBlanks]

/-- What comes before the last part of a path leads to a folder, in which the last part is looked
up. -/
theorem locate_parent (hParent : Path.parent path ≠ "") (h : t.locate path = .ok place) :
    ∃ folder, t.locate (Path.parent path) = .ok folder ∧ t.node? folder = some .folder ∧
      t.follow folder [Path.baseName path] = .ok place := by
  obtain ⟨-, hSize, hNull, hFollow⟩ := locateBy_ok_iff.mp h
  obtain ⟨hBase, ⟨hEmpty, -⟩ | ⟨n, hSlashes, hPath⟩ | ⟨n, hClosed, hPath⟩⟩ :=
    Path.parent_cases path
  · exact absurd hEmpty hParent
  · -- Nothing but slashes comes before the last part, which is looked up in the root.
    have hComponents := congrArg Path.components hPath
    rw [Path.components_slashes_append hBase] at hComponents
    have hRooted : Path.isRooted path = true := hPath ▸ Path.isRooted_slashes_append n _
    have hRoot : t.node? root = some .folder := rfl
    rw [hComponents, hRooted, if_pos rfl, follow_blanks _ _ _ (by simp)] at hFollow
    refine ⟨root, locateBy_ok_iff.mpr ⟨hParent, ?_, ?_, ?_⟩, hRoot, hFollow⟩
    · rw [hPath, String.utf8ByteSize_append, ← hSlashes] at hSize
      omega
    · rw [hSlashes, Path.slashes, String.toList_ofList]
      intro hMem
      exact absurd (List.eq_of_mem_replicate hMem) (by decide)
    · have hParentRooted := Path.isRooted_slashes_append n ""
      rw [String.append_empty] at hParentRooted
      rw [hSlashes, hParentRooted, if_pos rfl, Path.components_slashes]
      exact follow_append_blanks t root [] _ rfl hRoot
  · rw [hPath, follow_append_slashes hClosed hBase] at hFollow
    obtain ⟨folder, hFolder, hLast⟩ := hFollow
    refine ⟨folder, locateBy_ok_iff.mpr ⟨hParent, ?_, fun hMem => hNull ?_, hFolder⟩,
      (follow_cons_ok_iff.mp hLast).1, hLast⟩
    · rw [hPath, String.utf8ByteSize_append, String.utf8ByteSize_append] at hSize
      omega
    · rw [hPath, String.toList_append, String.toList_append]
      exact List.mem_append_left _ (List.mem_append_left _ hMem)

/-- The last part of a path, put after what comes before it, leads where the path leads. -/
theorem locate_join_parent {place' : List String} (h : t.locate path = .ok place)
    (hJoined : t.locate (Path.join
      (if (Path.parent path).isEmpty then "." else Path.parent path) [Path.baseName path]) =
        .ok place') : place' = place := by
  obtain ⟨-, -, -, hFollow⟩ := locateBy_ok_iff.mp h
  obtain ⟨-, -, -, hFollow'⟩ := locateBy_ok_iff.mp hJoined
  obtain ⟨hBase, ⟨hEmpty, hName⟩ | ⟨n, hSlashes, hPath⟩ | ⟨n, hClosed, hPath⟩⟩ :=
    Path.parent_cases path
  · -- There is no slash, and the dot put before the name leads nowhere else.
    have hDot : Path.IsClosed "." := ⟨'.', rfl, by decide⟩
    have hHere : t.follow (if Path.isRooted "." then root else []) (Path.components ".") = .ok [] :=
      rfl
    have hComponents : Path.components path = [path] := by
      rw [Path.components_pieces, Path.pieces_slash_free (hName ▸ hBase), List.map_singleton,
        String.ofList_toList]
    have hDotted : (Path.parent path).isEmpty = true := by rw [hEmpty]; rfl
    rw [hName] at hBase hFollow'
    rw [if_pos hDotted, Path.join_slash_free hDot hBase, follow_append_slashes hDot hBase]
      at hFollow'
    obtain ⟨folder, hFolder, hLast⟩ := hFollow'
    obtain rfl : folder = [] := Except.ok.inj (hFolder.symm.trans hHere)
    rw [Path.isRooted_of_slash_free hBase, hComponents] at hFollow
    exact Except.ok.inj (hLast.symm.trans hFollow)
  · have hNe : (Path.slashes (n + 1)).isEmpty = false := by
      rw [← Bool.not_eq_true, String.isEmpty_iff]
      exact fun hEq => absurd (congrArg String.toList hEq) (by simp [Path.slashes])
    rw [hSlashes, hNe, if_neg Bool.false_ne_true, Path.join_slashes hBase, ← hPath] at hJoined
    exact Except.ok.inj (hJoined.symm.trans h)
  · have hNe : (Path.parent path).isEmpty = false := by
      rw [← Bool.not_eq_true, String.isEmpty_iff]
      exact hClosed.ne_empty
    rw [hNe, if_neg Bool.false_ne_true, Path.join_slash_free hClosed hBase,
      follow_append_slashes hClosed hBase] at hFollow'
    rw [hPath, follow_append_slashes hClosed hBase] at hFollow
    obtain ⟨folder, hFolder, hLast⟩ := hFollow
    obtain ⟨folder', hFolder', hLast'⟩ := hFollow'
    obtain rfl : folder' = folder := Except.ok.inj (hFolder'.symm.trans hFolder)
    exact Except.ok.inj (hLast'.symm.trans hLast)

end FileTree

end Radioplay

import Mathlib.Data.List.Basic
import Radioplay.FileTree
import Radioplay.Proofs.Outcome

/-! Paths that are put together from names, and where they lead. A name put after a path with a
slash leads from the folder at the path to the entry of that name, and nowhere else: so what can be
reached is what is listed. -/

namespace Radioplay

/-- Can a file or a folder have this name? -/
def IsName (s : String) : Prop :=
  s ≠ "" ∧ s ≠ "." ∧ s ≠ FileTree.above ∧ s.utf8ByteSize ≤ FileTree.nameLimit ∧
    '/' ∉ s.toList ∧ '\x00' ∉ s.toList

instance (s : String) : Decidable (IsName s) :=
  inferInstanceAs (Decidable (_ ∧ _ ∧ _ ∧ _ ∧ _ ∧ _))

namespace IsName

variable {x : String}

theorem ne_empty (hx : IsName x) : x ≠ "" := hx.1

theorem slash_free (hx : IsName x) : ∀ c ∈ x.toList, c ≠ '/' :=
  fun _ hc hSlash => hx.2.2.2.2.1 (hSlash ▸ hc)

theorem null_free (hx : IsName x) : '\x00' ∉ x.toList := hx.2.2.2.2.2

theorem exists_cons (hx : IsName x) : ∃ c cs, x.toList = c :: cs ∧ c ≠ '/' := by
  cases h : x.toList with
  | nil => exact absurd (String.toList_inj.mp h) hx.ne_empty
  | cons c cs => exact ⟨c, cs, rfl, hx.slash_free c (h ▸ List.mem_cons_self)⟩

end IsName

/-! ### Joined paths -/

namespace Path

/-- Does a path end in something else than a slash, so that a name is put after it with one? -/
def IsClosed (path : String) : Prop := ∃ c, path.toList.getLast? = some c ∧ c ≠ '/'

theorem join_append (base : String) (parts more : List String) :
    join base (parts ++ more) = join (join base parts) more := by
  simp only [join, List.foldl_append, String.toList_ofList]

theorem join_cons (base part : String) (parts : List String) :
    join base (part :: parts) = join (join base [part]) parts := join_append base [part] parts

variable {base x : String}

theorem join_name (hBase : IsClosed base) (hx : IsName x) : join base [x] = base ++ "/" ++ x := by
  obtain ⟨c, hLast, hSlash⟩ := hBase
  obtain ⟨d, ds, hList, hHead⟩ := hx.exists_cons
  apply String.toList_inj.mp
  have hStart : (d :: ds).head? ≠ some '/' := by simpa using hHead
  have hEnd : (base.toList.isEmpty || base.toList.getLast? == some '/') = false := by
    rw [hLast]
    cases h : base.toList with
    | nil => simp [h] at hLast
    | cons => simpa using hSlash
  rw [join, List.foldl_cons, List.foldl_nil, String.toList_ofList, under, hList, if_neg hStart,
    if_neg (by simp [hEnd]), String.toList_append, String.toList_append, hList]
  simp

theorem isClosed_join (base : String) (hx : IsName x) : IsClosed (join base [x]) := by
  obtain ⟨d, ds, hList, hHead⟩ := hx.exists_cons
  have hEnd : ∃ before, (join base [x]).toList = before ++ x.toList := by
    rw [join, List.foldl_cons, List.foldl_nil, String.toList_ofList, under, hList,
      if_neg (by simpa using hHead)]
    split
    · exact ⟨base.toList, rfl⟩
    · exact ⟨base.toList ++ ['/'], by simp⟩
  obtain ⟨before, hEnd⟩ := hEnd
  have hLast : x.toList.getLast? = some ((d :: ds).getLast (List.cons_ne_nil d ds)) := by
    rw [hList, List.getLast?_eq_some_getLast]
  refine ⟨_, ?_, hx.slash_free _ (List.mem_of_getLast? hLast)⟩
  rw [hEnd, List.getLast?_append, hLast, Option.some_or]

theorem isRooted_join (hBase : IsClosed base) (hx : IsName x) :
    isRooted (join base [x]) = isRooted base := by
  rw [join_name hBase hx, isRooted, isRooted]
  obtain ⟨c, hLast, -⟩ := hBase
  cases h : base.toList with
  | nil => simp [h] at hLast
  | cons => simp [h]

/-- A piece between slashes, put before the pieces that follow. -/
def splitStep (c : Char) (parts : List (List Char)) : List (List Char) :=
  if c = '/' then [] :: parts
  else
    match parts with
    | [] => [[c]]
    | p :: ps => (c :: p) :: ps

theorem components_eq (path : String) :
    components path = (path.toList.foldr splitStep [[]]).map String.ofList := rfl

theorem foldr_splitStep_slash_free {cs : List Char} (h : ∀ c ∈ cs, c ≠ '/') :
    cs.foldr splitStep [[]] = [cs] := by
  induction cs with
  | nil => rfl
  | cons c cs ih =>
    rw [List.foldr_cons, ih fun d hd => h d (List.mem_cons_of_mem c hd), splitStep,
      if_neg (h c List.mem_cons_self)]

/-- The pieces of a text change only the first of the pieces after it. -/
theorem foldr_splitStep_append (cs : List Char) (p : List Char) (ps parts : List (List Char)) :
    ∃ q qs, cs.foldr splitStep (p :: ps) = q :: qs ∧
      cs.foldr splitStep (p :: (ps ++ parts)) = q :: (qs ++ parts) := by
  induction cs with
  | nil => exact ⟨p, ps, rfl, rfl⟩
  | cons c cs ih =>
    obtain ⟨q, qs, hFirst, hBoth⟩ := ih
    rw [List.foldr_cons, List.foldr_cons, hFirst, hBoth]
    by_cases hc : c = '/'
    · exact ⟨[], q :: qs, by simp [splitStep, hc], by simp [splitStep, hc]⟩
    · exact ⟨c :: q, qs, by simp [splitStep, hc], by simp [splitStep, hc]⟩

theorem components_join (hBase : IsClosed base) (hx : IsName x) :
    components (join base [x]) = components base ++ [x] := by
  rw [join_name hBase hx, components_eq, components_eq, String.toList_append, String.toList_append,
    List.append_assoc, List.foldr_append]
  have hSlash : ("/".toList ++ x.toList).foldr splitStep [[]] = [[], x.toList] := by
    rw [List.foldr_append, foldr_splitStep_slash_free hx.slash_free]
    rfl
  obtain ⟨q, qs, hBefore, hAll⟩ := foldr_splitStep_append base.toList [] [] [x.toList]
  rw [List.nil_append] at hAll
  rw [hSlash, hBefore, hAll, List.map_cons, List.map_cons, List.map_append, List.map_singleton,
    String.ofList_toList, List.cons_append]

theorem mem_foldr_splitStep {cs p : List Char} (hp : p ∈ cs.foldr splitStep [[]]) :
    ∀ d ∈ p, d ≠ '/' ∧ d ∈ cs := by
  induction cs generalizing p with
  | nil =>
    rw [List.mem_singleton.mp hp]
    exact fun _ h => nomatch h
  | cons c cs ih =>
    rw [List.foldr_cons] at hp
    have hLater {q : List Char} (hq : q ∈ cs.foldr splitStep [[]]) :
        ∀ d ∈ q, d ≠ '/' ∧ d ∈ c :: cs :=
      fun d hd => ⟨(ih hq d hd).1, List.mem_cons_of_mem c (ih hq d hd).2⟩
    obtain ⟨q, qs, hRest, -⟩ := foldr_splitStep_append cs [] [] []
    rw [hRest] at hp hLater
    by_cases hc : c = '/'
    · rw [splitStep, if_pos hc] at hp
      rcases List.mem_cons.mp hp with rfl | hp
      · exact fun _ h => nomatch h
      · exact hLater hp
    · simp only [splitStep, if_neg hc] at hp
      rcases List.mem_cons.mp hp with rfl | hp
      · intro d hd
        rcases List.mem_cons.mp hd with rfl | hd
        · exact ⟨hc, List.mem_cons_self⟩
        · exact hLater List.mem_cons_self d hd
      · exact hLater (List.mem_cons_of_mem q hp)

theorem mem_components {path c : String} (hc : c ∈ components path) :
    ∀ d ∈ c.toList, d ≠ '/' ∧ d ∈ path.toList := by
  rw [components_eq] at hc
  obtain ⟨p, hp, rfl⟩ := List.mem_map.mp hc
  rw [String.toList_ofList]
  exact mem_foldr_splitStep hp

theorem mem_of_mem_trimmed {path : String} {d : Char} (h : d ∈ (trimmed path).toList) :
    d ∈ path.toList := by
  unfold trimmed at h
  split at h
  · exact h
  · rw [String.toList_ofList, List.mem_reverse] at h
    exact List.mem_reverse.mp (List.dropWhile_subset _ h)

theorem components_joins (hBase : IsClosed base) {names : List String}
    (hNames : ∀ x ∈ names, IsName x) :
    components (join base names) = components base ++ names := by
  induction names generalizing base with
  | nil => rw [join, List.foldl_nil, String.ofList_toList, List.append_nil]
  | cons x names ih =>
    have hx := hNames x List.mem_cons_self
    rw [join_cons, ih (isClosed_join base hx) fun y hy => hNames y (List.mem_cons_of_mem x hy),
      components_join hBase hx, List.append_assoc, List.singleton_append]

/-- Names can be read off a path that they were put to. -/
theorem names_eq_of_join_eq (hBase : IsClosed base) {names names' : List String}
    (hNames : ∀ x ∈ names, IsName x) (hNames' : ∀ x ∈ names', IsName x)
    (h : join base names = join base names') : names = names' := by
  have hComponents := congrArg components h
  rw [components_joins hBase hNames, components_joins hBase hNames'] at hComponents
  exact List.append_cancel_left hComponents

end Path

/-! ### Where joined paths lead -/

namespace FileTree

variable {t : FileTree} {base x : String} {place : List String}

theorem follow_append (t : FileTree) (here cs ds : List String) :
    t.follow here (cs ++ ds) = (t.follow here cs).bind fun place => t.follow place ds := by
  induction cs generalizing here with
  | nil => rfl
  | cons c cs ih =>
    rw [List.cons_append, follow, follow]
    cases t.obstacle? here with
    | some problem => rfl
    | none =>
      simp only
      split
      · exact ih here
      · split
        · exact ih _
        · split
          · rfl
          · exact ih _

theorem obstacle?_eq_none_iff : t.obstacle? place = none ↔ t.node? place = some .folder := by
  unfold obstacle?
  split <;> simp_all

/-- Where one component leads from a folder. -/
def stepFrom (here : List String) (c : String) : Except FileProblem (List String) :=
  if c = "" ∨ c = "." then .ok here
  else if c = above then .ok (parentOf here)
  else if nameLimit < c.utf8ByteSize then .error .nameTooLong
  else .ok (here ++ [c])

theorem follow_cons_ok_iff {here cs : List String} {c : String} :
    t.follow here (c :: cs) = .ok place ↔ t.node? here = some .folder ∧
      ∃ next, stepFrom here c = .ok next ∧ t.follow next cs = .ok place := by
  rw [← obstacle?_eq_none_iff, follow]
  cases t.obstacle? here with
  | some problem => simp
  | none =>
    simp only [true_and, stepFrom]
    split
    · simp
    split
    · simp
    split <;> simp

theorem follow_name_ok_iff (hx : IsName x) {here : List String} :
    t.follow here [x] = .ok place ↔ t.node? here = some .folder ∧ place = here ++ [x] := by
  obtain ⟨hEmpty, hDot, hAbove, hSize, -⟩ := hx
  rw [← obstacle?_eq_none_iff, follow]
  cases t.obstacle? here with
  | some problem => simp
  | none => simp [follow, hEmpty, hDot, hAbove, Nat.not_lt.mpr hSize, eq_comm]

theorem locateBy_ok_iff {path : String} {cs : List String} :
    t.locateBy path cs = .ok place ↔ path ≠ "" ∧ path.utf8ByteSize < pathLimit ∧
      '\x00' ∉ path.toList ∧ t.follow (if Path.isRooted path then root else []) cs = .ok place := by
  unfold locateBy
  by_cases hNull : '\x00' ∈ path.toList
  · simp [hNull]
  by_cases hEmpty : path = ""
  · simp [hEmpty, Except.mapError]
  by_cases hSize : pathLimit ≤ path.utf8ByteSize
  · simp [hNull, hEmpty, hSize, Nat.not_lt.mpr hSize, Except.mapError]
  · cases t.follow (if Path.isRooted path then root else []) cs <;>
      simp [hNull, hEmpty, hSize, Nat.not_le.mp hSize, Except.mapError]

/-- A name put after a path leads on from the folder there. -/
theorem locate_join_iff (hBase : Path.IsClosed base) (hx : IsName x) :
    t.locate (Path.join base [x]) = .ok place ↔
      (Path.join base [x]).utf8ByteSize < pathLimit ∧
      ∃ folder, t.locate base = .ok folder ∧ t.node? folder = some .folder ∧
        place = folder ++ [x] := by
  have hNull : '\x00' ∉ (Path.join base [x]).toList ↔ '\x00' ∉ base.toList := by
    rw [Path.join_name hBase hx]
    simp [hx.null_free]
  have hShorter : base.utf8ByteSize < (Path.join base [x]).utf8ByteSize := by
    rw [Path.join_name hBase hx, String.utf8ByteSize_append, String.utf8ByteSize_append]
    have hSlash : "/".utf8ByteSize = 1 := rfl
    omega
  have hEmpty : base ≠ "" := by
    rintro rfl
    obtain ⟨c, hLast, -⟩ := hBase
    simp at hLast
  have hJoined : Path.join base [x] ≠ "" := by
    intro h
    rw [h] at hShorter
    simp at hShorter
  rw [locate, locateBy_ok_iff, hNull, Path.isRooted_join hBase hx, Path.components_join hBase hx,
    follow_append]
  constructor
  · rintro ⟨-, hSize, hNoNull, hFollow⟩
    cases hFolder : t.follow (if Path.isRooted base then root else []) (Path.components base) with
    | error problem => simp [hFolder, Except.bind] at hFollow
    | ok folder =>
      rw [hFolder] at hFollow
      have hBaseSize := Nat.lt_trans hShorter hSize
      exact ⟨hSize, folder, locateBy_ok_iff.mpr ⟨hEmpty, hBaseSize, hNoNull, hFolder⟩,
        (follow_name_ok_iff hx).mp hFollow⟩
  · rintro ⟨hSize, folder, hLocate, hEntry⟩
    obtain ⟨-, -, hNoNull, hFolder⟩ := locateBy_ok_iff.mp hLocate
    refine ⟨hJoined, hSize, hNoNull, ?_⟩
    rw [hFolder]
    exact (follow_name_ok_iff hx).mpr hEntry

/-- The places below a folder are put together as the paths are. -/
theorem locate_joins (hBase : Path.IsClosed base) {names : List String}
    (hNames : ∀ x ∈ names, IsName x) (h : t.locate (Path.join base names) = .ok place) :
    ∃ folder, t.locate base = .ok folder ∧ place = folder ++ names := by
  induction names generalizing base with
  | nil =>
    rw [Path.join, List.foldl_nil, String.ofList_toList] at h
    exact ⟨place, h, (List.append_nil _).symm⟩
  | cons x names ih =>
    have hx := hNames x List.mem_cons_self
    rw [Path.join_cons] at h
    obtain ⟨below, hBelow, rfl⟩ := ih (Path.isClosed_join base hx)
      (fun y hy => hNames y (List.mem_cons_of_mem x hy)) h
    obtain ⟨-, folder, hFolder, -, rfl⟩ := (locate_join_iff hBase hx).mp hBelow
    exact ⟨folder, hFolder, List.append_assoc _ _ _⟩

theorem isFolder_iff {path : String} :
    t.isFolder path = true ↔ ∃ place, t.locate path = .ok place ∧ t.node? place = some .folder := by
  unfold isFolder find?
  cases t.locate path <;> simp

/-- A folder is in a folder. -/
theorem isFolder_of_join (hBase : Path.IsClosed base) (hx : IsName x)
    (h : t.isFolder (Path.join base [x]) = true) : t.isFolder base = true := by
  obtain ⟨place, hLocate, -⟩ := isFolder_iff.mp h
  obtain ⟨-, folder, hFolder, hNode, -⟩ := (locate_join_iff hBase hx).mp hLocate
  exact isFolder_iff.mpr ⟨folder, hFolder, hNode⟩

/-! ### Listed names -/

theorem mem_namesIn {x : String} : x ∈ t.namesIn place ↔ ∃ n, (place ++ [x], n) ∈ t.nodes := by
  rw [namesIn, sorted, List.mem_mergeSort, List.mem_filterMap]
  constructor
  · rintro ⟨⟨p, n⟩, hMem, hName⟩
    simp only at hName
    split at hName
    · rename_i hParent
      refine ⟨n, ?_⟩
      rwa [← hParent.2, List.dropLast_append_getLast? x hName]
    · cases hName
  · rintro ⟨n, hMem⟩
    exact ⟨_, hMem, by simp⟩

theorem sorted_pairwise (names : List String) : (sorted names).Pairwise (· ≤ ·) := by
  have hTrans (a b c : String) (hab : decide (a ≤ b) = true) (hbc : decide (b ≤ c) = true) :
      decide (a ≤ c) = true :=
    decide_eq_true (String.le_trans (of_decide_eq_true hab) (of_decide_eq_true hbc))
  have hTotal (a b : String) : (decide (a ≤ b) || decide (b ≤ a)) = true := by
    simpa using String.le_total a b
  exact (List.pairwise_mergeSort hTrans hTotal names).imp of_decide_eq_true

theorem isGiven_append_name (hx : IsName x) (place : List String) :
    isGiven (place ++ [x]) = false := by
  have hRoot : place ++ [x] ≠ root := by
    intro h
    have hSlash : x = "/" := by simpa [root] using congrArg List.getLast? h
    exact hx.slash_free '/' (by rw [hSlash]; decide) rfl
  have hAbove : (place ++ [x]).all (· == above) = false := by simp [hx.2.2.1]
  simp [isGiven, hRoot, hAbove]

theorem mem_nodes_of_node? {n : Node} (hx : IsName x) (h : t.node? (place ++ [x]) = some n) :
    (place ++ [x], n) ∈ t.nodes := by
  rw [node?, isGiven_append_name hx, if_neg Bool.false_ne_true] at h
  obtain ⟨before, after, hNodes, -⟩ := List.lookup_eq_some_iff.mp h
  rw [hNodes]
  exact List.mem_append_right _ List.mem_cons_self

theorem node?_isSome_of_mem {n : Node} (hx : IsName x) (h : (place ++ [x], n) ∈ t.nodes) :
    (t.node? (place ++ [x])).isSome = true := by
  rw [node?, isGiven_append_name hx, if_neg Bool.false_ne_true, List.lookup_isSome_iff]
  exact ⟨_, h, beq_self_eq_true _⟩

theorem mem_namesAt {path : String} :
    x ∈ t.namesAt path ↔ ∃ folder n, t.locate path = .ok folder ∧ t.node? folder = some .folder ∧
      (folder ++ [x], n) ∈ t.nodes := by
  unfold namesAt
  cases t.locate path with
  | error fault => simp
  | ok folder => by_cases h : t.node? folder = some .folder <;> simp [h, mem_namesIn]

theorem namesAt_of_locate {path : String} (h : t.locate path = .ok place)
    (hNode : t.node? place = some .folder) : t.namesAt path = t.namesIn place := by
  simp only [namesAt, h, if_pos hNode]

theorem namesAt_pairwise (t : FileTree) (path : String) : (t.namesAt path).Pairwise (· ≤ ·) := by
  unfold namesAt
  split
  · split
    · exact sorted_pairwise _
    · exact .nil
  · exact .nil

theorem isFolder_of_mem_namesAt {path : String} (h : x ∈ t.namesAt path) :
    t.isFolder path = true := by
  obtain ⟨folder, _, hLocate, hNode, -⟩ := mem_namesAt.mp h
  exact isFolder_iff.mpr ⟨folder, hLocate, hNode⟩

/-- A folder that a path leads to is listed in the folder it is in. -/
theorem mem_namesAt_of_isFolder (hBase : Path.IsClosed base) (hx : IsName x)
    (h : t.isFolder (Path.join base [x]) = true) : x ∈ t.namesAt base := by
  obtain ⟨place, hLocate, hNode⟩ := isFolder_iff.mp h
  obtain ⟨-, folder, hFolder, hIn, rfl⟩ := (locate_join_iff hBase hx).mp hLocate
  exact mem_namesAt.mpr ⟨folder, .folder, hFolder, hIn, mem_nodes_of_node? hx hNode⟩

/-! ### Trees of names -/

/-- Do all entries of a tree have names? -/
def IsNamed (t : FileTree) : Prop := ∀ folder x n, (folder ++ [x], n) ∈ t.nodes → IsName x

theorem IsNamed.of_mem_namesAt {path : String} (h : t.IsNamed) (hx : x ∈ t.namesAt path) :
    IsName x := by
  obtain ⟨folder, n, -, -, hMem⟩ := mem_namesAt.mp hx
  exact h folder x n hMem

/-- Is there an entry of this name in the folder at a path? -/
def HasEntry (t : FileTree) (path name : String) : Prop :=
  IsName name ∧ ∃ place, t.locate path = .ok place ∧ t.node? place = some .folder ∧
    (t.node? (place ++ [name])).isSome = true

theorem IsNamed.mem_namesAt_iff {path : String} (h : t.IsNamed) :
    x ∈ t.namesAt path ↔ t.HasEntry path x := by
  rw [mem_namesAt]
  constructor
  · rintro ⟨place, n, hLocate, hFolder, hMem⟩
    have hx := h place x n hMem
    exact ⟨hx, place, hLocate, hFolder, node?_isSome_of_mem hx hMem⟩
  · rintro ⟨hx, place, hLocate, hFolder, hSome⟩
    obtain ⟨n, hNode⟩ := Option.isSome_iff_exists.mp hSome
    exact ⟨place, n, hLocate, hFolder, mem_nodes_of_node? hx hNode⟩

theorem isNamed_of_forall (h : ∀ e ∈ t.nodes, ∀ x ∈ e.1.getLast?, IsName x) : t.IsNamed :=
  fun _ x _ hMem => h _ hMem x List.getLast?_concat

theorem isNamed_empty : empty.IsNamed := fun _ _ _ h => nomatch h

/-- Can a path lead to this place? It is given, or below one that is. -/
def IsPlace (place : List String) : Prop :=
  ∃ base names, place = base ++ names ∧ isGiven base = true ∧ ∀ x ∈ names, IsName x

theorem IsPlace.snoc (h : IsPlace place) (hx : IsName x) : IsPlace (place ++ [x]) := by
  obtain ⟨base, names, rfl, hBase, hNames⟩ := h
  refine ⟨base, names ++ [x], List.append_assoc _ _ _, hBase, fun y hy => ?_⟩
  rcases List.mem_append.mp hy with hy | hy
  · exact hNames y hy
  · exact List.mem_singleton.mp hy ▸ hx

theorem IsPlace.isName (h : IsPlace (place ++ [x])) (hGiven : isGiven (place ++ [x]) = false) :
    IsName x := by
  obtain ⟨base, names, hEq, hBase, hNames⟩ := h
  rcases List.eq_nil_or_concat' names with rfl | ⟨init, y, rfl⟩
  · rw [List.append_nil] at hEq
    rw [hEq, hBase] at hGiven
    cases hGiven
  · rw [← List.append_assoc] at hEq
    obtain ⟨-, hLast⟩ := List.append_inj' hEq rfl
    cases hLast
    exact hNames x (List.mem_append_right _ List.mem_cons_self)

/-- The parent of a place is a place: above the given ones, or with a name less. -/
theorem IsPlace.parentOf (h : IsPlace place) : IsPlace (parentOf place) := by
  rw [FileTree.parentOf]
  split
  · exact ⟨root, [], rfl, rfl, fun _ h => nomatch h⟩
  rename_i hRoot
  split
  · rename_i hAbove
    refine ⟨above :: place, [], (List.append_nil _).symm, ?_, fun _ h => nomatch h⟩
    simp [isGiven, hAbove]
  · rename_i hAbove
    obtain ⟨base, names, rfl, hBase, hNames⟩ := h
    rcases List.eq_nil_or_concat' names with rfl | ⟨init, y, rfl⟩
    · simp only [List.append_nil] at hRoot hAbove
      simp [isGiven, hRoot, hAbove] at hBase
    · refine ⟨base, init, ?_, hBase, fun z hz => hNames z (List.mem_append_left _ hz)⟩
      rw [← List.append_assoc, List.dropLast_concat]

theorem follow_isPlace {cs here : List String} (hHere : IsPlace here)
    (hCs : ∀ c ∈ cs, ∀ d ∈ c.toList, d ≠ '/' ∧ d ≠ '\x00') (h : t.follow here cs = .ok place) :
    IsPlace place := by
  induction cs generalizing here with
  | nil =>
    cases h
    exact hHere
  | cons c cs ih =>
    have hRest := fun d hd => hCs d (List.mem_cons_of_mem c hd)
    rw [follow] at h
    split at h
    · cases h
    · split at h
      · exact ih hHere hRest h
      · rename_i hDots
        split at h
        · exact ih hHere.parentOf hRest h
        · rename_i hAbove
          split at h
          · cases h
          · rename_i hSize
            refine ih (hHere.snoc ?_) hRest h
            exact ⟨fun h => hDots (.inl h), fun h => hDots (.inr h), hAbove, Nat.not_lt.mp hSize,
              fun h => (hCs c List.mem_cons_self _ h).1 rfl,
              fun h => (hCs c List.mem_cons_self _ h).2 rfl⟩

theorem mem_put {n : Node} {e : List String × Node} (h : e ∈ (t.put place n).nodes) :
    e ∈ t.nodes ∨ e = (place, n) := by
  unfold put at h
  split at h
  · obtain ⟨old, hOld, rfl⟩ := List.mem_map.mp h
    split
    · exact .inr rfl
    · exact .inl hOld
  · simpa using h

/-- A node put where a path leads, and no folder is, has a name. -/
theorem IsNamed.put {path : String} {cs : List String} {n : Node} (h : t.IsNamed)
    (hCs : ∀ c ∈ cs, ∀ d ∈ c.toList, d ≠ '/' ∧ d ∈ path.toList)
    (hLocate : t.locateBy path cs = .ok place) (hNode : t.node? place ≠ some .folder) :
    (t.put place n).IsNamed := by
  obtain ⟨-, -, hNull, hFollow⟩ := locateBy_ok_iff.mp hLocate
  have hPlace : IsPlace place := by
    refine follow_isPlace ?_ (fun c hc d hd => ⟨(hCs c hc d hd).1, ?_⟩) hFollow
    · exact ⟨_, [], (List.append_nil _).symm, by split <;> rfl, fun _ h => nomatch h⟩
    · rintro rfl
      exact hNull (hCs c hc _ hd).2
  intro folder x m hMem
  rcases mem_put hMem with hMem | hEq
  · exact h folder x m hMem
  · obtain ⟨rfl, -⟩ := Prod.mk.inj hEq
    refine hPlace.isName ?_
    rw [← Bool.not_eq_true]
    intro hGiven
    exact hNode (by rw [node?, if_pos hGiven])

theorem IsNamed.write {path : String} {bytes : List UInt8} {t' : FileTree} (h : t.IsNamed)
    (hWrite : t.write path bytes = .ok t') : t'.IsNamed := by
  unfold FileTree.write at hWrite
  simp only at hWrite
  split at hWrite
  · rename_i hTrimmed
    obtain ⟨place, hLocate, hPut⟩ := bind_eq_ok.mp hWrite
    split at hPut
    · cases hPut
    · rename_i hNode
      cases hPut
      rw [hTrimmed] at hLocate
      exact h.put (fun c => Path.mem_components) hLocate hNode
  · obtain ⟨_, -, hError⟩ := bind_eq_ok.mp hWrite
    cases hError

theorem IsNamed.makeFolder {path : String} {t' : FileTree} (h : t.IsNamed)
    (hMake : t.makeFolder path = .ok t') : t'.IsNamed := by
  obtain ⟨place, hLocate, hPut⟩ := bind_eq_ok.mp hMake
  split at hPut
  · cases hPut
  · rename_i hNode
    cases hPut
    refine h.put (fun c hc d hd => ?_) hLocate (by simp [hNode])
    obtain ⟨hSlash, hMem⟩ := Path.mem_components hc d hd
    exact ⟨hSlash, Path.mem_of_mem_trimmed hMem⟩

theorem IsNamed.delete {path : String} {t' : FileTree} (h : t.IsNamed)
    (hDelete : t.delete path = .ok t') : t'.IsNamed := by
  obtain ⟨place, -, hRest⟩ := bind_eq_ok.mp hDelete
  split at hRest
  · cases hRest
  · cases hRest
  · cases hRest
    exact fun folder x n hMem => h folder x n (List.mem_of_mem_filter hMem)

end FileTree

end Radioplay

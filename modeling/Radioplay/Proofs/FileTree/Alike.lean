import Radioplay.Proofs.FileTree.Folders

/-! Two trees that are alike under a folder. What is found along names from there, and what is
listed, is the same in both, whatever else has been written. -/

namespace Radioplay

namespace Path

/-- A path, where an empty one stands for the current folder. -/
def orHere (path : String) : String := if path.isEmpty then "." else path

theorem orHere_of_ne {path : String} (h : path ≠ "") : orHere path = path := by
  rw [orHere, if_neg (by simpa using h)]

theorem join_ne_empty (base : String) {x : String} (hx : IsName x) : join base [x] ≠ "" := by
  obtain ⟨c, hLast, -⟩ := isClosed_join base hx
  intro hEmpty
  rw [hEmpty] at hLast
  cases hLast

theorem join_empty {x : String} (hx : IsName x) : join "" [x] = x := by
  have hHead : ¬ x.toList.head? = some '/' := fun h =>
    hx.slash_free '/' (List.mem_of_mem_head? h) rfl
  apply String.toList_inj.mp
  rw [join, List.foldl_cons, List.foldl_nil, String.toList_ofList, under, if_neg hHead]
  rfl

/-- After a slash at the end a name is put without another. -/
theorem join_of_slash {base x : String} (hBase : base.toList.getLast? = some '/') (hx : IsName x) :
    join base [x] = base ++ x := by
  have hHead : ¬ x.toList.head? = some '/' := fun h =>
    hx.slash_free '/' (List.mem_of_mem_head? h) rfl
  apply String.toList_inj.mp
  rw [join, List.foldl_cons, List.foldl_nil, String.toList_ofList, under, if_neg hHead, hBase,
    String.toList_append]
  simp

end Path

namespace FileTree

variable {t t' : FileTree} {base path x : String} {place folder : List String}

/-! ### Along names -/

/-- Does a path lead to a folder at this place? -/
def LeadsTo (t : FileTree) (path : String) (place : List String) : Prop :=
  t.locate (Path.orHere path) = .ok place ∧ t.node? place = some .folder

theorem LeadsTo.unique {folder' : List String} (h : t.LeadsTo path folder)
    (h' : t.LeadsTo path folder') : folder' = folder :=
  Except.ok.inj (h'.1.symm.trans h.1)

theorem LeadsTo.of_extends (h : t.LeadsTo path folder) (hGrown : Extends t t') :
    t'.LeadsTo path folder :=
  ⟨hGrown.folders.locate h.1, hGrown.folders folder h.2⟩

theorem ne_empty_of_locate (h : t.locate path = .ok place) : path ≠ "" := (locateBy_ok_iff.mp h).1

theorem leadsTo_iff_of_locate (h : t.locate path = .ok place) :
    t.LeadsTo path folder ↔ folder = place ∧ t.node? place = some .folder := by
  rw [LeadsTo, Path.orHere_of_ne (ne_empty_of_locate h), h]
  constructor
  · rintro ⟨hPlace, hNode⟩
    obtain rfl := Except.ok.inj hPlace
    exact ⟨rfl, hNode⟩
  · rintro ⟨rfl, hNode⟩
    exact ⟨rfl, hNode⟩

theorem follow_blank_ok_iff {here : List String} :
    t.follow here [""] = .ok place ↔ t.node? here = some .folder ∧ place = here := by
  rw [← obstacle?_eq_none_iff, follow]
  cases t.obstacle? here with
  | some problem => simp
  | none =>
    simp only [true_and, true_or, if_true, follow, Except.ok.injEq]
    exact eq_comm

theorem leadsTo_empty_iff : t.LeadsTo "" place ↔ place = [] := by
  have hLocate : t.locate (Path.orHere "") = .ok [] := rfl
  have hNode : t.node? [] = some .folder := rfl
  rw [LeadsTo, hLocate]
  constructor
  · rintro ⟨hPlace, -⟩
    exact (Except.ok.inj hPlace).symm
  · rintro rfl
    exact ⟨rfl, hNode⟩

theorem locate_name_iff (hx : IsName x) : t.locate x = .ok place ↔ place = [x] := by
  have hHere : t.node? [] = some .folder := rfl
  have hShort : x.utf8ByteSize < pathLimit := Nat.lt_of_le_of_lt hx.2.2.2.1 (by decide)
  have hSlash : '/' ∉ x.toList := fun h => hx.slash_free _ h rfl
  have hComponents : Path.components x = [x] := by
    rw [Path.components_pieces, Path.pieces_slash_free hSlash, List.map_singleton,
      String.ofList_toList]
  rw [locate, locateBy_ok_iff, hComponents, Path.isRooted_of_slash_free hSlash]
  simp [hx.ne_empty, hShort, hx.null_free, follow_name_ok_iff hx, hHere]

theorem locate_join_of_slash (hBase : base.toList.getLast? = some '/') (hx : IsName x) :
    t.locate (Path.join base [x]) = .ok place ↔
      (Path.join base [x]).utf8ByteSize < pathLimit ∧
        ∃ folder, t.LeadsTo base folder ∧ place = folder ++ [x] := by
  obtain ⟨cs, hBaseText⟩ := List.getLast?_eq_some_iff.mp hBase
  have hEmpty : base ≠ "" := by
    rintro rfl
    cases hBase
  have hSlash : '/' ∉ x.toList := fun h => hx.slash_free _ h rfl
  have hBefore : Path.components base = (Path.pieces cs).map String.ofList ++ [""] := by
    rw [Path.components_pieces, hBaseText, Path.pieces_append_slash, List.map_append]
    rfl
  have hAfter : Path.components (base ++ x) = (Path.pieces cs).map String.ofList ++ [x] := by
    rw [Path.components_pieces, String.toList_append, hBaseText, List.append_assoc,
      List.singleton_append, Path.pieces_append_slash, Path.pieces_slash_free hSlash,
      List.map_append, List.map_singleton, String.ofList_toList]
  have hRooted : Path.isRooted (base ++ x) = Path.isRooted base := by
    rw [Path.isRooted, Path.isRooted, String.toList_append, hBaseText]
    cases cs <;> rfl
  have hNull : '\x00' ∈ (base ++ x).toList ↔ '\x00' ∈ base.toList := by simp [hx.null_free]
  have hSize : (base ++ x).utf8ByteSize = base.utf8ByteSize + x.utf8ByteSize :=
    String.utf8ByteSize_append
  have hJoined := Path.join_ne_empty base hx
  rw [Path.join_of_slash hBase hx] at hJoined ⊢
  unfold LeadsTo
  rw [Path.orHere_of_ne hEmpty]
  unfold locate
  simp only [locateBy_ok_iff, hBefore, hAfter, hRooted, hNull, follow_append]
  cases t.follow (if Path.isRooted base then root else []) ((Path.pieces cs).map String.ofList) with
  | error problem => simp [Except.bind]
  | ok here =>
    simp only [Except.bind, follow_name_ok_iff hx, follow_blank_ok_iff]
    constructor
    · rintro ⟨-, hShort, hClean, hHere, rfl⟩
      exact ⟨hShort, here, ⟨⟨hEmpty, by omega, hClean, hHere, rfl⟩, hHere⟩, rfl⟩
    · rintro ⟨hShort, folder, ⟨⟨-, -, hClean, hHere, rfl⟩, -⟩, rfl⟩
      exact ⟨hJoined, hShort, hClean, hHere, rfl⟩

/-- A name put after any path leads on from the folder there. -/
theorem locate_below (hx : IsName x) :
    t.locate (Path.join base [x]) = .ok place ↔
      (Path.join base [x]).utf8ByteSize < pathLimit ∧
        ∃ folder, t.LeadsTo base folder ∧ place = folder ++ [x] := by
  cases hLast : base.toList.getLast? with
  | none =>
    obtain rfl : base = "" := String.toList_inj.mp (List.getLast?_eq_none_iff.mp hLast)
    have hShort : x.utf8ByteSize < pathLimit := Nat.lt_of_le_of_lt hx.2.2.2.1 (by decide)
    simp [Path.join_empty hx, locate_name_iff hx, leadsTo_empty_iff, hShort]
  | some c =>
    by_cases hSlash : c = '/'
    · exact locate_join_of_slash (hSlash ▸ hLast) hx
    · have hBase : Path.IsClosed base := ⟨c, hLast, hSlash⟩
      rw [locate_join_iff hBase hx]
      simp only [LeadsTo, Path.orHere_of_ne hBase.ne_empty, and_assoc]

theorem find?_eq_some_iff {n : Node} :
    t.find? path = some n ↔ ∃ place, t.locate path = .ok place ∧ t.node? place = some n := by
  unfold find?
  cases t.locate path <;> simp

/-! ### Alike under a folder -/

/-- Does a path lead to the same folders in two trees, with the same in them? -/
structure AlikeUnder (t t' : FileTree) (path : String) : Prop where
  leads : ∀ place, t'.LeadsTo path place ↔ t.LeadsTo path place
  same : ∀ place, t.LeadsTo path place → ∀ p, place <+: p → t'.node? p = t.node? p

theorem AlikeUnder.locate_iff (h : AlikeUnder t t' base) (hx : IsName x) :
    t'.locate (Path.join base [x]) = .ok place ↔ t.locate (Path.join base [x]) = .ok place := by
  simp only [locate_below hx, h.leads]

theorem AlikeUnder.node?_eq (h : AlikeUnder t t' base) (hx : IsName x)
    (hLocate : t.locate (Path.join base [x]) = .ok place) {p : List String} (hp : place <+: p) :
    t'.node? p = t.node? p := by
  obtain ⟨-, folder, hFolder, rfl⟩ := (locate_below hx).mp hLocate
  exact h.same folder hFolder p ((List.prefix_append folder [x]).trans hp)

theorem AlikeUnder.find?_eq (h : AlikeUnder t t' base) (hx : IsName x) :
    t'.find? (Path.join base [x]) = t.find? (Path.join base [x]) := by
  ext n
  rw [find?_eq_some_iff, find?_eq_some_iff]
  refine exists_congr fun place => ?_
  rw [h.locate_iff hx]
  exact and_congr_right fun hLocate => by rw [h.node?_eq hx hLocate (List.prefix_rfl)]

/-- Trees are alike under a name that leads to the same place in both, with the same below it. -/
theorem alikeUnder_join (hx : IsName x)
    (hLocate : ∀ place,
      t'.locate (Path.join base [x]) = .ok place ↔ t.locate (Path.join base [x]) = .ok place)
    (hSame : ∀ place, t.locate (Path.join base [x]) = .ok place →
      ∀ p, place <+: p → t'.node? p = t.node? p) : AlikeUnder t t' (Path.join base [x]) := by
  constructor
  · intro place
    rw [LeadsTo, LeadsTo, Path.orHere_of_ne (Path.join_ne_empty base hx), hLocate]
    exact and_congr_right fun hPlace => by rw [hSame place hPlace place List.prefix_rfl]
  · rintro place ⟨hPlace, -⟩
    rw [Path.orHere_of_ne (Path.join_ne_empty base hx)] at hPlace
    exact hSame place hPlace

theorem AlikeUnder.join (h : AlikeUnder t t' base) (hx : IsName x) :
    AlikeUnder t t' (Path.join base [x]) :=
  alikeUnder_join hx (fun _ => h.locate_iff hx) fun _ hPlace _ hp => h.node?_eq hx hPlace hp

/-! ### Beside a file -/

section

variable {y : String} {bytes : List UInt8} (h : PutsFile (Path.join base [x]) bytes place t t')
  (hx : IsName x) (hy : IsName y) (hNe : y ≠ x)
include h hx hy

theorem PutsFile.locate_beside {p : List String} :
    t'.locate (Path.join base [y]) = .ok p ↔ t.locate (Path.join base [y]) = .ok p := by
  obtain ⟨-, folder, hFolder, -⟩ := (locate_below hx).mp h.locate_eq
  have hLeads (folder' : List String) : t'.LeadsTo base folder' ↔ t.LeadsTo base folder' := by
    refine ⟨fun hAfter => ?_, fun hBefore => hBefore.of_extends h.extended⟩
    rwa [(hFolder.of_extends h.extended).unique hAfter]
  simp only [locate_below hy, hLeads]

include hNe

/-- A file put in a folder is not below another name there. -/
theorem PutsFile.node?_beside {q p : List String}
    (hLocate : t.locate (Path.join base [y]) = .ok q) (hp : q <+: p) : t'.node? p = t.node? p := by
  obtain ⟨-, folder, hFolder, rfl⟩ := (locate_below hx).mp h.locate_eq
  obtain ⟨-, folder', hFolder', rfl⟩ := (locate_below hy).mp hLocate
  rw [h.node?_eq, if_neg]
  rintro rfl
  rw [hFolder.unique hFolder'] at hp
  have hName := (List.prefix_append_right_inj folder).mp hp
  exact hNe (by simpa using hName)

theorem PutsFile.alikeUnder : AlikeUnder t t' (Path.join base [y]) :=
  alikeUnder_join hy (fun _ => h.locate_beside hx hy) fun _ hLocate _ hp =>
    h.node?_beside hx hy hNe hLocate hp

theorem PutsFile.read_beside {bytes' : List UInt8}
    (hRead : t.read (Path.join base [y]) = .ok bytes') :
    t'.read (Path.join base [y]) = .ok bytes' := by
  obtain ⟨q, hLocate, hNode⟩ := read_eq_ok_iff.mp hRead
  exact read_eq_ok_iff.mpr ⟨q, (h.locate_beside hx hy).mpr hLocate,
    (h.node?_beside hx hy hNe hLocate List.prefix_rfl).trans hNode⟩

end

/-! ### Lists of names -/

/-- The name of a place in a folder. -/
def nameIn? (folder place : List String) : Option String :=
  if place.length = folder.length + 1 ∧ place.dropLast = folder then place.getLast? else none

theorem namesIn_eq (t : FileTree) (place : List String) :
    t.namesIn place = sorted (t.keys.filterMap (nameIn? place)) := by
  rw [namesIn, keys, List.filterMap_map]
  rfl

theorem eq_append_of_nameIn? (h : nameIn? folder place = some x) : place = folder ++ [x] := by
  unfold nameIn? at h
  split at h
  · rename_i hParent
    rw [← hParent.2, List.dropLast_append_getLast? x h]
  · cases h

/-- In a tree that has grown elsewhere a folder lists the same names. -/
theorem Extends.namesIn_eq (h : Extends t t') (hSame : ∀ p, place <+: p → t'.node? p = t.node? p) :
    t'.namesIn place = t.namesIn place := by
  obtain ⟨added, hKeys, hNew⟩ := h.keys_eq
  have hNone : added.filterMap (nameIn? place) = [] := by
    rw [List.filterMap_eq_nil_iff]
    intro p hp
    cases hName : nameIn? place p with
    | none => rfl
    | some x =>
      have hThere : (t'.node? p).isSome = true :=
        node?_isSome_iff.mpr (.inr (by rw [hKeys]; exact List.mem_append_right _ hp))
      have hPrefix : place <+: p := ⟨[x], (eq_append_of_nameIn? hName).symm⟩
      rw [hSame p hPrefix, hNew p hp] at hThere
      cases hThere
  rw [FileTree.namesIn_eq, FileTree.namesIn_eq, hKeys, List.filterMap_append, hNone,
    List.append_nil]

theorem AlikeUnder.namesAt_eq (h : AlikeUnder t t' path) (hGrown : Extends t t')
    (hPath : path ≠ "") : t'.namesAt path = t.namesAt path := by
  have hLeads (t : FileTree) (place : List String) :
      t.LeadsTo path place ↔ t.locate path = .ok place ∧ t.node? place = some .folder := by
    rw [LeadsTo, Path.orHere_of_ne hPath]
  by_cases hFolder : ∃ place, t.LeadsTo path place
  · obtain ⟨place, hPlace⟩ := hFolder
    obtain ⟨hLocate, hNode⟩ := (hLeads t place).mp hPlace
    obtain ⟨hLocate', hNode'⟩ := (hLeads t' place).mp ((h.leads place).mpr hPlace)
    rw [namesAt_of_locate hLocate hNode, namesAt_of_locate hLocate' hNode']
    exact hGrown.namesIn_eq (h.same place hPlace)
  · have hNone (t₁ : FileTree) (hNo : ∀ place, ¬ t₁.LeadsTo path place) : t₁.namesAt path = [] := by
      unfold namesAt
      split
      · rename_i place hLocate
        rw [if_neg fun hNode => hNo place ((hLeads t₁ place).mpr ⟨hLocate, hNode⟩)]
      · rfl
    have hNo (place : List String) : ¬ t.LeadsTo path place := fun hPlace => hFolder ⟨place, hPlace⟩
    rw [hNone t hNo, hNone t' fun place => by rw [h.leads]; exact hNo place]

end FileTree

end Radioplay

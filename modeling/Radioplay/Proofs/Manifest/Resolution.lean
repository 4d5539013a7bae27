import Radioplay.Manifest.Resolve
import Radioplay.Proofs.FileTree.Names

/-! Clips by scanned manifests. A scan lists the folders of characters and states on its way down,
and a clip is looked up in what is listed; both together give the first audio file of one folder,
as if its path had been followed from the start. -/

namespace Radioplay.Manifest

variable {t : FileTree} {assets c s : String}

/-! ### What a scan lists -/

theorem lookup_map_filter {β : Type} (l : List String) (p : String → Bool) (f : String → β)
    (k : String) :
    ((l.filter p).map fun x => (x, f x)).lookup k = if k ∈ l ∧ p k then some (f k) else none := by
  induction l with
  | nil => simp
  | cons x l ih =>
    rw [List.filter_cons]
    by_cases hp : p x = true
    · rw [if_pos hp, List.map_cons, List.lookup_cons, ih]
      by_cases hk : k = x
      · simp [hk, hp]
      · rw [beq_eq_false_iff_ne.mpr hk]
        simp [hk]
    · rw [if_neg hp, ih]
      by_cases hk : k = x
      · simp [hk, hp]
      · simp [hk]

/-- A state of a scan, nothing where the scan has no such state. -/
theorem lookup_scanStates (t : FileTree) (path s : String) :
    (scanStates t path).lookup s =
      if s ∈ t.namesAt path ∧ t.isFolder (Path.join path [s]) then
        some (scanState t (Path.join path [s]))
      else none :=
  lookup_map_filter _ _ _ _

theorem lookup_scanCharacters (t : FileTree) (path c : String) :
    (scanCharacters t path).lookup c =
      if c ∈ t.namesAt path ∧ t.isFolder (Path.join path [c, "states"]) then
        some (.obj [("states", .obj (scanStates t (Path.join path [c, "states"])))])
      else none :=
  lookup_map_filter _ _ _ _

/-! ### What is looked up -/

/-- The path of the first of the audio files of a state. -/
def firstOf (assets c s : String) (files : List String) : Option String :=
  files.head?.map fun name => Path.join assets ["characters", c, "states", s, "audio", name]

theorem firstAudio?_scanState (t : FileTree) (assets c s path : String) :
    firstAudio? assets c s (scanState t path) =
      .ok (firstOf assets c s (filesIn t (Path.join path ["audio"]) audioExtensions)) := by
  rw [scanState, names, firstOf]
  cases filesIn t (Path.join path ["audio"]) audioExtensions <;> rfl

@[simp] theorem fieldOr_obj (fields : Table Value) (key : String) (other : Value) :
    fieldOr (.obj fields) key other = .ok ((fields.lookup key).getD other) := rfl

@[simp] theorem perform_warn (message : String) (log : Warnings) :
    (warn message).perform log = (.ok (), log ++ [message]) := rfl

/-- Nothing is found for a character that is not listed. -/
theorem resolve_unlisted {fields characters : Table Value} {character : String}
    (hCharacters : fields.lookup "characters" = some (.obj characters))
    (hNone : characters.lookup (Text.lower character) = none) (state : String) (log : Warnings) :
    ((resolve (.obj fields) assets character state).perform log).1 = .ok none := by
  simp [resolve, hCharacters, hNone, Act.perform_bind, Act.perform_map, Value.isTruthy]

/-- For a character that is listed, what the state has comes before what the neutral one has. -/
theorem resolve_listed {fields characters states : Table Value} {character state : String}
    {a b : Option String}
    (hCharacters : fields.lookup "characters" = some (.obj characters))
    (hStates : characters.lookup (Text.lower character) = some (.obj [("states", .obj states)]))
    (ha : firstAudio? assets (Text.lower character) (Text.lower state)
      ((states.lookup (Text.lower state)).getD .null) = .ok a)
    (hb : firstAudio? assets (Text.lower character) defaultState
      ((states.lookup defaultState).getD .null) = .ok b) (log : Warnings) :
    ((resolve (.obj fields) assets character state).perform log).1 = .ok (a.or b) := by
  -- the neutral state is not its own fallback, and would add nothing
  have hSame (hState : Text.lower state = defaultState) : b = a := by
    rw [← hState, ha] at hb
    exact (Except.ok.inj hb).symm
  simp only [resolve, fieldOr_obj, hCharacters, hStates, Option.getD_some, Act.perform_bind,
    Act.perform_ofExcept, Value.isTruthy, List.isEmpty_cons, Bool.not_true, Bool.not_false,
    Bool.false_eq_true, if_false, List.lookup_cons_self, ha]
  cases a with
  | some path => rfl
  | none =>
    simp only [Option.none_or]
    by_cases hState : Text.lower state = defaultState
    · rw [hSame hState]
      split <;> simp [hState, Act.perform_bind, Act.perform_map]
    · split <;> cases b <;> simp [hState, hb, Act.perform_bind, Act.perform_map]

/-! ### Both together -/

/-- The audio files that a scan lists for a state. What is no name of an entry, such as `..`, is
listed nowhere, though a path with it may lead somewhere. -/
def audioOf (t : FileTree) (assets c s : String) : List String :=
  if IsName c ∧ IsName s then
    filesIn t (Path.join assets ["characters", c, "states", s, "audio"]) audioExtensions
  else []

theorem mem_audioOf_iff {name : String} :
    name ∈ audioOf t assets c s ↔ (IsName c ∧ IsName s) ∧
      name ∈ t.namesAt (Path.join assets ["characters", c, "states", s, "audio"]) ∧
      hasExtension audioExtensions name = true := by
  unfold audioOf filesIn
  split <;> simp_all

theorem audioOf_of_locate {place : List String} (hc : IsName c) (hs : IsName s)
    (hLocate : t.locate (Path.join assets ["characters", c, "states", s, "audio"]) = .ok place)
    (hNode : t.node? place = some .folder) :
    audioOf t assets c s = (t.namesIn place).filter (hasExtension audioExtensions) := by
  rw [audioOf, if_pos ⟨hc, hs⟩, filesIn, FileTree.namesAt_of_locate hLocate hNode]

theorem isName_characters : IsName "characters" := by decide

theorem isName_states : IsName "states" := by decide

theorem isName_audio : IsName "audio" := by decide

/-- The path of a folder of states, as a scan comes to it. -/
theorem join_states (assets c : String) :
    Path.join (Path.join assets ["characters"]) [c, "states"] =
      Path.join (Path.join (Path.join assets ["characters"]) [c]) ["states"] :=
  Path.join_cons _ _ _

theorem join_audio (assets c s : String) :
    Path.join assets ["characters", c, "states", s, "audio"] =
      Path.join (Path.join (Path.join (Path.join assets ["characters"]) [c, "states"]) [s])
        ["audio"] := by
  simp only [← Path.join_append, List.cons_append, List.nil_append]

/-- A character with a folder of states is listed. -/
theorem character_listed (hc : IsName c)
    (h : t.isFolder (Path.join (Path.join assets ["characters"]) [c, "states"]) = true) :
    c ∈ t.namesAt (Path.join assets ["characters"]) := by
  rw [join_states] at h
  exact FileTree.mem_namesAt_of_isFolder (Path.isClosed_join assets isName_characters) hc
    (FileTree.isFolder_of_join (Path.isClosed_join _ hc) isName_states h)

theorem isClosed_states (assets c : String) :
    Path.IsClosed (Path.join (Path.join assets ["characters"]) [c, "states"]) := by
  rw [join_states]
  exact Path.isClosed_join _ isName_states

/-- A state with audio files is listed, and its character has a folder of states. -/
theorem state_listed {name : String} (h : name ∈ audioOf t assets c s) :
    t.isFolder (Path.join (Path.join assets ["characters"]) [c, "states"]) = true ∧
      s ∈ t.namesAt (Path.join (Path.join assets ["characters"]) [c, "states"]) ∧
      t.isFolder (Path.join (Path.join (Path.join assets ["characters"]) [c, "states"]) [s]) =
        true := by
  obtain ⟨⟨-, hs⟩, hListed, -⟩ := mem_audioOf_iff.mp h
  rw [join_audio] at hListed
  have hAudio := FileTree.isFolder_of_mem_namesAt hListed
  have hClosed := isClosed_states assets c
  have hState := FileTree.isFolder_of_join (Path.isClosed_join _ hs) isName_audio hAudio
  exact ⟨FileTree.isFolder_of_join hClosed hs hState,
    FileTree.mem_namesAt_of_isFolder hClosed hs hState, hState⟩

theorem audioOf_eq_nil_of_unlisted
    (h : (scanCharacters t (Path.join assets ["characters"])).lookup c = none) (s : String) :
    audioOf t assets c s = [] := by
  refine List.eq_nil_iff_forall_not_mem.mpr fun name hName => ?_
  have hc := (mem_audioOf_iff.mp hName).1.1
  obtain ⟨hFolder, -⟩ := state_listed hName
  rw [lookup_scanCharacters, if_pos ⟨character_listed hc hFolder, hFolder⟩] at h
  cases h

/-- What is looked up for a state of a listed character. -/
theorem firstAudio?_scanStates (hNamed : t.IsNamed) (hc : IsName c) (assets s : String) :
    firstAudio? assets c s
      (((scanStates t (Path.join (Path.join assets ["characters"]) [c, "states"])).lookup s).getD
        .null) = .ok (firstOf assets c s (audioOf t assets c s)) := by
  rw [lookup_scanStates]
  split
  · rename_i hListed
    rw [Option.getD_some, firstAudio?_scanState, ← join_audio, audioOf,
      if_pos ⟨hc, hNamed.of_mem_namesAt hListed.1⟩]
  · rename_i hUnlisted
    have hNone : audioOf t assets c s = [] :=
      List.eq_nil_iff_forall_not_mem.mpr fun name hName => hUnlisted (state_listed hName).2
    rw [hNone]
    rfl

/-- The clip by what is listed: the first audio file of the state, else of the neutral one. -/
def clipFor (t : FileTree) (assets c s : String) : Option String :=
  (firstOf assets c s (audioOf t assets c s)).or
    (firstOf assets c defaultState (audioOf t assets c defaultState))

theorem resolve_scanned (hNamed : t.IsNamed) (now assets character state : String)
    (log : Warnings) :
    ((resolve (generate t now assets) assets character state).perform log).1 =
      .ok (clipFor t assets (Text.lower character) (Text.lower state)) := by
  rw [generate, scan]
  cases hCharacter : (scanCharacters t (Path.join assets ["characters"])).lookup
      (Text.lower character) with
  | none =>
    rw [resolve_unlisted rfl hCharacter, clipFor, audioOf_eq_nil_of_unlisted hCharacter,
      audioOf_eq_nil_of_unlisted hCharacter]
    rfl
  | some data =>
    rw [lookup_scanCharacters] at hCharacter
    split at hCharacter
    · rename_i hListed
      have hc := hNamed.of_mem_namesAt hListed.1
      refine resolve_listed rfl ?_ (firstAudio?_scanStates hNamed hc _ _)
        (firstAudio?_scanStates hNamed hc _ _) log
      rw [lookup_scanCharacters, if_pos hListed]
    · cases hCharacter

/-! ### Where a clip is -/

/-- A path of an audio file tells whose it is. -/
theorem names_eq_of_path_eq {name c' s' name' : String} (hc : IsName c) (hs : IsName s)
    (hName : IsName name) (hc' : IsName c') (hs' : IsName s') (hName' : IsName name')
    (h : Path.join assets ["characters", c, "states", s, "audio", name] =
      Path.join assets ["characters", c', "states", s', "audio", name']) :
    c = c' ∧ s = s' ∧ name = name' := by
  rw [Path.join_cons assets "characters" [c, "states", s, "audio", name],
    Path.join_cons assets "characters" [c', "states", s', "audio", name']] at h
  have hParts := Path.names_eq_of_join_eq (Path.isClosed_join assets isName_characters)
    (by simp [hc, hs, hName, isName_states, isName_audio])
    (by simp [hc', hs', hName', isName_states, isName_audio]) h
  simpa using hParts

/-- A path of an entry of the tree, in an audio folder of a character. Paths can be too long to be
opened, though what they lead to is there. -/
structure IsClipOf (t : FileTree) (assets c path : String) : Prop where
  isName : IsName c
  entry : ∃ s name place, IsName s ∧ IsName name ∧
    path = Path.join assets ["characters", c, "states", s, "audio", name] ∧
    t.locate (Path.join assets ["characters"]) = .ok place ∧
    (t.node? (place ++ [c, "states", s, "audio", name])).isSome = true
  exists_of_short : path.utf8ByteSize < FileTree.pathLimit → t.exists? path = true

theorem exists_of_firstOf (hNamed : t.IsNamed) {path : String}
    (h : firstOf assets c s (audioOf t assets c s) = some path) :
    ∃ name, IsName c ∧ IsName s ∧ IsName name ∧
      name ∈ t.namesAt (Path.join assets ["characters", c, "states", s, "audio"]) ∧
      path = Path.join assets ["characters", c, "states", s, "audio", name] := by
  obtain ⟨name, hHead, rfl⟩ := Option.map_eq_some_iff.mp h
  obtain ⟨⟨hc, hs⟩, hListed, -⟩ := mem_audioOf_iff.mp (List.mem_of_head? hHead)
  exact ⟨name, hc, hs, hNamed.of_mem_namesAt hListed, hListed, rfl⟩

theorem isClipOf_of_firstOf (hNamed : t.IsNamed) {path : String}
    (h : firstOf assets c s (audioOf t assets c s) = some path) : IsClipOf t assets c path := by
  obtain ⟨name, hc, hs, hName, hListed, rfl⟩ := exists_of_firstOf hNamed h
  obtain ⟨folder, n, hLocate, hFolder, hMem⟩ := FileTree.mem_namesAt.mp hListed
  have hJoin : Path.join assets ["characters", c, "states", s, "audio", name] =
      Path.join (Path.join assets ["characters", c, "states", s, "audio"]) [name] :=
    Path.join_append assets ["characters", c, "states", s, "audio"] [name]
  have hSome := FileTree.node?_isSome_of_mem hName hMem
  refine ⟨hc, ?_, fun hShort => ?_⟩
  · -- the folder's place, read off its path from the folder of characters on
    rw [Path.join_cons] at hLocate
    have hNames : ∀ x ∈ [c, "states", s, "audio"], IsName x := by
      simp [hc, hs, isName_states, isName_audio]
    obtain ⟨place, hPlace, rfl⟩ :=
      FileTree.locate_joins (Path.isClosed_join assets isName_characters) hNames hLocate
    rw [List.append_assoc] at hSome
    exact ⟨s, name, place, hs, hName, rfl, hPlace, hSome⟩
  · have hClosed : Path.IsClosed (Path.join assets ["characters", c, "states", s, "audio"]) := by
      rw [join_audio]
      exact Path.isClosed_join _ isName_audio
    rw [hJoin] at hShort ⊢
    rw [FileTree.exists?, FileTree.find?,
      (FileTree.locate_join_iff hClosed hName).mpr ⟨hShort, folder, hLocate, hFolder, rfl⟩]
    exact hSome

theorem isClipOf_of_clipFor (hNamed : t.IsNamed) {path : String}
    (h : clipFor t assets c s = some path) : IsClipOf t assets c path := by
  rcases Option.or_eq_some_iff.mp h with h | ⟨-, h⟩
  · exact isClipOf_of_firstOf hNamed h
  · exact isClipOf_of_firstOf hNamed h

/-- A clip is of one character. -/
theorem IsClipOf.character_eq {c' path : String} (h : IsClipOf t assets c path)
    (h' : IsClipOf t assets c' path) : c' = c := by
  obtain ⟨s, name, -, hs, hName, hPath, -⟩ := h.entry
  obtain ⟨s', name', -, hs', hName', hPath', -⟩ := h'.entry
  exact (names_eq_of_path_eq h'.isName hs' hName' h.isName hs hName (hPath'.symm.trans hPath)).1

/-! ### The rule -/

/-- Does a name end, in lower case, in an extension of audio files? -/
def IsAudioName (name : String) : Prop :=
  ∃ e ∈ [".wav", ".mp3", ".ogg"], e.toList <:+ (Text.lower name).toList

/-- The names of the audio files in the folder at a path, in the order of their code points; there
are none where there is no folder. -/
structure IsAudioIn (t : FileTree) (path : String) (files : List String) : Prop where
  mem_iff : ∀ name, name ∈ files ↔ t.HasEntry path name ∧ IsAudioName name
  ordered : files.Pairwise (· ≤ ·)

/-- The audio files of a state of a character: those in its audio folder. A character or a state
whose name is empty, a dot or two, longer than a name can be, or has a slash or a null character in
it, is no folder's, and has none. -/
def IsAudioOf (t : FileTree) (assets c s : String) (files : List String) : Prop :=
  if IsName c ∧ IsName s then
    IsAudioIn t (Path.join assets ["characters", c, "states", s, "audio"]) files
  else files = []

theorem hasExtension_iff {name : String} :
    hasExtension audioExtensions name = true ↔ IsAudioName name := by
  simp only [hasExtension, audioExtensions, IsAudioName, List.any_eq_true,
    List.isSuffixOf_iff_suffix]

theorem isAudioIn_filesIn (hNamed : t.IsNamed) (path : String) :
    IsAudioIn t path (filesIn t path audioExtensions) where
  mem_iff name := by rw [filesIn, List.mem_filter, hNamed.mem_namesAt_iff, hasExtension_iff]
  ordered := (t.namesAt_pairwise path).filter _

theorem isAudioOf_audioOf (hNamed : t.IsNamed) (assets c s : String) :
    IsAudioOf t assets c s (audioOf t assets c s) := by
  unfold IsAudioOf audioOf
  split
  · exact isAudioIn_filesIn hNamed _
  · rfl

theorem first_le {x y : String} {rest : List String} (h : (x :: rest).Pairwise (· ≤ ·))
    (hy : y ∈ x :: rest) : x ≤ y := by
  rcases List.mem_cons.mp hy with rfl | hy
  · exact String.le_refl _
  · exact List.rel_of_pairwise_cons h hy

/-- There is one first audio file at most. -/
theorem IsAudioIn.head?_eq {path : String} {files files' : List String}
    (h : IsAudioIn t path files) (h' : IsAudioIn t path files') : files'.head? = files.head? := by
  have hSame (name : String) : name ∈ files ↔ name ∈ files' :=
    (h.mem_iff name).trans (h'.mem_iff name).symm
  cases files with
  | nil => rw [List.eq_nil_iff_forall_not_mem.mpr fun name => mt (hSame name).mpr List.not_mem_nil]
  | cons x rest =>
    cases files' with
    | nil => cases (hSame x).mp List.mem_cons_self
    | cons y rest' =>
      have hxy : x ≤ y := first_le h.ordered ((hSame y).mpr List.mem_cons_self)
      have hyx : y ≤ x := first_le h'.ordered ((hSame x).mp List.mem_cons_self)
      rw [List.head?_cons, List.head?_cons, String.le_antisymm hxy hyx]

theorem IsAudioOf.head?_eq {files files' : List String} (h : IsAudioOf t assets c s files)
    (h' : IsAudioOf t assets c s files') : files'.head? = files.head? := by
  unfold IsAudioOf at h h'
  split at h
  · rename_i hNames
    rw [if_pos hNames] at h'
    exact h.head?_eq h'
  · rename_i hNone
    rw [if_neg hNone] at h'
    rw [h, h']

/-- By a manifest that has been scanned a clip is found for every character and state: the first
audio file of the state, else of the neutral one, else none. The clip is an entry of the tree, of
the character and of no other. -/
theorem resolve_generate (hNamed : t.IsNamed) (now assets character state : String)
    (log : Warnings) :
    ∃ files neutral,
      IsAudioOf t assets (Text.lower character) (Text.lower state) files ∧
      IsAudioOf t assets (Text.lower character) "neutral" neutral ∧
      ((resolve (generate t now assets) assets character state).perform log).1 =
        .ok ((firstOf assets (Text.lower character) (Text.lower state) files).or
          (firstOf assets (Text.lower character) "neutral" neutral)) ∧
      ∀ path,
        ((resolve (generate t now assets) assets character state).perform log).1 =
          .ok (some path) →
        IsClipOf t assets (Text.lower character) path ∧
        ∀ c, IsClipOf t assets c path → c = Text.lower character := by
  have hResolved := resolve_scanned hNamed now assets character state log
  refine ⟨_, _, isAudioOf_audioOf hNamed _ _ _, isAudioOf_audioOf hNamed _ _ _, hResolved, ?_⟩
  intro path hPath
  rw [hResolved] at hPath
  have hClip := isClipOf_of_clipFor hNamed (Except.ok.inj hPath)
  exact ⟨hClip, fun c h => hClip.character_eq h⟩

/-- Two characters: one with clips in the neutral state, one whose name has a capital letter. -/
def castTree : FileTree :=
  ⟨[(["assets"], .folder), (["assets", "characters"], .folder),
    (["assets", "characters", "luigi"], .folder),
    (["assets", "characters", "luigi", "states"], .folder),
    (["assets", "characters", "luigi", "states", "neutral"], .folder),
    (["assets", "characters", "luigi", "states", "neutral", "audio"], .folder),
    (["assets", "characters", "luigi", "states", "neutral", "audio", "b.mp3"], .file []),
    (["assets", "characters", "luigi", "states", "neutral", "audio", "a.WAV"], .file []),
    (["assets", "characters", "luigi", "states", "neutral", "audio", "a.txt"], .file []),
    (["assets", "characters", "Mario"], .folder),
    (["assets", "characters", "Mario", "states"], .folder),
    (["assets", "characters", "Mario", "states", "happy"], .folder),
    (["assets", "characters", "Mario", "states", "happy", "audio"], .folder),
    (["assets", "characters", "Mario", "states", "happy", "audio", "take1.wav"], .file [])]⟩

theorem castTree_isNamed : castTree.IsNamed := FileTree.isNamed_of_forall (by decide)

theorem castTree_neutral : audioOf castTree "assets" "luigi" "neutral" = ["a.WAV", "b.mp3"] := by
  have hNames : castTree.namesIn ["assets", "characters", "luigi", "states", "neutral", "audio"] =
      ["a.WAV", "a.txt", "b.mp3"] := by
    change FileTree.sorted ["b.mp3", "a.WAV", "a.txt"] = _
    simp [FileTree.sorted, List.mergeSort]
  have hLocate : castTree.locate (Path.join "assets"
      ["characters", "luigi", "states", "neutral", "audio"]) =
        .ok ["assets", "characters", "luigi", "states", "neutral", "audio"] :=
    FileTree.locateBy_ok_iff.mpr ⟨by decide, by decide, by decide, rfl⟩
  rw [audioOf_of_locate (by decide) (by decide) hLocate rfl, hNames]
  decide +kernel

theorem castTree_angry : audioOf castTree "assets" "luigi" "angry" = [] := by
  refine List.eq_nil_iff_forall_not_mem.mpr fun name hName => ?_
  obtain ⟨_, _, hLocate, -⟩ := FileTree.mem_namesAt.mp (mem_audioOf_iff.mp hName).2.1
  have hMissing := (FileTree.locateBy_ok_iff.mp hLocate).2.2.2
  cases hMissing

theorem resolve_luigi : castTree.IsNamed ∧
    ((resolve (generate castTree "now" "assets") "assets" "Luigi" "ANGRY").perform []).1 =
      .ok (some "assets/characters/luigi/states/neutral/audio/a.WAV") := by
  have hLower : Text.lower "Luigi" = "luigi" ∧ Text.lower "ANGRY" = "angry" := by decide +kernel
  refine ⟨castTree_isNamed, ?_⟩
  obtain ⟨files, neutral, hFiles, hNeutral, hResolved, -⟩ :=
    resolve_generate castTree_isNamed "now" "assets" "Luigi" "ANGRY" []
  rw [hLower.1, hLower.2] at hFiles hResolved
  rw [hLower.1] at hNeutral
  have hAngry := hFiles.head?_eq (isAudioOf_audioOf castTree_isNamed _ _ _)
  have hCalm := hNeutral.head?_eq (isAudioOf_audioOf castTree_isNamed _ _ _)
  rw [castTree_angry] at hAngry
  rw [castTree_neutral] at hCalm
  rw [hResolved, firstOf, ← hAngry, firstOf, ← hCalm]
  decide

/-- A folder of states beside that of the characters. -/
def strayTree : FileTree :=
  ⟨[(["assets"], .folder), (["assets", "characters"], .folder), (["assets", "states"], .folder),
    (["assets", "states", "neutral"], .folder), (["assets", "states", "neutral", "audio"], .folder),
    (["assets", "states", "neutral", "audio", "a.wav"], .file [])]⟩

/-- A path leads to the folder, by way of the folder above that of the characters; but a character
of that name is not found. -/
theorem resolve_above :
    strayTree.IsNamed ∧ Text.lower ".." = ".." ∧ Text.lower "neutral" = "neutral" ∧
    IsAudioIn strayTree (Path.join "assets" ["characters", "..", "states", "neutral", "audio"])
      ["a.wav"] ∧
    firstOf "assets" ".." "neutral" ["a.wav"] =
      some "assets/characters/../states/neutral/audio/a.wav" ∧
    ((resolve (generate strayTree "now" "assets") "assets" ".." "neutral").perform []).1 =
      .ok none := by
  have hNamed : strayTree.IsNamed := FileTree.isNamed_of_forall (by decide)
  have hLower : Text.lower ".." = ".." ∧ Text.lower "neutral" = "neutral" := by decide +kernel
  refine ⟨hNamed, hLower.1, hLower.2, ?_, by decide, ?_⟩
  · have hNames : strayTree.namesIn ["assets", "states", "neutral", "audio"] = ["a.wav"] := by
      change FileTree.sorted ["a.wav"] = _
      simp [FileTree.sorted]
    have hLocate : strayTree.locate (Path.join "assets"
        ["characters", "..", "states", "neutral", "audio"]) =
          .ok ["assets", "states", "neutral", "audio"] :=
      FileTree.locateBy_ok_iff.mpr ⟨by decide, by decide, by decide, rfl⟩
    have hFiles := isAudioIn_filesIn hNamed
      (Path.join "assets" ["characters", "..", "states", "neutral", "audio"])
    rw [filesIn, FileTree.namesAt_of_locate hLocate rfl, hNames] at hFiles
    have hAll : ["a.wav"].filter (hasExtension audioExtensions) = ["a.wav"] := by decide +kernel
    rwa [hAll] at hFiles
  · rw [resolve_scanned hNamed, hLower.1, hLower.2]
    rfl

/-! ### Names in other cases -/

/-- Does a scan list these audio files for a state of a character? -/
def Lists (characters : Value) (c s : String) (files : List String) : Prop :=
  ∃ data states stateData, characters.field? c = .ok (some data) ∧
    data.field? "states" = .ok (some states) ∧ states.field? s = .ok (some stateData) ∧
    stateData.field? "audio" = .ok (some (names files))

theorem names_injective {l l' : List String} (h : names l = names l') : l = l' :=
  List.map_injective_iff.mpr (fun _ _ => Value.str.inj) (Value.arr.inj h)

/-- A state with audio files is listed with them. -/
theorem lists_audioOf {name : String} (h : name ∈ audioOf t assets c s) :
    Lists (scan t assets) c s (audioOf t assets c s) := by
  obtain ⟨hNames, -, -⟩ := mem_audioOf_iff.mp h
  obtain ⟨hStates, hListed, hState⟩ := state_listed h
  have hCharacter := lookup_scanCharacters t (Path.join assets ["characters"]) c
  rw [if_pos ⟨character_listed hNames.1 hStates, hStates⟩] at hCharacter
  have hEntry :=
    lookup_scanStates t (Path.join (Path.join assets ["characters"]) [c, "states"]) s
  rw [if_pos ⟨hListed, hState⟩] at hEntry
  refine ⟨_, _, _, congrArg Except.ok hCharacter, rfl, congrArg Except.ok hEntry, ?_⟩
  rw [audioOf, if_pos hNames, join_audio]
  rfl

theorem audioOf_eq_of_lists (hNamed : t.IsNamed) {files : List String}
    (h : Lists (scan t assets) c s files) : IsName c ∧ IsName s ∧ audioOf t assets c s = files := by
  obtain ⟨data, states, stateData, hData, hStates, hState, hAudio⟩ := h
  have hCharacter := Except.ok.inj hData
  rw [lookup_scanCharacters] at hCharacter
  split at hCharacter
  · rename_i hListed
    obtain rfl := Option.some.inj hCharacter
    obtain rfl := Option.some.inj (Except.ok.inj hStates)
    have hEntry := Except.ok.inj hState
    rw [lookup_scanStates] at hEntry
    split at hEntry
    · rename_i hStateListed
      obtain rfl := Option.some.inj hEntry
      have hFiles := names_injective (Option.some.inj (Except.ok.inj hAudio))
      have hc := hNamed.of_mem_namesAt hListed.1
      have hs := hNamed.of_mem_namesAt hStateListed.1
      rw [audioOf, if_pos ⟨hc, hs⟩, join_audio]
      exact ⟨hc, hs, hFiles⟩
    · cases hEntry
  · cases hCharacter

theorem lower_defaultState : Text.lower defaultState = defaultState := by decide +kernel

/-- The first of the listed audio files of a state is found just if the names of the character and
the state are in lower case: a folder whose name has a capital letter is listed and never found. -/
theorem resolve_eq_first_iff (hNamed : t.IsNamed) {name : String} {rest : List String}
    (h : Lists (scan t assets) c s (name :: rest)) (now : String) (log : Warnings) :
    ((resolve (generate t now assets) assets c s).perform log).1 =
        .ok (some (Path.join assets ["characters", c, "states", s, "audio", name])) ↔
      Text.lower c = c ∧ Text.lower s = s := by
  obtain ⟨hc, hs, hFiles⟩ := audioOf_eq_of_lists hNamed h
  have hName : IsName name :=
    hNamed.of_mem_namesAt (mem_audioOf_iff.mp (hFiles ▸ List.mem_cons_self)).2.1
  rw [resolve_scanned hNamed]
  constructor
  · intro hFound
    rcases Option.or_eq_some_iff.mp (Except.ok.inj hFound) with hState | ⟨-, hNeutral⟩
    · obtain ⟨_, hc', hs', hName', -, hPath⟩ := exists_of_firstOf hNamed hState
      obtain ⟨hCharacter, hSame, -⟩ := names_eq_of_path_eq hc hs hName hc' hs' hName' hPath
      exact ⟨hCharacter.symm, hSame.symm⟩
    · -- the fallback can be the state asked for only if that is the neutral one
      obtain ⟨_, hc', hs', hName', -, hPath⟩ := exists_of_firstOf hNamed hNeutral
      obtain ⟨hCharacter, rfl, -⟩ := names_eq_of_path_eq hc hs hName hc' hs' hName' hPath
      exact ⟨hCharacter.symm, lower_defaultState⟩
  · rintro ⟨hLowerC, hLowerS⟩
    rw [hLowerC, hLowerS, clipFor, hFiles]
    rfl

theorem castTree_happy : audioOf castTree "assets" "Mario" "happy" = ["take1.wav"] := by
  have hNames : castTree.namesIn ["assets", "characters", "Mario", "states", "happy", "audio"] =
      ["take1.wav"] := by
    change FileTree.sorted ["take1.wav"] = _
    simp [FileTree.sorted]
  have hLocate : castTree.locate (Path.join "assets"
      ["characters", "Mario", "states", "happy", "audio"]) =
        .ok ["assets", "characters", "Mario", "states", "happy", "audio"] :=
    FileTree.locateBy_ok_iff.mpr ⟨by decide, by decide, by decide, rfl⟩
  rw [audioOf_of_locate (by decide) (by decide) hLocate rfl, hNames]
  decide +kernel

theorem castTree_lists : Lists (scan castTree "assets") "Mario" "happy" ["take1.wav"] := by
  have hFirst : "take1.wav" ∈ audioOf castTree "assets" "Mario" "happy" := by
    rw [castTree_happy]
    exact List.mem_cons_self
  exact castTree_happy ▸ lists_audioOf hFirst

/-- Mario's folder is listed, and Mario is not found. -/
theorem resolve_mario :
    (castTree.IsNamed ∧ Lists (scan castTree "assets") "Mario" "happy" ["take1.wav"]) ∧
    ((resolve (generate castTree "now" "assets") "assets" "Mario" "happy").perform []).1 ≠
      .ok (some "assets/characters/Mario/states/happy/audio/take1.wav") := by
  have hPath : Path.join "assets" ["characters", "Mario", "states", "happy", "audio", "take1.wav"] =
      "assets/characters/Mario/states/happy/audio/take1.wav" := by decide
  have hIff := resolve_eq_first_iff castTree_isNamed castTree_lists "now" []
  rw [hPath] at hIff
  exact ⟨⟨castTree_isNamed, castTree_lists⟩, mt hIff.mp (by decide +kernel)⟩

end Radioplay.Manifest

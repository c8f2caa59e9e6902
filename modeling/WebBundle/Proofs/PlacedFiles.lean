import WebBundle.Proofs.VerbatimNames

namespace WebBundle.Proofs.PlacedFiles

open MemoryStore
open Output (stagingDir)
open WebBundle.Proofs.StagedWrites
open WebBundle.Proofs.StoreRegions
open WebBundle.Proofs.TidyPaths
open WebBundle.Proofs.VerbatimNames

variable {store store' : MemoryStore} {dir : Path} {key start : String} {content : ByteArray}

/-- A key lies below that of a path. -/
def Below (dir : Path) (key : String) : Prop := hasPrefix key (prefixOf (keyOf dir)) = true

instance : Decidable (Below dir key) := inferInstanceAs (Decidable (_ = true))

/-- Moves files, each told by its key and its new key. -/
def moveFiles (moves : List (String × String)) (files : SortedMap ByteArray) :
    SortedMap ByteArray :=
  moves.foldl (fun files move => moveFile files move.1 move.2) files

/-- Moves of stored files to different places, none of which is left by another move. -/
structure Free (moves : List (String × String)) (files : SortedMap ByteArray) : Prop where
  sources : (moves.map Prod.fst).Nodup
  targets : (moves.map Prod.snd).Nodup
  apart : ∀ move ∈ moves, ∀ other ∈ moves, move.2 ≠ other.1
  stored : ∀ move ∈ moves, (files.get? move.1).isSome

section Moves

variable {moves : List (String × String)} {files : SortedMap ByteArray} {source target : String}

theorem Free.get?_moveFile (h : Free ((source, target) :: moves) files) (key : String) :
    (moveFile files source target).get? key =
      if target = key then files.get? source else if key = source then none
        else files.get? key := by
  obtain ⟨content, hcontent⟩ := Option.isSome_iff_exists.mp (h.stored _ List.mem_cons_self)
  rw [moveFile, hcontent, SortedMap.get?_insert, SortedMap.get?_erase]

theorem Free.kept (h : Free ((source, target) :: moves) files) {move : String × String}
    (hmove : move ∈ moves) :
    (moveFile files source target).get? move.1 = files.get? move.1 := by
  have hsource : source ≠ move.1 := fun heq =>
    (List.nodup_cons.mp h.sources).1 (List.mem_map.mpr ⟨move, hmove, heq.symm⟩)
  have htarget : target ≠ move.1 := h.apart _ List.mem_cons_self _ (List.mem_cons_of_mem _ hmove)
  rw [h.get?_moveFile, if_neg htarget, if_neg (Ne.symm hsource)]

theorem Free.tail (h : Free ((source, target) :: moves) files) :
    Free moves (moveFile files source target) where
  sources := (List.nodup_cons.mp h.sources).2
  targets := (List.nodup_cons.mp h.targets).2
  apart := fun move hmove other hother =>
    h.apart move (List.mem_cons_of_mem _ hmove) other (List.mem_cons_of_mem _ hother)
  stored := fun move hmove => by
    rw [h.kept hmove]
    exact h.stored move (List.mem_cons_of_mem _ hmove)

theorem Free.get?_other (h : Free moves files) {key : String}
    (hkey : ∀ move ∈ moves, move.1 ≠ key ∧ move.2 ≠ key) :
    (moveFiles moves files).get? key = files.get? key := by
  induction moves generalizing files with
  | nil => rfl
  | cons first rest ih =>
      obtain ⟨⟨hsource, htarget⟩, hrest⟩ := List.forall_mem_cons.mp hkey
      rw [moveFiles, List.foldl_cons, ← moveFiles, ih h.tail hrest, h.get?_moveFile, if_neg htarget,
        if_neg (Ne.symm hsource)]

theorem Free.get?_target (h : Free moves files) (hmove : (source, target) ∈ moves) :
    (moveFiles moves files).get? target = files.get? source := by
  induction moves generalizing files with
  | nil => exact absurd hmove List.not_mem_nil
  | cons first rest ih =>
      rw [moveFiles, List.foldl_cons, ← moveFiles]
      rcases List.mem_cons.mp hmove with rfl | hrest
      · rw [h.tail.get?_other, h.get?_moveFile, if_pos rfl]
        refine fun other hother =>
          ⟨(h.apart _ hmove _ (List.mem_cons_of_mem _ hother)).symm, fun heq => ?_⟩
        exact (List.nodup_cons.mp h.targets).1 (List.mem_map.mpr ⟨other, hother, heq⟩)
      · rw [ih h.tail hrest, h.kept hrest]

theorem Free.get?_source (h : Free moves files) (hmove : (source, target) ∈ moves) :
    (moveFiles moves files).get? source = none := by
  induction moves generalizing files with
  | nil => exact absurd hmove List.not_mem_nil
  | cons first rest ih =>
      rw [moveFiles, List.foldl_cons, ← moveFiles]
      rcases List.mem_cons.mp hmove with rfl | hrest
      · have htarget : target ≠ source := h.apart _ hmove _ hmove
        rw [h.tail.get?_other, h.get?_moveFile, if_neg htarget, if_pos rfl]
        refine fun other hother =>
          ⟨fun heq => ?_, h.apart _ (List.mem_cons_of_mem _ hother) _ hmove⟩
        exact (List.nodup_cons.mp h.sources).1 (List.mem_map.mpr ⟨other, hother, heq⟩)
      · exact ih h.tail hrest

end Moves

/-- What a list of files puts at a key once it is written to a directory. -/
def placed (dir : Path) (entries : List (String × ByteArray)) (key : String) : Option ByteArray :=
  (entries.find? fun e => keyOf (dir.join ⟨e.1⟩) == key).map (·.2)

/-- File names end the keys of what is below a directory, behind one and the same text. -/
def Trails (dir : Path) (entries : List (String × ByteArray)) (spare : String) : Prop :=
  ∀ e ∈ entries, keyOf (dir.join ⟨e.1⟩) = prefixOf (keyOf dir) ++ spare ++ e.1

/-- File names follow the keys of what is below a directory as they are. -/
def Joins (dir : Path) (entries : List (String × ByteArray)) : Prop :=
  ∀ e ∈ entries, keyOf (dir.join ⟨e.1⟩) = prefixOf (keyOf dir) ++ e.1

section Places

variable {entries : List (String × ByteArray)} {e : String × ByteArray} {source target : Path}
variable {spare : String}

theorem Joins.trails (h : Joins dir entries) : Trails dir entries "" := fun e he => by
  rw [h e he, String.append_empty]

theorem placed_eq_none_iff : placed dir entries key = none ↔
    ∀ e ∈ entries, keyOf (dir.join ⟨e.1⟩) ≠ key := by
  simp [placed]

theorem exists_of_placed (h : placed dir entries key = some content) :
    ∃ e ∈ entries, keyOf (dir.join ⟨e.1⟩) = key ∧ e.2 = content := by
  obtain ⟨e, hfind, rfl⟩ := Option.map_eq_some_iff.mp h
  exact ⟨e, List.mem_of_find?_eq_some hfind, by simpa using List.find?_some hfind, rfl⟩

theorem placed_cons (name : String) (content : ByteArray) (rest : List (String × ByteArray)) :
    placed dir ((name, content) :: rest) key =
      if keyOf (dir.join ⟨name⟩) = key then some content else placed dir rest key := by
  by_cases hkey : keyOf (dir.join ⟨name⟩) = key <;> simp [placed, hkey]

theorem append_injective (start : String) : Function.Injective (start ++ ·) := by
  intro first second heq
  have htext := congrArg String.toList heq
  simp only [String.toList_append] at htext
  exact String.toList_inj.mp (List.append_cancel_left htext)

theorem Joins.nodup (h : Joins dir entries) (hnames : (entries.map Prod.fst).Nodup) :
    (entries.map fun e => keyOf (dir.join ⟨e.1⟩)).Nodup := by
  have hmap : (entries.map fun e => keyOf (dir.join ⟨e.1⟩)) =
      (entries.map Prod.fst).map (prefixOf (keyOf dir) ++ ·) := by
    rw [List.map_map]
    exact List.map_congr_left h
  exact hmap ▸ hnames.map (append_injective _)

theorem placed_of_mem (hkeys : (entries.map fun e => keyOf (dir.join ⟨e.1⟩)).Nodup)
    (he : e ∈ entries) :
    placed dir entries (keyOf (dir.join ⟨e.1⟩)) = some e.2 := by
  induction entries with
  | nil => exact absurd he List.not_mem_nil
  | cons first rest ih =>
      obtain ⟨hfirst, hrest⟩ := List.nodup_cons.mp hkeys
      obtain ⟨name, content⟩ := first
      rw [placed_cons]
      rcases List.mem_cons.mp he with rfl | he
      · exact if_pos rfl
      · rw [if_neg fun heq => hfirst (List.mem_map.mpr ⟨e, he, heq.symm⟩), ih hrest he]

theorem Trails.below (h : Trails dir entries spare) (he : e ∈ entries) :
    Below dir (keyOf (dir.join ⟨e.1⟩)) := by
  rw [Below, h e he, hasPrefix_iff, String.toList_append, String.toList_append, List.append_assoc]
  exact List.prefix_append _ _

theorem Joins.below (h : Joins dir entries) (he : e ∈ entries) :
    Below dir (keyOf (dir.join ⟨e.1⟩)) :=
  h.trails.below he

theorem Trails.below_of_placed (h : Trails dir entries spare)
    (hplaced : (placed dir entries key).isSome) : Below dir key := by
  obtain ⟨content, hcontent⟩ := Option.isSome_iff_exists.mp hplaced
  obtain ⟨e, he, rfl, -⟩ := exists_of_placed hcontent
  exact h.below he

theorem get?_moveFiles_placed {moves : List (String × String)} {files : SortedMap ByteArray}
    (hfree : Free moves files) (hmoves : ∀ move, move ∈ moves ↔
      ∃ e ∈ entries, (keyOf (source.join ⟨e.1⟩), keyOf (target.join ⟨e.1⟩)) = move)
    (hfiles : ∀ key, Below source key → files.get? key = placed source entries key)
    (hsource : Joins source entries) (hnames : (entries.map Prod.fst).Nodup) :
    (moveFiles moves files).get? key =
      (placed target entries key).or (if Below source key then none else files.get? key) := by
  cases hplaced : placed target entries key with
  | some content =>
      obtain ⟨e, he, rfl, rfl⟩ := exists_of_placed hplaced
      have hmove : (keyOf (source.join ⟨e.1⟩), keyOf (target.join ⟨e.1⟩)) ∈ moves :=
        (hmoves _).mpr ⟨e, he, rfl⟩
      rw [Option.some_or, hfree.get?_target hmove, hfiles _ (hsource.below he),
        placed_of_mem (hsource.nodup hnames) he]
  | none =>
      rw [placed_eq_none_iff] at hplaced
      rw [Option.none_or]
      have hother : (∀ e ∈ entries, keyOf (source.join ⟨e.1⟩) ≠ key) →
          (moveFiles moves files).get? key = files.get? key := by
        refine fun hkey => hfree.get?_other fun move hmove => ?_
        obtain ⟨e, he, rfl⟩ := (hmoves move).mp hmove
        dsimp only
        exact ⟨hkey e he, hplaced e he⟩
      by_cases hbelow : Below source key
      · rw [if_pos hbelow]
        cases hstored : placed source entries key with
        | some content =>
            obtain ⟨e, he, rfl, -⟩ := exists_of_placed hstored
            have hmove : (keyOf (source.join ⟨e.1⟩), keyOf (target.join ⟨e.1⟩)) ∈ moves :=
              (hmoves _).mpr ⟨e, he, rfl⟩
            exact hfree.get?_source hmove
        | none => rw [hother (placed_eq_none_iff.mp hstored), hfiles key hbelow, hstored]
      · rw [if_neg hbelow]
        exact hother fun e he heq => hbelow (heq ▸ hsource.below he)

end Places

section Outputs

variable {σ : Type} {fs : FileSystem (StateM σ)} {stored : σ → MemoryStore} {s s' : σ}
variable {entries : List (String × ByteArray)} {source target : Path} {files : OutputFiles}
  {clean : Bool}

theorem writeAll_placed (hfs : Backed fs stored)
    (hkeys : (entries.map fun e => keyOf (dir.join ⟨e.1⟩)).Nodup)
    (h : (Output.writeAll fs dir entries).run s = (.ok (), s')) :
    (stored s').files.get? key = (placed dir entries key).or ((stored s).files.get? key) := by
  induction entries generalizing s with
  | nil =>
      obtain rfl : s = s' := congrArg Prod.snd h
      rfl
  | cons first rest ih =>
      obtain ⟨name, content⟩ := first
      obtain ⟨hfirst, hrest⟩ := List.nodup_cons.mp hkeys
      obtain ⟨result, s₁, hwrite, hresult⟩ := hfs.write (dir.join ⟨name⟩) content s
      rw [Output.writeAll, run_bind_of hwrite] at h
      rcases hresult with ⟨rfl, hstored⟩ | ⟨hresult, -⟩
      · rw [ih hrest h, hstored, get?_write, placed_cons]
        by_cases hkey : keyOf (dir.join ⟨name⟩) = key
        · have hnone : placed dir rest key = none := placed_eq_none_iff.mpr fun e he heq =>
            hfirst (List.mem_map.mpr ⟨e, he, heq.trans hkey.symm⟩)
          rw [hnone, if_pos hkey, if_pos hkey]
          rfl
        · rw [if_neg hkey, if_neg hkey]
      · cases result with
        | ok _ => exact absurd rfl hresult
        | error e => exact absurd (congrArg Prod.fst h) (by simp)

/-- The moves of all files of a list from one directory to another. -/
def movesOf (source target : Path) (names : List String) : List (String × String) :=
  names.map fun name => (keyOf (source.join ⟨name⟩), keyOf (target.join ⟨name⟩))

theorem movesOf_cons (source target : Path) (name : String) (names : List String) :
    movesOf source target (name :: names) =
      (keyOf (source.join ⟨name⟩), keyOf (target.join ⟨name⟩)) :: movesOf source target names := rfl

theorem moveAll_moved (hfs : Backed fs stored) {names : List String}
    (hfree : Free (movesOf source target names) (stored s).files)
    (h : (Output.moveAll fs source target names).run s = (.ok (), s')) :
    (stored s').files = moveFiles (movesOf source target names) (stored s).files := by
  induction names generalizing s with
  | nil =>
      obtain rfl : s = s' := congrArg Prod.snd h
      rfl
  | cons name rest ih =>
      obtain ⟨result, s₁, hrename, hresult⟩ :=
        hfs.rename (source.join ⟨name⟩) (target.join ⟨name⟩) s
      rw [movesOf_cons] at hfree ⊢
      obtain ⟨content, hcontent⟩ := Option.isSome_iff_exists.mp (hfree.stored _ List.mem_cons_self)
      dsimp only at hcontent
      have hfile : (stored s).files.contains (keyOf (source.join ⟨name⟩)) = true :=
        contains_iff.mpr ⟨content, hcontent⟩
      rw [Output.moveAll, run_bind_of hrename] at h
      rw [rename, if_pos hfile] at hresult
      rcases hresult with ⟨e, herror, -⟩ | ⟨hok, rfl⟩
      · exact absurd herror (by simp)
      · have hstored := Except.ok.inj hok
        have hfree' : Free (movesOf source target rest) (stored s₁).files := hstored ▸ hfree.tail
        rw [ih hfree' h, ← hstored, moveFiles, moveFiles, List.foldl_cons]

/-- The moves by which a directory is moved. -/
def movesBelow (source target : Path) (store : MemoryStore) : List (String × String) :=
  (store.below (prefixOf (keyOf source))).map fun e =>
    (e.1, prefixOf (keyOf target) ++ String.ofList (behind e.1 (prefixOf (keyOf source))))

theorem nodup_movesBelow (source target : Path) (store : MemoryStore) :
    ((movesBelow source target store).map Prod.fst).Nodup := by
  rw [movesBelow, List.map_map]
  exact nodup_below

theorem rename_moved (hplain : store.files.get? (keyOf source) = none)
    (h : store.rename source target = .ok store') :
    store'.files = moveFiles (movesBelow source target store) store.files := by
  have hfile : ¬ store.files.contains (keyOf source) = true := fun hcontains => by
    obtain ⟨content, hcontent⟩ := contains_iff.mp hcontains
    exact absurd (hplain.symm.trans hcontent) (by simp)
  rw [rename, if_neg hfile] at h
  dsimp only at h
  split at h
  · exact absurd h (by simp)
  · obtain rfl := Except.ok.inj h
    rw [moveFiles, movesBelow, List.foldl_map]

theorem Trails.name_eq {spare : String} (h : Trails dir entries spare) {e e' : String × ByteArray}
    (he : e ∈ entries) (he' : e' ∈ entries)
    (hkeys : keyOf (dir.join ⟨e.1⟩) = keyOf (dir.join ⟨e'.1⟩)) : e.1 = e'.1 := by
  rw [h e he, h e' he'] at hkeys
  exact append_injective _ hkeys

theorem free_of_trails {moves : List (String × String)} {files : SortedMap ByteArray}
    (hsources : (moves.map Prod.fst).Nodup) (hmoves : ∀ move, move ∈ moves ↔
      ∃ e ∈ entries, (keyOf (source.join ⟨e.1⟩), keyOf (target.join ⟨e.1⟩)) = move)
    (hfiles : ∀ e ∈ entries, (files.get? (keyOf (source.join ⟨e.1⟩))).isSome)
    (hsource : Joins source entries) {spare : String} (htarget : Trails target entries spare)
    (hapart : ∀ key, Below source key → ¬ Below target key) : Free moves files where
  sources := hsources
  targets := by
    refine List.Nodup.map_on (fun move hmove other hother heq => ?_) (List.Nodup.of_map _ hsources)
    obtain ⟨e, he, rfl⟩ := (hmoves move).mp hmove
    obtain ⟨e', he', rfl⟩ := (hmoves other).mp hother
    dsimp only at heq
    rw [htarget.name_eq he he' heq]
  apart := by
    rintro move hmove other hother heq
    obtain ⟨e, he, rfl⟩ := (hmoves move).mp hmove
    obtain ⟨e', he', rfl⟩ := (hmoves other).mp hother
    dsimp only at heq
    exact hapart _ (hsource.below he') (heq ▸ htarget.below he)
  stored := by
    intro move hmove
    obtain ⟨e, he, rfl⟩ := (hmoves move).mp hmove
    dsimp only
    exact hfiles e he

/-- An output directory and names of files that end the keys of the files written for it. -/
structure Mergeable (dir : Path) (entries : List (String × ByteArray)) : Prop where
  staged : Joins (stagingDir dir) entries
  trails : ∃ spare, Trails dir entries spare
  apart : ∀ key, Below (stagingDir dir) key → ¬ Below dir key

/-- An output directory and names of files that stand as they are in the keys of the files written
for it. -/
structure Placeable (dir : Path) (entries : List (String × ByteArray)) : Prop where
  staged : Joins (stagingDir dir) entries
  joined : Joins dir entries
  apart : ∀ key, Below (stagingDir dir) key → ¬ Below dir key
  proper : ¬ Below (stagingDir dir) (keyOf (stagingDir dir))

theorem Placeable.mergeable (h : Placeable dir entries) : Mergeable dir entries :=
  ⟨h.staged, ⟨"", h.joined.trails⟩, h.apart⟩

theorem mem_movesOf {move : String × String} : move ∈ movesOf source target (entries.map Prod.fst) ↔
    ∃ e ∈ entries, (keyOf (source.join ⟨e.1⟩), keyOf (target.join ⟨e.1⟩)) = move := by
  simp [movesOf]

theorem nodup_keys (files : OutputFiles) : (files.entries.map Prod.fst).Nodup :=
  (List.pairwise_map.mpr files.ascending).imp String.ne_of_lt

theorem mem_movesBelow (hsource : Joins source entries) (htarget : Joins target entries)
    (hnames : (entries.map Prod.fst).Nodup)
    (hfiles : ∀ key, Below source key → store.files.get? key = placed source entries key)
    (move : String × String) : move ∈ movesBelow source target store ↔
      ∃ e ∈ entries, (keyOf (source.join ⟨e.1⟩), keyOf (target.join ⟨e.1⟩)) = move := by
  have hbehind : ∀ e ∈ entries, behind (keyOf (source.join ⟨e.1⟩)) (prefixOf (keyOf source)) =
      e.1.toList := by
    intro e he
    rw [hsource e he, behind_append]
  rw [movesBelow, List.mem_map]
  constructor
  · rintro ⟨⟨key, content⟩, hmem, rfl⟩
    obtain ⟨hget, hbelow⟩ := mem_below_iff.mp hmem
    rw [hfiles key hbelow] at hget
    obtain ⟨e, he, rfl, rfl⟩ := exists_of_placed hget
    refine ⟨e, he, ?_⟩
    rw [hbehind e he, String.ofList_toList, ← htarget e he]
  · rintro ⟨e, he, rfl⟩
    refine ⟨(keyOf (source.join ⟨e.1⟩), e.2), mem_below_iff.mpr ⟨?_, hsource.below he⟩, ?_⟩
    · rw [hfiles _ (hsource.below he), placed_of_mem (hsource.nodup hnames) he]
    · rw [hbehind e he, String.ofList_toList, ← htarget e he]

/-- Once a directory is replaced, the prepared files stand in it and nothing else. -/
theorem rename_placed (hentries : Placeable dir entries) (hnames : (entries.map Prod.fst).Nodup)
    (hplain : store.files.get? (keyOf (stagingDir dir)) = none)
    (hfiles : ∀ key, Below (stagingDir dir) key →
      store.files.get? key = placed (stagingDir dir) entries key)
    (h : store.rename (stagingDir dir) dir = .ok store') : store'.files.get? key =
      (placed dir entries key).or
        (if Below (stagingDir dir) key then none else store.files.get? key) := by
  have hmoves := mem_movesBelow hentries.staged hentries.joined hnames hfiles
  rw [rename_moved hplain h]
  refine get?_moveFiles_placed
    (free_of_trails (nodup_movesBelow ..) hmoves ?_ hentries.staged hentries.joined.trails
      hentries.apart) hmoves hfiles hentries.staged hnames
  intro e he
  rw [hfiles _ (hentries.staged.below he), placed_of_mem (hentries.staged.nodup hnames) he]
  rfl

/-- What a key holds once an output is written. -/
def written (dir : Path) (clean : Bool) (files : OutputFiles) (store : MemoryStore) (key : String) :
    Option ByteArray :=
  (placed dir files.entries key).or
    (if Below (stagingDir dir) key ∨ clean = true ∧ Below dir key then none
      else store.files.get? key)

/-- The files of an output stand below the staging directory, and nothing else. -/
def Prepared (dir : Path) (files : OutputFiles) (store prepared : MemoryStore) : Prop :=
  ∀ key, prepared.files.get? key = (placed (stagingDir dir) files.entries key).or
    (if Below (stagingDir dir) key then none else store.files.get? key)

theorem Prepared.below (h : Prepared dir files store store') (hkey : Below (stagingDir dir) key) :
    store'.files.get? key = placed (stagingDir dir) files.entries key := by
  rw [h, if_pos hkey, Option.or_none]

theorem Prepared.outside (h : Prepared dir files store store')
    (hfiles : Mergeable dir files.entries)
    (hkey : ¬ Below (stagingDir dir) key) : store'.files.get? key = store.files.get? key := by
  have hnone : placed (stagingDir dir) files.entries key = none :=
    Option.not_isSome_iff_eq_none.mp fun hplaced => hkey (hfiles.staged.trails.below_of_placed hplaced)
  rw [h, if_neg hkey, hnone, Option.none_or]

theorem Prepared.file (h : Prepared dir files store store') (hfiles : Mergeable dir files.entries)
    {e : String × ByteArray} (he : e ∈ files.entries) :
    store'.files.get? (keyOf ((stagingDir dir).join ⟨e.1⟩)) = some e.2 := by
  rw [h.below (hfiles.staged.below he), placed_of_mem (hfiles.staged.nodup (nodup_keys files)) he]

theorem Prepared.free (h : Prepared dir files store store') (hfiles : Mergeable dir files.entries) :
    Free (movesOf (stagingDir dir) dir files.keys) store'.files := by
  obtain ⟨spare, htrails⟩ := hfiles.trails
  refine free_of_trails ?_ (fun _ => mem_movesOf) (fun e he => ?_) hfiles.staged htrails
    hfiles.apart
  · have hsources : (movesOf (stagingDir dir) dir files.keys).map Prod.fst =
        files.entries.map fun e => keyOf ((stagingDir dir).join ⟨e.1⟩) := by
      simp only [movesOf, SortedMap.keys, List.map_map, Function.comp_def]
    rw [hsources]
    exact hfiles.staged.nodup (nodup_keys files)
  · rw [h.file hfiles he, Option.isSome_some]

theorem replaceDir_placed (hfs : Backed fs stored) (hfiles : Placeable dir files.entries)
    (hprepared : Prepared dir files store (stored s))
    (hplain : store.files.get? (keyOf (stagingDir dir)) = none)
    (h : (Output.replaceDir fs (stagingDir dir) dir files).run s = (.ok (), s')) :
    (stored s').files.get? key = written dir true files store key := by
  obtain ⟨s₁, hremove, hstored⟩ := hfs.removeDir dir s
  have hremoved : ∀ key, (stored s₁).files.get? key = if Below dir key then none
      else (stored s).files.get? key :=
    fun key => hstored ▸ get?_removeDir
  have hbelow : ∀ key, Below (stagingDir dir) key →
      (stored s₁).files.get? key = placed (stagingDir dir) files.entries key := fun key hkey => by
    rw [hremoved, if_neg (hfiles.apart key hkey), hprepared.below hkey]
  have houtside : (if Below (stagingDir dir) key then none else (stored s₁).files.get? key) =
      if Below (stagingDir dir) key ∨ true = true ∧ Below dir key then none
        else store.files.get? key := by
    by_cases hkey : Below (stagingDir dir) key
    · rw [if_pos hkey, if_pos (.inl hkey)]
    · rw [if_neg hkey, hremoved, hprepared.outside hfiles.mergeable hkey]
      by_cases hdir : Below dir key <;> simp [hkey, hdir]
  rw [Output.replaceDir, run_bind_of hremove] at h
  simp only at h
  rw [written, ← houtside]
  split at h
  · next hempty =>
      obtain rfl : s₁ = s' := congrArg Prod.snd h
      have hentries : files.entries = [] := List.isEmpty_iff.mp hempty
      rw [hentries] at hbelow ⊢
      by_cases hkey : Below (stagingDir dir) key
      · rw [if_pos hkey, hbelow key hkey]
        rfl
      · rw [if_neg hkey]
        rfl
  · obtain ⟨result, s₂, hrename, hresult⟩ := hfs.rename (stagingDir dir) dir s₁
    rw [hrename] at h
    obtain ⟨rfl, rfl⟩ := Prod.mk.inj h
    have hplain' : (stored s₁).files.get? (keyOf (stagingDir dir)) = none := by
      rw [hremoved, hprepared.outside hfiles.mergeable hfiles.proper, hplain, ite_self]
    rcases hresult with ⟨e, -, herror, -⟩ | ⟨hok, -⟩
    · exact absurd herror (by simp)
    · exact rename_placed hfiles (nodup_keys files) hplain' hbelow hok

theorem mergeDir_placed (hfs : Backed fs stored) (hfiles : Mergeable dir files.entries)
    (hprepared : Prepared dir files store (stored s))
    (h : (Output.mergeDir fs (stagingDir dir) dir files).run s = (.ok (), s')) :
    (stored s').files.get? key = written dir false files store key := by
  rw [Output.mergeDir] at h
  cases hmove : (Output.moveAll fs (stagingDir dir) dir files.keys).run s with
  | mk result s₁ =>
      rw [run_bind_of hmove] at h
      cases result with
      | error e => exact absurd (congrArg Prod.fst h) (by simp)
      | ok _ =>
          obtain ⟨s₂, hremove, hstored⟩ := hfs.removeDir (stagingDir dir) s₁
          simp only at h
          rw [hremove] at h
          obtain rfl : s₂ = s' := congrArg Prod.snd h
          have hremoved : (stored s₂).files.get? key =
              if Below (stagingDir dir) key then none else (stored s₁).files.get? key :=
                hstored ▸ get?_removeDir
          rw [hremoved, moveAll_moved hfs (hprepared.free hfiles) hmove,
            get?_moveFiles_placed (hprepared.free hfiles) (fun _ => mem_movesOf)
              (fun _ => hprepared.below)
              hfiles.staged (nodup_keys files), written]
          by_cases hkey : Below (stagingDir dir) key
          · obtain ⟨spare, htrails⟩ := hfiles.trails
            have hnone : placed dir files.entries key = none :=
              Option.not_isSome_iff_eq_none.mp fun hplaced =>
              hfiles.apart key hkey (htrails.below_of_placed hplaced)
            rw [if_pos hkey, if_pos (.inl hkey), hnone]
            rfl
          · rw [if_neg hkey, if_neg hkey, hprepared.outside hfiles hkey]
            simp [hkey]

theorem exists_prepared (hfs : Backed fs stored) (hstaged : Joins (stagingDir dir) files.entries)
    (h : (Output.write fs dir clean files).run s = (.ok (), s')) :
    ∃ s₁, Prepared dir files (stored s) (stored s₁) ∧
      (if clean then Output.replaceDir fs (stagingDir dir) dir files
        else Output.mergeDir fs (stagingDir dir) dir files).run s₁ = (.ok (), s') := by
  obtain ⟨s₁, hremove, hstored⟩ := hfs.removeDir (stagingDir dir) s
  rw [Output.write, run_bind_of hremove] at h
  simp only at h
  cases hwrite : (Output.writeAll fs (stagingDir dir) files.entries).run s₁ with
  | mk result s₂ =>
      rw [run_bind_of hwrite] at h
      cases result with
      | error e =>
          obtain ⟨s₃, hremove₃, -⟩ := hfs.removeDir (stagingDir dir) s₂
          simp only at h
          rw [run_bind_of hremove₃] at h
          exact absurd (congrArg Prod.fst h) (by simp)
      | ok _ =>
          refine ⟨s₂, fun key => ?_, h⟩
          rw [writeAll_placed hfs (hstaged.nodup (nodup_keys files)) hwrite, hstored, get?_removeDir]
          rfl

/-- An output that is written without a failure puts its files below its directory, takes all else
away from below the staging directory and, if it is to be cleaned, from below its directory, and
leaves the rest as it is. -/
theorem write_placed (hfs : Backed fs stored) (hfiles : Placeable dir files.entries)
    (hplain : (stored s).files.get? (keyOf (stagingDir dir)) = none)
    (h : (Output.write fs dir clean files).run s = (.ok (), s')) :
    (stored s').files.get? key = written dir clean files (stored s) key := by
  obtain ⟨s₁, hprepared, hplace⟩ := exists_prepared hfs hfiles.staged h
  cases clean with
  | true => exact replaceDir_placed hfs hfiles hprepared hplain hplace
  | false => exact mergeDir_placed hfs hfiles.mergeable hprepared hplace

theorem write_merged (hfs : Backed fs stored) (hfiles : Mergeable dir files.entries)
    (h : (Output.write fs dir false files).run s = (.ok (), s')) :
    (stored s').files.get? key = written dir false files (stored s) key := by
  obtain ⟨s₁, hprepared, hplace⟩ := exists_prepared hfs hfiles.staged h
  exact mergeDir_placed hfs hfiles hprepared hplace

end Outputs

section Names

variable {absolute : Bool} {init : List (List Char)} {name : List Char}
  {entries : List (String × ByteArray)}

theorem slashes_eq_self (h : '\\' ∉ name) : slashes name = name := by
  have hslash : ∀ c ∈ name, c ≠ '\\' := fun c hc heq => h (heq ▸ hc)
  exact (List.map_congr_left fun c hc => if_neg (hslash c hc)).trans (List.map_id name)

theorem keyOf_join {file : String} (hname : IsName name) (hwritten : '\\' ∉ name)
    (hrelative : (Path.mk file).isAbsolute = false) (hfile : Verbatim file.toList) :
    keyOf ((ofNames absolute (init ++ [name])).join ⟨file⟩) =
      prefixOf (keyOf (ofNames absolute (init ++ [name]))) ++ file := by
  have hdir := text_concat absolute init name
  have hlast := getLast?_concat hname absolute init
  have hjoin : ((ofNames absolute (init ++ [name])).join ⟨file⟩).text.toList =
      lead absolute init ++ name ++ ['/'] ++ file.toList := by
    have hempty : (ofNames absolute (init ++ [name])).text ≠ "" := fun heq => by
      rw [heq] at hdir
      exact hname.ne_nil (List.append_eq_nil_iff.mp hdir.symm).2
    have hend : ¬ ((ofNames absolute (init ++ [name])).text = "" ||
        (ofNames absolute (init ++ [name])).text.toList.getLast? == some '/') = true := by
      rw [Bool.or_eq_true, decide_eq_true_iff, beq_iff_eq, hdir, not_or]
      exact ⟨hempty, hlast⟩
    rw [Path.join, if_neg (Bool.eq_false_iff.mp hrelative), if_neg hend, String.toList_append,
      String.toList_append, hdir]
    rfl
  rw [← String.toList_inj, toList_keyOf_verbatim hfile hjoin, String.toList_append,
    toList_prefixOf_verbatim (verbatim_of_isName hname hwritten) hdir]
  simp only [slashes, List.map_append]
  rw [← slashes, ← slashes, slashes_eq_self hwritten]
  rfl

theorem not_below_self (hname : IsName name) (hwritten : '\\' ∉ name) :
    ¬ Below (ofNames absolute (init ++ [name])) (keyOf (ofNames absolute (init ++ [name]))) := by
  intro h
  have hverbatim := verbatim_of_isName hname hwritten
  have hdir := text_concat absolute init name
  rw [Below, hasPrefix_iff, toList_prefixOf_verbatim hverbatim hdir,
    toList_keyOf_verbatim hverbatim hdir] at h
  have hlength := h.length_le
  rw [List.length_append, List.length_singleton] at hlength
  omega

theorem placeable_of_verbatim (hdir : Tidy dir) (h : dir.fileName = some name)
    (hwritten : '\\' ∉ name)
    (hfiles : ∀ e ∈ entries, (Path.mk e.1).isAbsolute = false ∧ Verbatim e.1.toList) :
      Placeable dir entries := by
  have hapart : ∀ key, Below (stagingDir dir) key → ¬ Below dir key := fun key hkey hkey' =>
    apart_of_fileName hdir h hwritten (.inr hkey) (.inr hkey')
  obtain ⟨absolute, init, hinit, rfl⟩ := exists_concat hdir h
  have hname : IsName name := hinit name (by simp)
  have hstaged : IsName (stagedName name) := isName_stagedName hname
  have hwritten' : '\\' ∉ stagedName name := by simp [stagedName, hwritten]
  have hstaging := stagingDir_ofNames hinit h
  refine ⟨fun e he => ?_, fun e he => ?_, hapart, ?_⟩
  · rw [hstaging]
    exact keyOf_join hstaged hwritten' (hfiles e he).1 (hfiles e he).2
  · exact keyOf_join hname hwritten (hfiles e he).1 (hfiles e he).2
  · rw [hstaging]
    exact not_below_self hstaged hwritten'

end Names

end WebBundle.Proofs.PlacedFiles

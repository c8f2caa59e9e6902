import Mathlib.Data.List.Find
import WebBundle.Proofs.OutputDirectories

namespace WebBundle.Proofs.WrittenOutput

open MemoryStore
open Output (stagingDir)
open WebBundle.Proofs.StagedWrites
open WebBundle.Proofs.StoreRegions
open WebBundle.Proofs.VerbatimNames
open WebBundle.Proofs.PlacedFiles
open WebBundle.Proofs.OutputDirectories

variable {dir bare : Path} {before after : List (List Char)} {name : List Char} {files : OutputFiles}
variable {s s' : FaultyStore} {clean : Bool} {key : String}

theorem get?_removed (store : MemoryStore) (p : Path) (key : String) :
    (store.removeDir p).files.get? key = if Below p key then none else store.files.get? key :=
  get?_removeDir

def Fails (s : FaultyStore) (p : Path) : Prop := s.failWrites.any p.endsWith = true

instance (s : FaultyStore) (p : Path) : Decidable (Fails s p) :=
  inferInstanceAs (Decidable (_ = true))

theorem writeAll_faulty (dir : Path) (entries : List (String × ByteArray)) (s : FaultyStore) :
    ∃ result s', (Output.writeAll FaultyStore.fileSystem dir entries).run s = (result, s') ∧
      (result = .ok () ↔ ∀ e ∈ entries, ¬ Fails s (dir.join ⟨e.1⟩)) := by
  induction entries generalizing s with
  | nil => exact ⟨.ok (), s, rfl, by simp⟩
  | cons entry rest ih =>
      obtain ⟨name, content⟩ := entry
      have hrun : (FaultyStore.fileSystem.write (dir.join ⟨name⟩) content).run s =
        s.write (dir.join ⟨name⟩) content := rfl
      by_cases hfails : s.failWrites.any (dir.join ⟨name⟩).endsWith = true
      · rw [FaultyStore.write, if_pos hfails] at hrun
        refine ⟨.error (.medium "disk full"), s, ?_, ?_⟩
        · rw [Output.writeAll, run_bind_of hrun]
          rfl
        · exact iff_of_false (by simp) fun hnone => hnone _ List.mem_cons_self hfails
      · rw [FaultyStore.write, if_neg hfails] at hrun
        obtain ⟨result, s', hrest, hok⟩ := ih { s with store := s.store.write (dir.join ⟨name⟩) content }
        refine ⟨result, s', ?_, ?_⟩
        · rw [Output.writeAll, run_bind_of hrun]
          exact hrest
        · rw [hok, List.forall_mem_cons]
          exact (and_iff_right hfails).symm

theorem prepare_faulty (hstaged : Joins (stagingDir dir) files.entries) (s : FaultyStore) :
    ∃ result s₁, (Output.writeAll FaultyStore.fileSystem (stagingDir dir) files.entries).run
        { s with store := s.store.removeDir (stagingDir dir) } = (result, s₁) ∧
      (result = .ok () ↔ ∀ e ∈ files.entries, ¬ Fails s ((stagingDir dir).join ⟨e.1⟩)) ∧
      (∀ key, ¬ Below (stagingDir dir) key → s₁.store.files.get? key = s.store.files.get? key) ∧
      (result = .ok () → ∀ e ∈ files.entries,
        (s₁.store.files.get? (keyOf ((stagingDir dir).join ⟨e.1⟩))).isSome) := by
  obtain ⟨result, s₁, hwrite, hagrees, -, hwritten⟩ := writeAll_run backed_faulty (stagingDir dir)
    files.entries { s with store := s.store.removeDir (stagingDir dir) }
  obtain ⟨result', s₂, hwrite', hok⟩ := writeAll_faulty (stagingDir dir) files.entries
    { s with store := s.store.removeDir (stagingDir dir) }
  obtain ⟨rfl, rfl⟩ := Prod.mk.inj (hwrite.symm.trans hwrite')
  refine ⟨result, s₁, hwrite, hok, fun key hkey => ?_, hwritten⟩
  rw [hagrees key, get?_removed, if_neg hkey]
  rintro ⟨e, he, rfl⟩
  exact hkey (hstaged.below he)

/-- Where prepared files can be moved, an output is written unless a file of it cannot be. Then nothing is
left below the staging directory, and the rest stays as it was. -/
theorem write_faulty (hdir : dir.text ≠ "") (hstaged : Joins (stagingDir dir) files.entries)
    (hmovable : Movable dir clean files) (s : FaultyStore) :
    ∃ result s', (Output.write FaultyStore.fileSystem dir clean files).run s = (result, s') ∧
      (result = .ok () ↔ ∀ e ∈ files.entries, ¬ Fails s ((stagingDir dir).join ⟨e.1⟩)) ∧
      (result ≠ .ok () → ∀ key, s'.store.files.get? key =
        if Below (stagingDir dir) key then none else s.store.files.get? key) := by
  have hremove : (FaultyStore.fileSystem.removeDir (stagingDir dir)).run s =
    (.ok (), { s with store := s.store.removeDir (stagingDir dir) }) := rfl
  obtain ⟨result, s₁, hwrite, hok, hother, hfiles⟩ := prepare_faulty hstaged s
  cases result with
  | error e =>
      refine ⟨.error e, { s₁ with store := s₁.store.removeDir (stagingDir dir) }, ?_, hok,
        fun _ key => ?_⟩
      · rw [Output.write, run_bind_of hremove]
        simp only
        rw [run_bind_of hwrite]
        rfl
      · rw [get?_removed]
        by_cases hkey : Below (stagingDir dir) key
        · rw [if_pos hkey, if_pos hkey]
        · rw [if_neg hkey, if_neg hkey, hother key hkey]
  | ok _ =>
      -- All files were written, so there is a directory to move, and no move fails.
      obtain ⟨result, s', hplace, -, hplaced⟩ := place_run backed_faulty hdir clean files s₁
      have hresult : result = .ok () := by
        refine hplaced hmovable fun file hfile => ?_
        obtain ⟨e, he, rfl⟩ := List.mem_map.mp hfile
        exact hfiles rfl e he
      refine ⟨result, s', ?_, iff_of_true hresult (hok.mp rfl), fun hfailed => absurd hresult hfailed⟩
      rw [Output.write, run_bind_of hremove]
      simp only
      rw [run_bind_of hwrite]
      exact hplace

theorem replaceDir_eq (h : keyOf dir = keyOf bare) (staging : Path) (files : OutputFiles) :
    Output.replaceDir FaultyStore.fileSystem staging dir files =
      Output.replaceDir FaultyStore.fileSystem staging bare files := by
  have hremove : FaultyStore.fileSystem.removeDir dir = FaultyStore.fileSystem.removeDir bare := by
    funext s
    change s.update (.ok (s.store.removeDir dir)) = s.update (.ok (s.store.removeDir bare))
    rw [removeDir, removeDir, h]
  have hrename : FaultyStore.fileSystem.rename staging dir =
      FaultyStore.fileSystem.rename staging bare := by
    funext s
    change s.update (s.store.rename staging dir) = s.update (s.store.rename staging bare)
    rw [rename, rename, h]
  rw [Output.replaceDir, Output.replaceDir, hremove, hrename]

theorem write_eq_of_clean (h : keyOf dir = keyOf bare) (hstaging : stagingDir dir = stagingDir bare)
    (files : OutputFiles) : Output.write FaultyStore.fileSystem dir true files =
      Output.write FaultyStore.fileSystem bare true files := by
  simp only [Output.write, hstaging, if_true, replaceDir_eq h]

theorem stagingDir_eq {after' : List (List Char)} (h : Parts dir before name after)
    (hbare : Parts bare before name after') : stagingDir dir = stagingDir bare := by
  apply TidyPaths.eq_of_toList
  rw [text_stagingDir h, text_stagingDir hbare]

theorem placed_eq_get? (hjoined : Joins dir files.entries) (file : String) :
    placed dir files.entries (prefixOf (keyOf dir) ++ file) = files.get? file := by
  have hfind : files.entries.find? (fun e => keyOf (dir.join ⟨e.1⟩) == prefixOf (keyOf dir) ++ file) =
      files.entries.find? (fun e => e.1 == file) := by
    refine List.find?_congr fun e he => ?_
    rw [hjoined e he, Bool.eq_iff_iff, beq_iff_eq, beq_iff_eq]
    exact (append_injective (prefixOf (keyOf dir))).eq_iff
  rw [placed, hfind, SortedMap.get?]

theorem below_append (dir : Path) (file : String) : Below dir (prefixOf (keyOf dir) ++ file) := by
  rw [Below, hasPrefix_iff, String.toList_append]
  exact List.prefix_append _ _

/-- Names of files of an output: relative, and as they stand in keys. -/
def Named (files : OutputFiles) : Prop :=
  ∀ e ∈ files.entries, (Path.mk e.1).isAbsolute = false ∧ Verbatim e.1.toList

theorem mergeable_of_parts (h : Parts dir before name after) (hwritten : '\\' ∉ name)
    (hfiles : Named files) : Mergeable dir files.entries := by
  obtain ⟨bare, after', spare, -, hbare, htext⟩ := exists_bare h hwritten
  refine ⟨joins_of_bare (bare_stagingDir h) hfiles, ⟨_, trails_of_bare hbare htext hfiles⟩, ?_⟩
  exact fun key hkey hkey' => apart_of_parts h hwritten (.inr hkey) (.inr hkey')

theorem placeable_of_bare (h : Parts bare before name after) (hbare : Bare bare)
    (hwritten : '\\' ∉ name) (hfiles : Named files) : Placeable bare files.entries where
  staged := joins_of_bare (bare_stagingDir h) hfiles
  joined := joins_of_bare hbare hfiles
  apart := fun _ hkey hkey' => apart_of_parts h hwritten (.inr hkey) (.inr hkey')
  proper := (bare_stagingDir h).not_below

theorem movable_of_parts (h : Parts dir before name after) (hwritten : '\\' ∉ name)
    (hfiles : Named files) : Movable dir clean files where
  apart := fun _ _ hkey => apart_of_parts h hwritten hkey
  staged := by
    intro _ hempty
    obtain ⟨entry, rest, hentries⟩ := List.exists_cons_of_ne_nil (List.isEmpty_eq_false_iff.mp hempty)
    have hentry : entry ∈ files.entries := hentries ▸ List.mem_cons_self
    exact ⟨entry.1, List.mem_map_of_mem hentry, (hfiles entry hentry).1⟩
  distinct := fun _ => keys_distinct fun file hfile => by
    obtain ⟨e, he, rfl⟩ := List.mem_map.mp hfile
    exact hfiles e he

theorem joins_of_not_doubled (h : Parts dir before name after) (hwritten : '\\' ∉ name)
    (hfiles : Named files) (hdoubled : ¬ ['/', '/'] <:+ dir.text.toList) :
    Joins dir files.entries := by
  obtain ⟨bare, after', spare, -, hbare, htext⟩ := exists_bare h hwritten
  have hspare : spare - 1 = 0 := by
    by_contra hspare
    obtain ⟨more, rfl⟩ : ∃ more, spare = more + 2 := ⟨spare - 2, by omega⟩
    refine hdoubled ⟨bare.text.toList ++ List.replicate more '/', ?_⟩
    rw [htext, List.replicate_add, List.append_assoc]
    rfl
  intro e he
  rw [trails_of_bare hbare htext hfiles e he, hspare]
  simp

/-- What a store holds once an output was written, or a write failed. -/
structure Settled (dir : Path) (clean : Bool) (files : OutputFiles) (result : Except StoreError Unit)
    (store store' : MemoryStore) : Prop where
  /-- Nothing is left of what was prepared. -/
  staging : ∀ key, Below (stagingDir dir) key → store'.files.get? key = none
  elsewhere : ∀ key, ¬ Below (stagingDir dir) key → ¬ Below dir key →
    store'.files.get? key = store.files.get? key
  failed : result ≠ .ok () → ∀ key, ¬ Below (stagingDir dir) key →
    store'.files.get? key = store.files.get? key
  cleaned : result = .ok () → clean = true → ∀ file,
    store'.files.get? (prefixOf (keyOf dir) ++ file) = files.get? file
  /-- The files lie over those that were there, unless separators stand between. -/
  merged : result = .ok () → clean = false → ¬ ['/', '/'] <:+ dir.text.toList → ∀ file,
    store'.files.get? (prefixOf (keyOf dir) ++ file) =
      (files.get? file).or (store.files.get? (prefixOf (keyOf dir) ++ file))

theorem written_of_staging (htrails : ∃ spare, Trails dir files.entries spare)
    (hapart : ∀ key, Below (stagingDir dir) key → ¬ Below dir key) (store : MemoryStore)
    (hkey : Below (stagingDir dir) key) : written dir clean files store key = none := by
  obtain ⟨spare, htrails⟩ := htrails
  have hnone : placed dir files.entries key = none :=
    Option.not_isSome_iff_eq_none.mp fun hplaced => hapart key hkey (htrails.below_of_placed hplaced)
  rw [written, hnone, if_pos (.inl hkey)]
  rfl

theorem written_of_elsewhere (htrails : ∃ spare, Trails dir files.entries spare) (store : MemoryStore)
    (hkey : ¬ Below (stagingDir dir) key) (hkey' : ¬ Below dir key) :
    written dir clean files store key = store.files.get? key := by
  obtain ⟨spare, htrails⟩ := htrails
  have hnone : placed dir files.entries key = none :=
    Option.not_isSome_iff_eq_none.mp fun hplaced => hkey' (htrails.below_of_placed hplaced)
  rw [written, hnone, if_neg (by simp [hkey, hkey'])]
  rfl

theorem written_append (hjoined : Joins dir files.entries)
    (hapart : ∀ key, Below (stagingDir dir) key → ¬ Below dir key) (clean : Bool)
    (store : MemoryStore) (file : String) :
    written dir clean files store (prefixOf (keyOf dir) ++ file) = (files.get? file).or
      (if clean then none else store.files.get? (prefixOf (keyOf dir) ++ file)) := by
  have hbelow := below_append dir file
  have hstaging : ¬ Below (stagingDir dir) (prefixOf (keyOf dir) ++ file) := fun hstaging =>
    hapart _ hstaging hbelow
  rw [written, placed_eq_get? hjoined]
  cases clean <;> simp [hbelow, hstaging]

theorem written_of_clean (h : Parts dir before name after) (hwritten : '\\' ∉ name)
    (hfiles : Named files) (hplain : s.store.files.get? (keyOf (stagingDir dir)) = none)
    (hrun : (Output.write FaultyStore.fileSystem dir true files).run s = (.ok (), s')) :
    Settled dir true files (.ok ()) s.store s'.store := by
  obtain ⟨bare, after', spare, hparts, hbare, htext⟩ := exists_bare h hwritten
  have hkeyOf := keyOf_eq hbare htext
  have hstaging := stagingDir_eq h hparts
  have hplaceable := placeable_of_bare hparts hbare hwritten hfiles
  have htrails := hplaceable.mergeable.trails
  rw [write_eq_of_clean hkeyOf hstaging] at hrun
  rw [hstaging] at hplain
  have hcleaned : ∀ key, s'.store.files.get? key = written bare true files s.store key :=
    fun key => write_placed backed_faulty hplaceable hplain hrun
  refine ⟨fun key hkey => ?_, fun key hkey hkey' => ?_, fun hne => absurd rfl hne,
    fun _ _ file => ?_, nofun⟩
  · rw [hcleaned, written_of_staging htrails hplaceable.apart _ (hstaging ▸ hkey)]
  · rw [Below, hkeyOf] at hkey'
    rw [hcleaned, written_of_elsewhere htrails _ (hstaging ▸ hkey) hkey']
  · rw [hcleaned, hkeyOf, written_append hplaceable.joined hplaceable.apart]
    simp

/-- How writing an output to an absolute directory with a name ends. It fails if a file of it cannot be
written and only then, and leaves everything as it was; else the files stand in the directory, alone or
over those that were there. -/
theorem write_settled (s : FaultyStore) (clean : Bool) (habsolute : dir.isAbsolute = true)
    (hname : dir.fileName = some name) (hwritten : '\\' ∉ name) (hfiles : Named files)
    (hplain : s.store.files.get? (keyOf (stagingDir dir)) = none) :
    ∃ result s', (Output.write FaultyStore.fileSystem dir clean files).run s = (result, s') ∧
      (result = .ok () ↔ ∀ e ∈ files.entries, ¬ Fails s ((stagingDir dir).join ⟨e.1⟩)) ∧
      Settled dir clean files result s.store s'.store := by
  obtain ⟨before, after, h⟩ := exists_parts habsolute hname
  have hmergeable := mergeable_of_parts h hwritten hfiles
  have hdir : dir.text ≠ "" := by
    rintro hnil
    rw [Path.isAbsolute, hnil] at habsolute
    exact absurd habsolute (by decide)
  obtain ⟨result, s', hrun, hok, hfailed⟩ :=
    write_faulty hdir hmergeable.staged (movable_of_parts h hwritten hfiles) s
  refine ⟨result, s', hrun, hok, ?_⟩
  cases result with
  | error e =>
      have hne : (Except.error e : Except StoreError Unit) ≠ .ok () := by simp
      have hfailed := hfailed hne
      refine ⟨fun key hkey => ?_, fun key hkey _ => ?_, fun _ key hkey => ?_,
        fun hok => absurd hok hne, fun hok => absurd hok hne⟩
      · rw [hfailed, if_pos hkey]
      · rw [hfailed, if_neg hkey]
      · rw [hfailed, if_neg hkey]
  | ok _ =>
      cases clean with
      | true => exact written_of_clean h hwritten hfiles hplain hrun
      | false =>
          have hmerged : ∀ key, s'.store.files.get? key = written dir false files s.store key :=
            fun key => write_merged backed_faulty hmergeable hrun
          refine ⟨fun key hkey => ?_, fun key hkey hkey' => ?_, fun hne => absurd rfl hne,
            fun _ hclean => Bool.noConfusion hclean, fun _ _ hdoubled file => ?_⟩
          · rw [hmerged, written_of_staging hmergeable.trails hmergeable.apart _ hkey]
          · rw [hmerged, written_of_elsewhere hmergeable.trails _ hkey hkey']
          · rw [hmerged, written_append (joins_of_not_doubled h hwritten hfiles hdoubled)
              hmergeable.apart]
            simp

/-- The output of an earlier run, beside another file. -/
def oldPage : FaultyStore where
  store := .ofFiles [(⟨"/p/dist/main.js"⟩, "old".toUTF8), (⟨"/p/e.js"⟩, "1".toUTF8)]

def newPage : OutputFiles := .insert ∅ "main.js" "new".toUTF8

theorem named_newPage : Named newPage := by
  intro e he
  obtain rfl := List.mem_singleton.mp he
  exact ⟨by decide, ⟨by decide, by decide, by decide⟩⟩

theorem write_settled_newPage : (Path.mk "/p/dist").isAbsolute = true ∧
    (Path.mk "/p/dist").fileName = some "dist".toList ∧ '\\' ∉ "dist".toList ∧ Named newPage ∧
    oldPage.store.files.get? (keyOf (stagingDir ⟨"/p/dist"⟩)) = none ∧
    ∃ result s', (Output.write FaultyStore.fileSystem ⟨"/p/dist"⟩ true newPage).run oldPage =
        (result, s') ∧
      (result = .ok () ↔ ∀ e ∈ newPage.entries, ¬ Fails oldPage ((stagingDir ⟨"/p/dist"⟩).join ⟨e.1⟩)) ∧
      Settled ⟨"/p/dist"⟩ true newPage result oldPage.store s'.store :=
  have hname : (Path.mk "/p/dist").fileName = some "dist".toList := by decide +kernel
  have hwritten : '\\' ∉ "dist".toList := by decide
  have hplain : oldPage.store.files.get? (keyOf (stagingDir ⟨"/p/dist"⟩)) = none := by decide +kernel
  ⟨by decide, hname, hwritten, named_newPage, hplain,
    write_settled oldPage true (by decide) hname hwritten named_newPage hplain⟩

/-- Behind two separators a new file comes to stand beside the old one. -/
theorem doubled_separator_not_overlaid : (Path.mk "/p/dist//").isAbsolute = true ∧
    (Path.mk "/p/dist//").fileName = some "dist".toList ∧ '\\' ∉ "dist".toList ∧ Named newPage ∧
    oldPage.store.files.get? (keyOf (stagingDir ⟨"/p/dist//"⟩)) = none ∧
    ((Output.write FaultyStore.fileSystem ⟨"/p/dist//"⟩ false newPage).run oldPage).1.toOption =
      some () ∧
    ((Output.write FaultyStore.fileSystem ⟨"/p/dist//"⟩ false newPage).run oldPage).2.store.files.get?
      (prefixOf (keyOf ⟨"/p/dist//"⟩) ++ "main.js") ≠ (newPage.get? "main.js").or
        (oldPage.store.files.get? (prefixOf (keyOf ⟨"/p/dist//"⟩) ++ "main.js")) :=
  ⟨by decide, by decide +kernel, by decide, named_newPage, by decide +kernel, by decide +kernel,
    by decide +kernel⟩

end WebBundle.Proofs.WrittenOutput

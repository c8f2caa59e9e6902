import WebBundle.Proofs.PlacedFiles
import WebBundle.Proofs.StoredDirectories

namespace WebBundle.Proofs.MovedDirectories

open MemoryStore
open WebBundle.Proofs.PlacedFiles
open WebBundle.Proofs.StoreRegions
open WebBundle.Proofs.StoredDirectories

variable {store moved moved' : MemoryStore} {source target p : Path} {key rest : String}

/-- The key of a file once one directory is moved to another place. -/
def relocated (source target : Path) (key : String) : String :=
  if Under source key then
    prefixOf (keyOf target) ++ String.ofList (behind key (prefixOf (keyOf source)))
  else key

/-- Every file below one directory stands at the same place below another one and is gone from where it
stood; all other files are as before. -/
structure IsMoved (source target : Path) (store moved : MemoryStore) : Prop where
  inside : ∀ rest, moved.files.get? (prefixOf (keyOf target) ++ rest) =
    store.files.get? (prefixOf (keyOf source) ++ rest)
  left : ∀ key, Under source key → ¬ Under target key → moved.files.get? key = none
  outside : ∀ key, ¬ Under source key → ¬ Under target key →
    moved.files.get? key = store.files.get? key

theorem relocated_append (source target : Path) (rest : String) :
    relocated source target (prefixOf (keyOf source) ++ rest) = prefixOf (keyOf target) ++ rest := by
  rw [relocated, if_pos ⟨rest, rfl⟩, behind_append, String.ofList_toList]

theorem relocated_of_not_under (h : ¬ Under source key) : relocated source target key = key :=
  if_neg h

theorem getLast?_prefixOf (key : String) : (prefixOf key).toList.getLast? = some '/' := by
  rw [prefixOf]
  split
  · next h => exact beq_iff_eq.mp h
  · rw [String.toList_append]
    exact List.getLast?_concat ..

theorem rest_eq_nil_of_keyOf (h : keyOf p = prefixOf (keyOf p) ++ rest) : rest = "" := by
  have hlength : (keyOf p).toList.length = (prefixOf (keyOf p)).toList.length + rest.toList.length := by
    conv_lhs => rw [h, String.toList_append, List.length_append]
  have hle := (prefix_prefixOf (keyOf p)).length_le
  have hnil : rest.toList.length = 0 := by omega
  exact String.toList_eq_nil_iff.mp (List.length_eq_zero_iff.mp hnil)

theorem isFile_eq_false_iff : store.isFile p = false ↔ store.files.get? (keyOf p) = none := by
  rw [isFile, Bool.eq_false_iff, ne_eq, contains_iff, Option.eq_none_iff_forall_ne_some, not_exists]

theorem isDir_iff : store.isDir p = true ↔
    ∃ rest, (store.files.get? (prefixOf (keyOf p) ++ rest)).isSome := by
  have hbelow : store.isDir p = true ↔ store.below (prefixOf (keyOf p)) ≠ [] := by simp [isDir]
  rw [hbelow, below_ne_nil_iff]
  constructor
  · rintro ⟨key, hkey, rest, rfl⟩
    exact ⟨rest, Option.isSome_iff_exists.mpr (mem_paths_iff.mp hkey)⟩
  · rintro ⟨rest, hrest⟩
    exact ⟨_, mem_paths_iff.mpr (Option.isSome_iff_exists.mp hrest), rest, rfl⟩

theorem get?_of_isDir_eq_false (h : store.isDir p = false) (hkey : Under p key) :
    store.files.get? key = none := by
  obtain ⟨rest, rfl⟩ := hkey
  by_contra hsome
  have hdir : store.isDir p = true := isDir_iff.mpr ⟨rest, Option.isSome_iff_ne_none.mpr hsome⟩
  exact absurd (h.symm.trans hdir) Bool.false_ne_true

theorem rename_of_isDir (target : Path) (h : store.isDir source = true) :
    ∃ moved, store.rename source target = .ok moved := by
  obtain ⟨rest, hrest⟩ := isDir_iff.mp h
  exact rename_isOk (.inr (hasPrefix_iff_under.mpr ⟨rest, rfl⟩)) hrest

theorem mem_movesBelow_iff {move : String × String} : move ∈ movesBelow source target store ↔
    ∃ rest, (store.files.get? (prefixOf (keyOf source) ++ rest)).isSome ∧
      (prefixOf (keyOf source) ++ rest, prefixOf (keyOf target) ++ rest) = move := by
  rw [movesBelow, List.mem_map]
  constructor
  · rintro ⟨⟨key, content⟩, hmem, rfl⟩
    obtain ⟨hget, hbelow⟩ := mem_below_iff.mp hmem
    obtain ⟨rest, rfl⟩ := hasPrefix_iff_under.mp hbelow
    refine ⟨rest, Option.isSome_of_eq_some hget, ?_⟩
    rw [behind_append, String.ofList_toList]
  · rintro ⟨rest, hrest, rfl⟩
    obtain ⟨content, hcontent⟩ := Option.isSome_iff_exists.mp hrest
    refine ⟨(prefixOf (keyOf source) ++ rest, content), ?_, ?_⟩
    · exact mem_below_iff.mpr ⟨hcontent, hasPrefix_iff_under.mpr ⟨rest, rfl⟩⟩
    · rw [behind_append, String.ofList_toList]

/-- Nothing is in the way of a move: no file goes to the place of one that is moved or stays, and files that
lie at the new place already lie at the old one as well. -/
structure Vacant (source target : Path) (store : MemoryStore) : Prop where
  apart : ∀ rest, (store.files.get? (prefixOf (keyOf source) ++ rest)).isSome →
    store.files.get? (prefixOf (keyOf target) ++ rest) = none
  clear : ∀ key, Under target key → ¬ Under source key → store.files.get? key = none

theorem Vacant.free (h : Vacant source target store) :
    Free (movesBelow source target store) store.files where
  sources := nodup_movesBelow ..
  targets := by
    apply List.Nodup.map_on _ (List.Nodup.of_map _ (nodup_movesBelow ..))
    intro move hmove other hother heq
    obtain ⟨rest, -, rfl⟩ := mem_movesBelow_iff.mp hmove
    obtain ⟨rest', -, rfl⟩ := mem_movesBelow_iff.mp hother
    obtain rfl : rest = rest' := append_injective _ heq
    rfl
  apart := by
    intro move hmove other hother heq
    obtain ⟨rest, hrest, rfl⟩ := mem_movesBelow_iff.mp hmove
    obtain ⟨rest', hrest', rfl⟩ := mem_movesBelow_iff.mp hother
    dsimp only at heq
    rw [← heq, h.apart rest hrest] at hrest'
    exact absurd hrest' Bool.false_ne_true
  stored := by
    intro move hmove
    obtain ⟨rest, hrest, rfl⟩ := mem_movesBelow_iff.mp hmove
    exact hrest

section Rename

variable (hvacant : Vacant source target store) (hplain : store.files.get? (keyOf source) = none)
  (h : store.rename source target = .ok moved)

include hvacant hplain h

theorem get?_rename_target (hrest : (store.files.get? (prefixOf (keyOf source) ++ rest)).isSome) :
    moved.files.get? (prefixOf (keyOf target) ++ rest) =
      store.files.get? (prefixOf (keyOf source) ++ rest) := by
  rw [rename_moved hplain h]
  exact hvacant.free.get?_target (mem_movesBelow_iff.mpr ⟨rest, hrest, rfl⟩)

theorem get?_rename_other (hkey : ∀ rest,
    (store.files.get? (prefixOf (keyOf source) ++ rest)).isSome → prefixOf (keyOf target) ++ rest ≠ key) :
    moved.files.get? key = if Under source key then none else store.files.get? key := by
  rw [rename_moved hplain h]
  by_cases hstored : Under source key ∧ (store.files.get? key).isSome
  · obtain ⟨⟨rest, rfl⟩, hrest⟩ := hstored
    rw [if_pos ⟨rest, rfl⟩]
    exact hvacant.free.get?_source (mem_movesBelow_iff.mpr ⟨rest, hrest, rfl⟩)
  · have hother : ∀ move ∈ movesBelow source target store, move.1 ≠ key ∧ move.2 ≠ key := by
      intro move hmove
      obtain ⟨rest, hrest, rfl⟩ := mem_movesBelow_iff.mp hmove
      exact ⟨fun heq => hstored ⟨⟨rest, heq.symm⟩, heq ▸ hrest⟩, hkey rest hrest⟩
    rw [hvacant.free.get?_other hother]
    split
    · next hunder => exact Option.not_isSome_iff_eq_none.mp fun hsome => hstored ⟨hunder, hsome⟩
    · rfl

/-- A directory that is moved to where nothing is in its way is moved as a whole. -/
theorem isMoved_of_rename : IsMoved source target store moved := by
  have hother : ∀ key, ¬ Under target key →
      moved.files.get? key = if Under source key then none else store.files.get? key := by
    intro key hkey
    exact get?_rename_other hvacant hplain h fun rest _ heq => hkey ⟨rest, heq.symm⟩
  refine ⟨fun rest => ?_, fun key hsource htarget => ?_, fun key hsource htarget => ?_⟩
  · by_cases hrest : (store.files.get? (prefixOf (keyOf source) ++ rest)).isSome
    · exact get?_rename_target hvacant hplain h hrest
    · rw [get?_rename_other hvacant hplain h, Option.not_isSome_iff_eq_none.mp hrest]
      · split
        · rfl
        · next hsource => exact hvacant.clear _ ⟨rest, rfl⟩ hsource
      · intro rest' hrest' heq
        obtain rfl : rest' = rest := append_injective _ heq
        exact hrest hrest'
  · rw [hother key htarget, if_pos hsource]
  · rw [hother key htarget, if_neg hsource]

end Rename

/-- No stored file is moved to the place of another one: moving back leads each to where it was. -/
theorem relocated_relocated (hempty : ∀ key, Under target key → store.files.get? key = none)
    (hkey : (store.files.get? key).isSome) :
    relocated target source (relocated source target key) = key := by
  by_cases hsource : Under source key
  · obtain ⟨rest, rfl⟩ := hsource
    rw [relocated_append, relocated_append]
  · have htarget : ¬ Under target key := fun htarget => by simp [hempty key htarget] at hkey
    rw [relocated_of_not_under hsource, relocated_of_not_under htarget]

section Moved

variable (h : IsMoved source target store moved)

include h

/-- A store and the two places tell what the store becomes by a move. -/
theorem IsMoved.unique (h' : IsMoved source target store moved') : moved = moved' := by
  have hfiles : moved.files = moved'.files := by
    apply SortedMap.ext_get?
    intro key
    by_cases htarget : Under target key
    · obtain ⟨rest, rfl⟩ := htarget
      rw [h.inside, h'.inside]
    · by_cases hsource : Under source key
      · rw [h.left key hsource htarget, h'.left key hsource htarget]
      · rw [h.outside key hsource htarget, h'.outside key hsource htarget]
  exact congrArg MemoryStore.mk hfiles

theorem IsMoved.exists_relocated {content : ByteArray} (hkey : moved.files.get? key = some content) :
    ∃ old, store.files.get? old = some content ∧ relocated source target old = key := by
  by_cases htarget : Under target key
  · obtain ⟨rest, rfl⟩ := htarget
    exact ⟨_, (h.inside rest).symm.trans hkey, relocated_append source target rest⟩
  · have hsource : ¬ Under source key := fun hsource => by simp [h.left key hsource htarget] at hkey
    exact ⟨key, (h.outside key hsource htarget).symm.trans hkey, relocated_of_not_under hsource⟩

theorem IsMoved.get?_keyOf_target (hkeys : ∀ key ∈ store.paths, key.toList.getLast? ≠ some '/')
    (hplain : store.files.get? (keyOf target) = none) : moved.files.get? (keyOf target) = none := by
  by_cases htarget : Under target (keyOf target)
  · obtain ⟨rest, hrest⟩ := htarget
    obtain rfl := rest_eq_nil_of_keyOf hrest
    rw [hrest, h.inside, String.append_empty, Option.eq_none_iff_forall_ne_some]
    intro content hcontent
    exact hkeys _ (mem_paths_iff.mpr ⟨content, hcontent⟩) (getLast?_prefixOf _)
  · by_cases hsource : Under source (keyOf target)
    · exact h.left _ hsource htarget
    · rw [h.outside _ hsource htarget, hplain]

variable (hempty : ∀ key, Under target key → store.files.get? key = none)

include hempty

theorem IsMoved.get?_relocated {content : ByteArray} (hkey : store.files.get? key = some content) :
    moved.files.get? (relocated source target key) = some content := by
  by_cases hsource : Under source key
  · obtain ⟨rest, rfl⟩ := hsource
    rw [relocated_append, h.inside, hkey]
  · have htarget : ¬ Under target key := fun htarget => by simp [hempty key htarget] at hkey
    rw [relocated_of_not_under hsource, h.outside key hsource htarget, hkey]

theorem IsMoved.entries_perm :
    moved.files.entries.Perm (store.files.entries.map fun e => (relocated source target e.1, e.2)) := by
  apply (List.perm_ext_iff_of_nodup moved.files.nodup_entries _).mpr
  · rintro ⟨key, content⟩
    rw [SortedMap.mem_entries, List.mem_map]
    constructor
    · intro hkey
      obtain ⟨old, hold, rfl⟩ := h.exists_relocated hkey
      exact ⟨(old, content), store.files.mem_entries.mpr hold, rfl⟩
    · rintro ⟨⟨old, content'⟩, hold, heq⟩
      obtain ⟨rfl, rfl⟩ := Prod.mk.inj heq
      exact h.get?_relocated hempty (store.files.mem_entries.mp hold)
  · apply List.Nodup.map_on _ store.files.nodup_entries
    rintro ⟨key, content⟩ hkey ⟨key', content'⟩ hkey' heq
    obtain ⟨hrelocated, rfl⟩ := Prod.mk.inj heq
    have hstored := Option.isSome_of_eq_some (store.files.mem_entries.mp hkey)
    have hstored' := Option.isSome_of_eq_some (store.files.mem_entries.mp hkey')
    rw [← relocated_relocated hempty hstored, hrelocated, relocated_relocated hempty hstored']

/-- Nothing is in the way of moving a directory back: under its old place it lies at most where it lies now,
and there stood no file before. -/
theorem IsMoved.vacant : Vacant target source moved where
  apart := by
    intro rest hrest
    by_cases htarget : Under target (prefixOf (keyOf source) ++ rest)
    · rw [h.inside, hempty _ htarget] at hrest
      exact absurd hrest Bool.false_ne_true
    · exact h.left _ ⟨rest, rfl⟩ htarget
  clear := h.left

theorem IsMoved.symm : IsMoved target source moved store where
  inside rest := (h.inside rest).symm
  left key htarget _ := hempty key htarget
  outside key htarget hsource := (h.outside key hsource htarget).symm

end Moved

/-- In a store where no key ends in a separator, a directory that is not also a file can be moved to any
path at which nothing lies. Each file below it then stands once, with its bytes, at the same place below the
new directory, all other files are as before, and moving the directory back restores the store. -/
theorem rename_moves_and_restores (hkeys : ∀ key ∈ store.paths, key.toList.getLast? ≠ some '/')
    (hdir : store.isDir source = true) (hfile : store.isFile source = false)
    (htarget : store.doesExist target = false) :
    ∃ moved, store.rename source target = .ok moved ∧ IsMoved source target store moved ∧
      moved.files.entries.Perm
        (store.files.entries.map fun e => (relocated source target e.1, e.2)) ∧
      moved.rename target source = .ok store := by
  obtain ⟨htargetFile, htargetDir⟩ := Bool.or_eq_false_iff.mp htarget
  have hempty : ∀ key, Under target key → store.files.get? key = none := fun _ =>
    get?_of_isDir_eq_false htargetDir
  obtain ⟨moved, hmove⟩ := rename_of_isDir target hdir
  have hmoved : IsMoved source target store moved :=
    isMoved_of_rename ⟨fun rest _ => hempty _ ⟨rest, rfl⟩, fun key hkey _ => hempty key hkey⟩
      (isFile_eq_false_iff.mp hfile) hmove
  have hdir' : moved.isDir target = true := by
    obtain ⟨rest, hrest⟩ := isDir_iff.mp hdir
    exact isDir_iff.mpr ⟨rest, (hmoved.inside rest).symm ▸ hrest⟩
  obtain ⟨restored, hback⟩ := rename_of_isDir source hdir'
  have hrestored : IsMoved target source moved restored :=
    isMoved_of_rename (hmoved.vacant hempty)
      (hmoved.get?_keyOf_target hkeys (isFile_eq_false_iff.mp htargetFile)) hback
  obtain rfl : restored = store := hrestored.unique (hmoved.symm hempty)
  exact ⟨moved, hmove, hmoved, hmoved.entries_perm hempty, hback⟩

/-- A directory with another one of the same name in it. -/
def nested : MemoryStore := .ofFiles [(⟨"/p/lib/a.js"⟩, "a".toUTF8), (⟨"/p/lib/lib/a.js"⟩, "b".toUTF8),
  (⟨"/p/lib-old/a.js"⟩, "c".toUTF8)]

theorem rename_moves_and_restores_nested :
    (∀ key ∈ nested.paths, key.toList.getLast? ≠ some '/') ∧ nested.isDir ⟨"/p/lib"⟩ = true ∧
      nested.isFile ⟨"/p/lib"⟩ = false ∧ nested.doesExist ⟨"/p/lib/lib/lib"⟩ = false ∧
      ∃ moved, nested.rename ⟨"/p/lib"⟩ ⟨"/p/lib/lib/lib"⟩ = .ok moved ∧
        moved.files.get? "/p/lib/lib/lib/lib/a.js" = some "b".toUTF8 ∧
        moved.files.get? "/p/lib/lib/a.js" = none ∧
        moved.rename ⟨"/p/lib/lib/lib"⟩ ⟨"/p/lib"⟩ = .ok nested := by
  have hkeys : ∀ key ∈ nested.paths, key.toList.getLast? ≠ some '/' := by decide +kernel
  have hdir : nested.isDir ⟨"/p/lib"⟩ = true := by decide +kernel
  have hfile : nested.isFile ⟨"/p/lib"⟩ = false := by decide +kernel
  have htarget : nested.doesExist ⟨"/p/lib/lib/lib"⟩ = false := by decide +kernel
  obtain ⟨moved, hmove, hmoved, -, hback⟩ := rename_moves_and_restores hkeys hdir hfile htarget
  refine ⟨hkeys, hdir, hfile, htarget, moved, hmove, ?_, ?_, hback⟩
  · exact (hmoved.inside "lib/a.js").trans (by decide +kernel)
  · exact hmoved.left _ (by decide +kernel) (by decide +kernel)

end WebBundle.Proofs.MovedDirectories

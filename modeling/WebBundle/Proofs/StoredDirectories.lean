import WebBundle.Proofs.StoreRegions

namespace WebBundle.Proofs.StoredDirectories

open MemoryStore
open WebBundle.Proofs.StoreRegions

variable {store : MemoryStore} {p : Path} {key start segment : String} {children : List Path}

/-- A key lies under the directory of a path: it begins as the keys below the directory do. -/
def Under (p : Path) (key : String) : Prop := ∃ rest, key = prefixOf (keyOf p) ++ rest

/-- The part of a key from the end of its start to the next separator, or to its end. -/
def IsNextSegment (start key segment : String) : Prop :=
  '/' ∉ segment.toList ∧ (key = start ++ segment ∨ ∃ rest, key = start ++ segment ++ "/" ++ rest)

theorem hasPrefix_iff_under : hasPrefix key (prefixOf (keyOf p)) = true ↔ Under p key :=
  hasPrefix_iff_exists

instance : Decidable (Under p key) := decidable_of_iff _ hasPrefix_iff_under

theorem mem_paths_iff : key ∈ store.paths ↔ ∃ content, store.files.get? key = some content :=
  SortedMap.mem_keys_iff

theorem below_eq (store : MemoryStore) (p : Path) :
    store.below (prefixOf (keyOf p)) = store.files.entries.filter fun e => Under p e.1 := by
  rw [below_eq_filter]
  exact List.filter_congr fun e _ => Bool.eq_iff_iff.mpr (by rw [decide_eq_true_eq, hasPrefix_iff_under])

theorem below_ne_nil_iff :
    store.below (prefixOf (keyOf p)) ≠ [] ↔ ∃ key ∈ store.paths, Under p key := by
  rw [below_eq, ne_eq, List.filter_eq_nil_iff, MemoryStore.paths, SortedMap.keys]
  simp

theorem takeWhile_ne_eq_iff {text first : List Char} : text.takeWhile (· != '/') = first ↔
    '/' ∉ first ∧ (text = first ∨ ∃ rest, text = first ++ '/' :: rest) := by
  induction text generalizing first with
  | nil => cases first <;> simp
  | cons c text ih =>
      by_cases hc : c = '/'
      · subst hc
        cases first with
        | nil => simp
        | cons c first =>
            simp only [List.takeWhile_cons, bne_self_eq_false, Bool.false_eq_true, if_false, reduceCtorEq,
              List.mem_cons, not_or, List.cons.injEq, List.cons_append, exists_and_left, false_iff]
            rintro ⟨⟨hne, -⟩, ⟨heq, -⟩ | ⟨heq, -⟩⟩ <;> exact hne heq
      · rw [List.takeWhile_cons, if_pos (by simpa using hc)]
        cases first with
        | nil => simp [hc]
        | cons c' first =>
            simp only [List.cons.injEq, ih, List.mem_cons, not_or, List.cons_append, exists_and_left]
            constructor
            · rintro ⟨rfl, hout, htext⟩
              exact ⟨⟨Ne.symm hc, hout⟩, htext.imp (fun h => ⟨rfl, h⟩) fun h => ⟨rfl, h⟩⟩
            · rintro ⟨⟨-, hout⟩, ⟨rfl, htext⟩ | ⟨rfl, htext⟩⟩
              · exact ⟨rfl, hout, .inl htext⟩
              · exact ⟨rfl, hout, .inr htext⟩

theorem isNextSegment_iff (hkey : hasPrefix key start = true) :
    IsNextSegment start key segment ↔ segment.toList = (behind key start).takeWhile (· != '/') := by
  obtain ⟨rest, rfl⟩ := hasPrefix_iff_exists.mp hkey
  rw [behind_append, eq_comm, takeWhile_ne_eq_iff, IsNextSegment]
  refine and_congr_right fun _ => or_congr ?_ ?_
  · rw [← String.toList_inj, String.toList_append, String.toList_append, List.append_cancel_left_eq]
  · constructor
    · rintro ⟨later, hlater⟩
      rw [← String.toList_inj] at hlater
      simp only [String.toList_append, List.append_assoc, List.append_cancel_left_eq] at hlater
      exact ⟨later.toList, hlater⟩
    · rintro ⟨later, hlater⟩
      refine ⟨String.ofList later, String.toList_inj.mp ?_⟩
      simp only [String.toList_append, List.append_assoc, String.toList_ofList, hlater]
      rfl

theorem under_of_isNextSegment (h : IsNextSegment (prefixOf (keyOf p)) key segment) : Under p key := by
  obtain ⟨-, rfl | ⟨rest, rfl⟩⟩ := h
  · exact ⟨segment, rfl⟩
  · exact ⟨segment ++ "/" ++ rest, by rw [String.append_assoc, String.append_assoc, String.append_assoc]⟩

theorem childOf_eq_iff (hkey : hasPrefix key start = true) {child : String} :
    childOf start key = child ↔ ∃ segment, IsNextSegment start key segment ∧ child = start ++ segment := by
  simp only [isNextSegment_iff hkey, childOf]
  constructor
  · rintro rfl
    exact ⟨_, String.toList_ofList, rfl⟩
  · rintro ⟨segment, hsegment, rfl⟩
    rw [← hsegment, String.ofList_toList]

theorem list_eq_ok_iff : store.list p = .ok children ↔ store.below (prefixOf (keyOf p)) ≠ [] ∧
    children = (SortedMap.ofList ((store.below (prefixOf (keyOf p))).map fun e =>
      (childOf (prefixOf (keyOf p)) e.1, ()))).keys.map Path.mk := by
  rw [MemoryStore.list]
  split
  · next hnil => split <;> simp [hnil]
  · next hbelow =>
      constructor
      · exact fun h => ⟨hbelow, (Except.ok.inj h).symm⟩
      · rintro ⟨-, rfl⟩
        rfl

theorem mem_children_iff (h : store.list p = .ok children) {child : Path} : child ∈ children ↔
    ∃ key ∈ store.paths, ∃ segment, IsNextSegment (prefixOf (keyOf p)) key segment ∧
      child = ⟨prefixOf (keyOf p) ++ segment⟩ := by
  obtain ⟨-, rfl⟩ := list_eq_ok_iff.mp h
  rw [List.mem_map]
  constructor
  · rintro ⟨name, hname, rfl⟩
    rw [SortedMap.mem_keys_ofList, List.map_map, List.mem_map] at hname
    obtain ⟨⟨key, content⟩, hmem, rfl⟩ := hname
    obtain ⟨hget, hkey⟩ := mem_below_iff.mp hmem
    obtain ⟨segment, hsegment, heq⟩ := (childOf_eq_iff hkey).mp rfl
    exact ⟨key, mem_paths_iff.mpr ⟨content, hget⟩, segment, hsegment, congrArg Path.mk heq⟩
  · rintro ⟨key, hpath, segment, hsegment, rfl⟩
    obtain ⟨content, hget⟩ := mem_paths_iff.mp hpath
    have hkey := hasPrefix_iff_under.mpr (under_of_isNextSegment hsegment)
    refine ⟨_, ?_, rfl⟩
    rw [SortedMap.mem_keys_ofList, List.map_map, List.mem_map]
    exact ⟨(key, content), mem_below_iff.mpr ⟨hget, hkey⟩,
      (childOf_eq_iff hkey).mpr ⟨segment, hsegment, rfl⟩⟩

theorem pairwise_children (h : store.list p = .ok children) :
    (children.map Path.text).Pairwise (· < ·) := by
  obtain ⟨-, rfl⟩ := list_eq_ok_iff.mp h
  rw [List.map_map]
  exact (List.map_id _).symm ▸ SortedMap.pairwise_keys _

/-- Whether there is a directory is told by the first key that is not smaller than its start. -/
theorem isDir_iff_first : store.isDir p = true ↔
    ∃ e, (store.files.entries.dropWhile fun e => decide (e.1 < prefixOf (keyOf p))).head? = some e ∧
      Under p e.1 := by
  rw [isDir, below]
  cases store.files.entries.dropWhile fun e => decide (e.1 < prefixOf (keyOf p)) with
  | nil => simp
  | cons first rest =>
      by_cases hfirst : hasPrefix first.1 (prefixOf (keyOf p)) = true
      · simp [hfirst, ← hasPrefix_iff_under]
      · simp [hfirst, ← hasPrefix_iff_under]

/-- For every store and path it is the same whether there is a directory, whether some file lies under it
and whether it can be listed. The listing names what stands next in the keys of those files, each once and
ascending; removing the directory removes those files and no other. A scan of the ordered keys sees those
files and no other, and its first key tells whether there are any. -/
theorem directories_agree (store : MemoryStore) (p : Path) :
    (store.isDir p = true ↔ ∃ key ∈ store.paths, Under p key) ∧
    ((∃ children, store.list p = .ok children) ↔ ∃ key ∈ store.paths, Under p key) ∧
    (∀ children, store.list p = .ok children → (children.map Path.text).Pairwise (· < ·) ∧
      ∀ child, child ∈ children ↔ ∃ key ∈ store.paths, ∃ segment,
        IsNextSegment (prefixOf (keyOf p)) key segment ∧ child = ⟨prefixOf (keyOf p) ++ segment⟩) ∧
    (∀ key, (store.removeDir p).files.get? key = if Under p key then none else store.files.get? key) ∧
    (store.below (prefixOf (keyOf p)) = store.files.entries.filter fun e => Under p e.1) ∧
    (store.isDir p = true ↔
      ∃ e, (store.files.entries.dropWhile fun e => decide (e.1 < prefixOf (keyOf p))).head? = some e ∧
        Under p e.1) := by
  refine ⟨?_, ?_, fun children h => ⟨pairwise_children h, fun child => mem_children_iff h⟩,
    fun key => ?_, below_eq store p, isDir_iff_first⟩
  · rw [← below_ne_nil_iff, isDir]
    simp
  · simp only [list_eq_ok_iff, exists_and_left, exists_eq, and_true, below_ne_nil_iff]
  · rw [get?_removeDir]
    simp only [hasPrefix_iff_under]

/-- A directory, one below it, and one beside it whose name begins with its name. -/
def siblings : MemoryStore := .ofFiles [(⟨"/p/dist/main.js"⟩, "m".toUTF8),
  (⟨"/p/dist/css/main.css"⟩, "c".toUTF8), (⟨"/p/dist-old/x.js"⟩, "x".toUTF8)]

theorem directories_agree_siblings :
    siblings.list ⟨"/p/dist/"⟩ = .ok [⟨"/p/dist/css"⟩, ⟨"/p/dist/main.js"⟩] ∧
      (∃ key ∈ siblings.paths, Under ⟨"/p/dist/"⟩ key) ∧
      (siblings.removeDir ⟨"/p/dist/"⟩).files.get? "/p/dist-old/x.js" = some "x".toUTF8 := by
  obtain ⟨-, hlist, -, hremove, -⟩ := directories_agree siblings ⟨"/p/dist/"⟩
  have hok : siblings.list ⟨"/p/dist/"⟩ = .ok [⟨"/p/dist/css"⟩, ⟨"/p/dist/main.js"⟩] := by decide +kernel
  refine ⟨hok, hlist.mp ⟨_, hok⟩, ?_⟩
  rw [hremove, if_neg (by decide +kernel)]
  decide +kernel

end WebBundle.Proofs.StoredDirectories

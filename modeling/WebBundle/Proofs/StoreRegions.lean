import Mathlib.Data.List.DropRight
import WebBundle.Store.Memory

namespace WebBundle.Proofs.StoreRegions

open MemoryStore

variable {store store' : MemoryStore} {p dir source target : Path} {key : String}

/-- A key is that of a path or lies below it. -/
def Within (dir : Path) (key : String) : Prop :=
  key = keyOf dir ∨ hasPrefix key (prefixOf (keyOf dir)) = true

instance : Decidable (Within dir key) := inferInstanceAs (Decidable (_ ∨ _))

/-- Two stores have the same files, but for some keys. -/
def Agrees (changed : String → Prop) (store store' : MemoryStore) : Prop :=
  ∀ key, ¬ changed key → store'.files.get? key = store.files.get? key

variable {changed changed' : String → Prop}

theorem Agrees.refl (store : MemoryStore) : Agrees changed store store := fun _ _ => rfl

theorem Agrees.trans {store'' : MemoryStore} (h : Agrees changed store store')
    (h' : Agrees changed store' store'') : Agrees changed store store'' :=
  fun key hkey => (h' key hkey).trans (h key hkey)

theorem Agrees.mono (h : Agrees changed store store') (hsub : ∀ key, changed key → changed' key) :
    Agrees changed' store store' :=
  fun key hkey => h key fun hchanged => hkey (hsub key hchanged)

theorem hasPrefix_iff {start : String} : hasPrefix key start = true ↔ start.toList <+: key.toList :=
  List.isPrefixOf_iff_prefix

theorem hasPrefix_iff_exists {start : String} :
    hasPrefix key start = true ↔ ∃ rest, key = start ++ rest := by
  rw [hasPrefix_iff]
  constructor
  · rintro ⟨rest, hrest⟩
    refine ⟨String.ofList rest, String.toList_inj.mp ?_⟩
    rw [String.toList_append, String.toList_ofList, hrest]
  · rintro ⟨rest, rfl⟩
    rw [String.toList_append]
    exact List.prefix_append _ _

theorem behind_append (start rest : String) : behind (start ++ rest) start = rest.toList := by
  rw [behind, String.toList_append, List.drop_left]

/-- A text without the separators at its end. -/
def strip (text : List Char) : List Char := text.rdropWhile (· == '/')

theorem strip_append (front rear : List Char) :
    strip (front ++ rear) = if strip rear = [] then strip front else front ++ strip rear := by
  rw [strip, strip, strip, List.rdropWhile, List.rdropWhile, List.rdropWhile, List.reverse_append,
    List.dropWhile_append]
  by_cases hnil : List.dropWhile (· == '/') rear.reverse = []
  · simp [hnil]
  · simp [hnil]

theorem strip_prefix (front rear : List Char) : strip front ++ ['/'] <+: front ++ '/' :: rear := by
  have hfront : strip front ++ front.rtakeWhile (· == '/') = front :=
    List.rdropWhile_append_rtakeWhile ..
  conv_rhs => rw [← hfront, List.append_assoc]
  rw [List.prefix_append_right_inj]
  cases htail : front.rtakeWhile (· == '/') with
  | nil => exact ⟨rear, rfl⟩
  | cons c rest =>
      have hmem : c ∈ front.rtakeWhile (· == '/') := htail ▸ List.mem_cons_self
      have hc : c = '/' := by simpa using List.mem_rtakeWhile_imp hmem
      rw [hc]
      exact ⟨rest ++ '/' :: rear, rfl⟩

theorem strip_eq_nil_iff {text : List Char} : strip text = [] ↔ ∀ c ∈ text, c = '/' := by
  rw [strip, List.rdropWhile_eq_nil_iff]
  simp only [beq_iff_eq]

theorem toList_keyOf (h : p.slashed.toList ≠ []) : (keyOf p).toList =
    if strip p.slashed.toList = [] then ['/'] else strip p.slashed.toList := by
  have hdrop : (p.slashed.toList.reverse.dropWhile (· == '/')).reverse = strip p.slashed.toList := rfl
  simp only [keyOf, hdrop]
  cases hstrip : strip p.slashed.toList with
  | nil =>
      obtain ⟨first, rest, htext⟩ := List.exists_cons_of_ne_nil h
      rw [strip_eq_nil_iff] at hstrip
      have hfirst : first = '/' := hstrip first (htext ▸ List.mem_cons_self)
      simp [htext, hfirst]
  | cons first rest => simp

theorem toList_prefixOf_keyOf (h : p.slashed.toList ≠ []) :
    (prefixOf (keyOf p)).toList = strip p.slashed.toList ++ ['/'] := by
  rw [prefixOf, toList_keyOf h]
  by_cases hstrip : strip p.slashed.toList = []
  · rw [if_pos hstrip, if_pos (by decide), toList_keyOf h, if_pos hstrip, hstrip]
    rfl
  · have hlast : ((strip p.slashed.toList).getLast? == some '/') = false := by
      rw [List.getLast?_eq_some_getLast hstrip]
      simpa [strip] using List.rdropWhile_last_not _ _ hstrip
    rw [if_neg hstrip, hlast, if_neg Bool.false_ne_true, String.toList_append, toList_keyOf h,
      if_neg hstrip]
    rfl

theorem slashed_join {name : String} (hdir : dir.text ≠ "")
    (hname : (Path.mk name).isAbsolute = false) : ∃ front rear,
      (dir.join ⟨name⟩).slashed.toList = front ++ '/' :: rear ∧
        strip front = strip dir.slashed.toList := by
  rw [Path.join, if_neg (Bool.eq_false_iff.mp hname)]
  split
  · next hend =>
      have hlast : dir.text.toList.getLast? = some '/' := by
        simpa [hdir] using hend
      obtain ⟨init, hinit⟩ := List.getLast?_eq_some_iff.mp hlast
      refine ⟨init.map fun c => if c = '\\' then '/' else c,
        name.toList.map fun c => if c = '\\' then '/' else c, ?_, ?_⟩
      · rw [Path.slashed, String.toList_ofList, String.toList_append, hinit]
        simp
      · rw [Path.slashed, String.toList_ofList, hinit, List.map_append, strip_append]
        rfl
  · refine ⟨dir.slashed.toList, name.toList.map fun c => if c = '\\' then '/' else c, ?_, rfl⟩
    rw [Path.slashed, Path.slashed, String.toList_ofList, String.toList_ofList]
    simp [String.toList_append]

theorem within_join {name : String} (hdir : dir.text ≠ "")
    (hname : (Path.mk name).isAbsolute = false) : Within dir (keyOf (dir.join ⟨name⟩)) := by
  obtain ⟨front, rear, htext, hfront⟩ := slashed_join hdir hname
  have hne : (dir.join ⟨name⟩).slashed.toList ≠ [] := by
    rw [htext]
    exact List.append_ne_nil_of_right_ne_nil _ (List.cons_ne_nil _ _)
  have hdir' : dir.slashed.toList ≠ [] := by
    simpa [Path.slashed] using hdir
  have hrear : strip ('/' :: rear) = if strip rear = [] then [] else '/' :: strip rear :=
    strip_append ['/'] rear
  rw [Within, hasPrefix_iff, toList_prefixOf_keyOf hdir', ← String.toList_inj, toList_keyOf hne,
    toList_keyOf hdir', htext, strip_append, hrear, ← hfront]
  by_cases hnil : strip rear = []
  · exact .inl (by simp [hnil])
  · refine .inr ?_
    simp only [hnil, if_false, List.cons_ne_nil, List.append_eq_nil_iff, and_false]
    exact strip_prefix front (strip rear)

theorem prefix_prefixOf (key : String) : key.toList <+: (prefixOf key).toList := by
  rw [prefixOf]
  split
  · exact List.prefix_rfl
  · rw [String.toList_append]
    exact List.prefix_append _ _

theorem Within.trans (hpath : Within dir (keyOf p)) (hkey : Within p key) : Within dir key := by
  rcases hkey with heq | hkey
  · rw [heq]
    exact hpath
  · rcases hpath with heq | hpath
    · rw [heq] at hkey
      exact .inr hkey
    · rw [hasPrefix_iff] at hkey hpath
      exact .inr (hasPrefix_iff.mpr (hpath.trans ((prefix_prefixOf _).trans hkey)))

theorem get?_write {content : ByteArray} : (store.write p content).files.get? key =
    if keyOf p = key then some content else store.files.get? key :=
  SortedMap.get?_insert ..

theorem write_agrees (content : ByteArray) :
    Agrees (fun key => keyOf p = key) store (store.write p content) := by
  intro key hkey
  rw [get?_write, if_neg hkey]

theorem isSome_write {content : ByteArray} (h : keyOf p = key ∨ (store.files.get? key).isSome) :
    ((store.write p content).files.get? key).isSome := by
  rw [get?_write]
  split
  · rfl
  · next hne => exact h.resolve_left hne

theorem get?_removeDir : (store.removeDir dir).files.get? key =
    if hasPrefix key (prefixOf (keyOf dir)) then none else store.files.get? key := by
  have hfilter := SortedMap.get?_filter_key store.files
    (fun key => !hasPrefix key (prefixOf (keyOf dir))) key
  rw [removeDir, hfilter]
  cases hasPrefix key (prefixOf (keyOf dir)) <;> rfl

theorem removeDir_agrees : Agrees (Within dir) store (store.removeDir dir) := by
  intro key hkey
  rw [get?_removeDir, if_neg fun hbelow => hkey (.inr hbelow)]

theorem contains_iff {files : SortedMap ByteArray} :
    files.contains key = true ↔ ∃ content, files.get? key = some content := by
  rw [SortedMap.contains, SortedMap.get?, List.any_eq_true]
  constructor
  · rintro ⟨entry, hentry, hkey⟩
    cases hfind : files.entries.find? (·.1 == key) with
    | none => exact absurd hkey (List.find?_eq_none.mp hfind entry hentry)
    | some found => exact ⟨found.2, rfl⟩
  · rintro ⟨content, hcontent⟩
    obtain ⟨entry, hfind, -⟩ := Option.map_eq_some_iff.mp hcontent
    have hkey : (entry.1 == key) = true := by simpa using List.find?_some hfind
    exact ⟨entry, List.mem_of_find?_eq_some hfind, hkey⟩

theorem get?_moveFile {files : SortedMap ByteArray} {first second : String} (hfirst : key ≠ first)
    (hsecond : key ≠ second) : (moveFile files first second).get? key = files.get? key := by
  rw [moveFile]
  split
  · rfl
  · rw [SortedMap.get?_insert, if_neg (Ne.symm hsecond), SortedMap.get?_erase, if_neg hfirst]

theorem hasPrefix_of_mem_below {start : String} {entry : String × ByteArray}
    (h : entry ∈ store.below start) : hasPrefix entry.1 start = true :=
  List.mem_takeWhile_imp (p := fun e : String × ByteArray => hasPrefix e.1 start) h

theorem get?_moveFile_self {files : SortedMap ByteArray} (key file : String) :
    (moveFile files file file).get? key = files.get? key := by
  by_cases hkey : key = file
  · subst hkey
    rw [moveFile]
    split
    · rfl
    · next content hcontent => rw [SortedMap.get?_insert, if_pos rfl, hcontent]
  · exact get?_moveFile hkey hkey

theorem get?_foldl_moveFile {start goal : String} {inside : List (String × ByteArray)}
    (hinside : ∀ entry ∈ inside, hasPrefix entry.1 start = true)
    (hstart : ¬ hasPrefix key start = true) (hgoal : ¬ hasPrefix key goal = true)
    (files : SortedMap ByteArray) :
    (inside.foldl (fun files e => moveFile files e.1 (goal ++ String.ofList (behind e.1 start)))
      files).get? key = files.get? key := by
  induction inside generalizing files with
  | nil => rfl
  | cons entry rest ih =>
      rw [List.foldl_cons, ih fun other hother => hinside other (List.mem_cons_of_mem _ hother)]
      refine get?_moveFile ?_ ?_
      · rintro rfl
        exact hstart (hinside entry List.mem_cons_self)
      · rintro rfl
        exact hgoal (hasPrefix_iff_exists.mpr ⟨_, rfl⟩)

theorem rename_file (hsource : (store.files.get? (keyOf source)).isSome) :
    ∃ store', store.rename source target = .ok store' ∧ ∀ key, key ≠ keyOf source →
      (store.files.get? key).isSome → (store'.files.get? key).isSome := by
  obtain ⟨content, hcontent⟩ := Option.isSome_iff_exists.mp hsource
  rw [rename, if_pos (contains_iff.mpr ⟨content, hcontent⟩)]
  refine ⟨⟨moveFile store.files (keyOf source) (keyOf target)⟩, rfl, fun key hkey h => ?_⟩
  simp only [moveFile, hcontent, SortedMap.get?_insert]
  split
  · rfl
  · rwa [SortedMap.get?_erase, if_neg hkey]

/-- Moving a directory changes nothing outside of the two places. -/
theorem rename_agrees (h : store.rename source target = .ok store') :
    Agrees (fun key => Within source key ∨ Within target key) store store' := by
  intro key hkey
  obtain ⟨hsource, htarget⟩ := not_or.mp hkey
  obtain ⟨hsource, hsource'⟩ := not_or.mp hsource
  obtain ⟨htarget, htarget'⟩ := not_or.mp htarget
  rw [rename] at h
  split at h
  · obtain rfl := Except.ok.inj h
    exact get?_moveFile hsource htarget
  · dsimp only at h
    split at h
    · exact absurd h nofun
    · next inside hinside =>
        obtain rfl := Except.ok.inj h
        refine get?_foldl_moveFile (fun entry hentry => ?_) hsource' htarget' store.files
        exact hasPrefix_of_mem_below hentry

theorem get?_foldl_moveFile_self {start : String} {inside : List (String × ByteArray)}
    (hinside : ∀ entry ∈ inside, hasPrefix entry.1 start = true) (files : SortedMap ByteArray) :
    (inside.foldl (fun files e => moveFile files e.1 (start ++ String.ofList (behind e.1 start)))
      files).get? key = files.get? key := by
  induction inside generalizing files with
  | nil => rfl
  | cons entry rest ih =>
      have hgoal : start ++ String.ofList (behind entry.1 start) = entry.1 := by
        obtain ⟨ending, hending⟩ := hasPrefix_iff_exists.mp (hinside entry List.mem_cons_self)
        rw [hending, behind_append, String.ofList_toList]
      rw [List.foldl_cons, ih fun other hother => hinside other (List.mem_cons_of_mem _ hother),
        hgoal, get?_moveFile_self]

theorem rename_self_agrees (h : store.rename p p = .ok store') : Agrees changed store store' := by
  intro key _
  rw [rename] at h
  split at h
  · obtain rfl := Except.ok.inj h
    exact get?_moveFile_self ..
  · dsimp only at h
    split at h
    · exact absurd h nofun
    · obtain rfl := Except.ok.inj h
      exact get?_foldl_moveFile_self (fun entry hentry => hasPrefix_of_mem_below hentry) _

theorem prefix_of_between {start text rest : List Char} (hge : ¬ text < start)
    (hle : ¬ start ++ rest < text) : start <+: text := by
  induction start generalizing text with
  | nil => exact List.nil_prefix
  | cons first start ih =>
      cases text with
      | nil => exact absurd (List.nil_lt_cons ..) hge
      | cons c text =>
          rw [List.cons_lt_cons_iff, not_or] at hge
          rw [List.cons_append, List.cons_lt_cons_iff, not_or] at hle
          obtain rfl : first = c := Char.le_antisymm (Char.not_lt.mp hge.1) (Char.not_lt.mp hle.1)
          rw [List.prefix_cons_inj]
          exact ih (fun hlt => hge.2 ⟨rfl, hlt⟩) (fun hlt => hle.2 ⟨rfl, hlt⟩)

theorem not_append_lt {start rest : List Char} : ¬ start ++ rest < start := by
  induction start with
  | nil => exact List.not_lt_nil _
  | cons first start ih =>
      rw [List.cons_append, List.cons_lt_cons_iff, not_or]
      exact ⟨Char.lt_irrefl first, fun hlt => ih hlt.2⟩

theorem not_lt_of_hasPrefix {start : String} (h : hasPrefix key start = true) : ¬ key < start := by
  obtain ⟨rest, hrest⟩ := hasPrefix_iff.mp h
  intro hlt
  have hlt' : start.toList ++ rest < start.toList := hrest ▸ hlt
  exact not_append_lt hlt'

theorem takeWhile_hasPrefix {start : String} {entries : List (String × ByteArray)}
    (hascending : entries.Pairwise fun a b => a.1 < b.1) (hge : ∀ e ∈ entries, ¬ e.1 < start) :
    entries.takeWhile (fun e => hasPrefix e.1 start) = entries.filter fun e => hasPrefix e.1 start := by
  induction entries with
  | nil => rfl
  | cons first rest ih =>
      obtain ⟨hfirst, hrest⟩ := List.pairwise_cons.mp hascending
      obtain ⟨hge, hge'⟩ := List.forall_mem_cons.mp hge
      by_cases hprefix : hasPrefix first.1 start = true
      · rw [List.takeWhile_cons, if_pos hprefix, List.filter_cons, if_pos hprefix, ih hrest hge']
      · rw [List.takeWhile_cons, if_neg hprefix, List.filter_cons, if_neg hprefix, eq_comm,
          List.filter_eq_nil_iff]
        intro e he hkey
        -- the first key stands between the start and a key that begins with it
        obtain ⟨ending, hending⟩ := hasPrefix_iff.mp hkey
        have hle : ¬ start.toList ++ ending < first.1.toList := hending ▸ String.lt_asymm (hfirst e he)
        exact hprefix (hasPrefix_iff.mpr (prefix_of_between hge hle))

/-- A scan sees the files whose keys begin so, and no other, in their order. -/
theorem below_eq_filter (store : MemoryStore) (start : String) :
    store.below start = store.files.entries.filter fun e => hasPrefix e.1 start := by
  have hascending := store.files.ascending
  rw [below]
  generalize store.files.entries = entries at hascending
  induction entries with
  | nil => rfl
  | cons first rest ih =>
      obtain ⟨hfirst, hrest⟩ := List.pairwise_cons.mp hascending
      by_cases hsmall : first.1 < start
      · rw [List.dropWhile_cons, if_pos (decide_eq_true hsmall), List.filter_cons,
          if_neg fun hkey => not_lt_of_hasPrefix hkey hsmall, ih hrest]
      · rw [List.dropWhile_cons, if_neg (mt of_decide_eq_true hsmall)]
        refine takeWhile_hasPrefix hascending (List.forall_mem_cons.mpr ⟨hsmall, fun e he hlt => ?_⟩)
        exact hsmall (String.lt_trans (hfirst e he) hlt)

theorem mem_below_iff {start : String} {content : ByteArray} : (key, content) ∈ store.below start ↔
    store.files.get? key = some content ∧ hasPrefix key start = true := by
  rw [below_eq_filter, List.mem_filter, SortedMap.mem_entries]

theorem nodup_below {start : String} : ((store.below start).map Prod.fst).Nodup := by
  rw [below_eq_filter]
  exact (List.pairwise_map.mpr (store.files.ascending.filter _)).imp String.ne_of_lt

theorem rename_isOk (hkey : Within source key) (h : (store.files.get? key).isSome) :
    ∃ store', store.rename source target = .ok store' := by
  obtain ⟨content, h⟩ := Option.isSome_iff_exists.mp h
  rw [rename]
  split
  · exact ⟨_, rfl⟩
  · next hfile =>
      rcases hkey with heq | hbelow
      · exact absurd (contains_iff.mpr ⟨content, heq ▸ h⟩) hfile
      · dsimp only
        split
        · next hempty => exact absurd hempty (List.ne_nil_of_mem (mem_below_iff.mpr ⟨h, hbelow⟩))
        · exact ⟨_, rfl⟩

end WebBundle.Proofs.StoreRegions

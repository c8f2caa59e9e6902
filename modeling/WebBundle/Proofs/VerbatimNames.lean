import Mathlib.Data.List.Nodup
import WebBundle.Proofs.StagedWrites
import WebBundle.Proofs.TidyPaths

namespace WebBundle.Proofs.VerbatimNames

open MemoryStore
open Output (stagingDir)
open WebBundle.Proofs.StagedWrites
open WebBundle.Proofs.StoreRegions
open WebBundle.Proofs.TidyPaths

variable {p dir : Path} {key : String} {front name : List Char} {absolute : Bool}
variable {init : List (List Char)} {files : OutputFiles} {clean : Bool}

/-- A text that a key of a path ends with if the path does. -/
structure Verbatim (name : List Char) : Prop where
  written : '\\' ∉ name
  ends : name.getLast? ≠ some '/'
  speaks : name ≠ []

theorem verbatim_of_isName (h : IsName name) (hwritten : '\\' ∉ name) : Verbatim name where
  written := hwritten
  ends := fun hlast => h.whole (List.mem_of_getLast? hlast)
  speaks := h.ne_nil

/-- A text with every backslash turned into a separator. -/
def slashes (text : List Char) : List Char := text.map fun c => if c = '\\' then '/' else c

theorem slashed_ne_nil (hname : Verbatim name) (htext : p.text.toList = front ++ name) :
    p.slashed.toList ≠ [] := by
  rw [Path.slashed, String.toList_ofList, htext, Ne, List.map_eq_nil_iff]
  exact List.append_ne_nil_of_right_ne_nil _ hname.speaks

theorem strip_slashed (hname : Verbatim name) (htext : p.text.toList = front ++ name) :
    strip p.slashed.toList = slashes front ++ name := by
  have hslash : ∀ c ∈ name, c ≠ '\\' := fun c hc heq => hname.written (heq ▸ hc)
  have hsame : slashes name = name :=
    (List.map_congr_left fun c hc => if_neg (hslash c hc)).trans (List.map_id name)
  have hstrip : strip name = name := by
    refine List.rdropWhile_eq_self_iff.mpr fun hne hlast => hname.ends ?_
    rw [List.getLast?_eq_some_getLast hne]
    exact congrArg some (by simpa using hlast)
  have hslashed : p.slashed.toList = slashes front ++ name := by
    rw [Path.slashed, String.toList_ofList, htext, List.map_append]
    exact congrArg (slashes front ++ ·) hsame
  rw [hslashed, strip_append, hstrip, if_neg hname.speaks]

theorem toList_keyOf_verbatim (hname : Verbatim name) (htext : p.text.toList = front ++ name) :
    (keyOf p).toList = slashes front ++ name := by
  rw [toList_keyOf (slashed_ne_nil hname htext), strip_slashed hname htext,
    if_neg (List.append_ne_nil_of_right_ne_nil _ hname.speaks)]

theorem toList_prefixOf_verbatim (hname : Verbatim name) (htext : p.text.toList = front ++ name) :
    (prefixOf (keyOf p)).toList = slashes front ++ name ++ ['/'] := by
  rw [toList_prefixOf_keyOf (slashed_ne_nil hname htext), strip_slashed hname htext]

theorem exists_of_within (hname : IsName name) (hverbatim : Verbatim name)
    (h : Within (ofNames absolute (init ++ [name])) key) : ∃ rest,
      key.toList = slashes (lead absolute init) ++ rest ∧ (Path.split rest).head? = some name := by
  have hkey := toList_keyOf_verbatim hverbatim (text_concat absolute init name)
  have hbelow := toList_prefixOf_verbatim hverbatim (text_concat absolute init name)
  rcases h with h | h
  · refine ⟨name, by rw [h, hkey], ?_⟩
    rw [split_of_whole hname.whole, List.head?_cons]
  · rw [hasPrefix_iff, hbelow] at h
    obtain ⟨rest, hrest⟩ := h
    refine ⟨name ++ '/' :: rest, by simp [← hrest], ?_⟩
    rw [split_append _ hname.whole, List.head?_cons]

/-- The name of the staging directory beside a directory of a name. -/
def stagedName (name : List Char) : List Char := '.' :: name ++ ".staging".toList

theorem isName_stagedName (h : IsName name) : IsName (stagedName name) := by
  refine isName_iff.mpr ⟨List.cons_ne_nil _ _, ?_, ?_⟩
  · simp [stagedName]
  · simp [stagedName, h.whole]

theorem stagingDir_ofNames (hinit : ∀ part ∈ init ++ [name], IsName part)
    (h : (ofNames absolute (init ++ [name])).fileName = some name) :
    stagingDir (ofNames absolute (init ++ [name])) = ofNames absolute (init ++ [stagedName name]) := by
  have hname : IsName name := hinit name (by simp)
  have htext : "." ++ String.ofList name ++ ".staging" = String.ofList (stagedName name) := by
    rw [← String.toList_inj]
    simp [stagedName]
  rw [← join_isName (fun part hpart => hinit part (by simp [hpart])) (isName_stagedName hname),
    ← htext]
  simp only [stagingDir, Path.withFileName, h, parent_concat hinit, Option.map_some,
    Option.getD_some]

/-- The staging directory beside a directory with a name without backslashes is not in it. -/
theorem apart_of_fileName (hdir : Tidy dir) (h : dir.fileName = some name) (hwritten : '\\' ∉ name)
    (hkey : Within (stagingDir dir) key) : ¬ Within dir key := by
  intro hkey'
  obtain ⟨absolute, init, hinit, hconcat⟩ := exists_concat hdir h
  have hname : IsName name := hinit name (by simp)
  have hstaged : IsName (stagedName name) := isName_stagedName hname
  have hwritten' : '\\' ∉ stagedName name := by simp [stagedName, hwritten]
  rw [hconcat] at h hkey hkey'
  rw [stagingDir_ofNames hinit h] at hkey
  -- behind what the two paths share, a key below both would go on with both names
  obtain ⟨rest, hrest, hhead⟩ := exists_of_within hstaged (verbatim_of_isName hstaged hwritten') hkey
  obtain ⟨rest', hrest', hhead'⟩ := exists_of_within hname (verbatim_of_isName hname hwritten) hkey'
  obtain rfl := List.append_cancel_left (hrest.symm.trans hrest')
  have heq : stagedName name = name := Option.some.inj (hhead.symm.trans hhead')
  have hlength := congrArg List.length heq
  simp [stagedName] at hlength
  omega

theorem exists_front (dir : Path) : ∃ front, ∀ name : String, (Path.mk name).isAbsolute = false →
    (dir.join ⟨name⟩).text.toList = front ++ name.toList := by
  by_cases hend : (dir.text = "" || dir.text.toList.getLast? == some '/') = true
  · refine ⟨dir.text.toList, fun name hname => ?_⟩
    rw [Path.join, if_neg (Bool.eq_false_iff.mp hname), if_pos hend, String.toList_append]
  · refine ⟨dir.text.toList ++ ['/'], fun name hname => ?_⟩
    rw [Path.join, if_neg (Bool.eq_false_iff.mp hname), if_neg hend, String.toList_append,
      String.toList_append]
    rfl

theorem keys_distinct
    (hfiles : ∀ name ∈ files.keys, (Path.mk name).isAbsolute = false ∧ Verbatim name.toList) :
    (files.keys.map fun name => keyOf (dir.join ⟨name⟩)).Nodup := by
  have hkeys : files.keys.Nodup := (List.pairwise_map.mpr files.ascending).imp String.ne_of_lt
  obtain ⟨front, hfront⟩ := exists_front dir
  refine List.Nodup.map_on (fun first hfirst second hsecond heq => ?_) hkeys
  obtain ⟨hrelative, hverbatim⟩ := hfiles first hfirst
  obtain ⟨hrelative', hverbatim'⟩ := hfiles second hsecond
  have htext := congrArg String.toList heq
  rw [toList_keyOf_verbatim hverbatim (hfront first hrelative),
    toList_keyOf_verbatim hverbatim' (hfront second hrelative')] at htext
  exact String.toList_inj.mp (List.append_cancel_left htext)

theorem movable_of_verbatim (hdir : Tidy dir) (h : dir.fileName = some name) (hwritten : '\\' ∉ name)
    (hfiles : ∀ name ∈ files.keys, (Path.mk name).isAbsolute = false ∧ Verbatim name.toList) :
    Movable dir clean files where
  apart := fun _ _ hkey => apart_of_fileName hdir h hwritten hkey
  staged := by
    intro _ hempty
    obtain ⟨entry, rest, hentries⟩ := List.exists_cons_of_ne_nil (List.isEmpty_eq_false_iff.mp hempty)
    have hname : entry.1 ∈ files.keys :=
      List.mem_map.mpr ⟨entry, hentries ▸ List.mem_cons_self, rfl⟩
    exact ⟨entry.1, hname, (hfiles entry.1 hname).1⟩
  distinct := fun _ => keys_distinct hfiles

end WebBundle.Proofs.VerbatimNames

import Mathlib.Data.List.Infix
import WebBundle.Proofs.PlacedFiles

namespace WebBundle.Proofs.OutputDirectories

open MemoryStore
open WebBundle.Path
open Output (stagingDir)
open WebBundle.Proofs.StoreRegions
open WebBundle.Proofs.TidyPaths
open WebBundle.Proofs.VerbatimNames
open WebBundle.Proofs.PlacedFiles

variable {dir : Path} {before after names : List (List Char)} {name part : List Char}

/-- The parts of an absolute path with a name: those that lead to it, the name, and void ones. -/
structure Parts (dir : Path) (before : List (List Char)) (name : List Char)
    (after : List (List Char)) : Prop where
  parts : dir.parts = [] :: before ++ name :: after
  void : ∀ part ∈ after, isVoid part
  isName : IsName name
  descends : name ≠ ['.', '.']

theorem exists_parts (habsolute : dir.isAbsolute = true) (h : dir.fileName = some name) :
    ∃ before after, Parts dir before name after := by
  obtain ⟨rest, hrest⟩ : ∃ rest, dir.text.toList = '/' :: rest := by
    rw [isAbsolute, beq_iff_eq] at habsolute
    exact List.head?_eq_some_iff.mp habsolute
  have hparts : dir.parts = [] :: split rest := by rw [parts, hrest, split, if_pos rfl]
  have hwhole : ∀ part ∈ dir.parts, '/' ∉ part := fun part hpart => whole_of_mem_split hpart
  have hroot : firstComponent? [] (split rest).isEmpty = some .root := by
    rw [List.isEmpty_eq_false_iff.mpr (split_ne_nil rest)]
    rfl
  have hlast : ((split rest).filterMap componentOf?).getLast? = some (.name name) := by
    rw [fileName, components, hparts, componentsOfParts, hroot] at h
    cases hlast : ((split rest).filterMap componentOf?).getLast? with
    | none =>
        rw [List.getLast?_eq_none_iff.mp hlast] at h
        exact absurd h (by simp)
    | some component =>
        rw [List.getLast?_append, hlast] at h
        cases component <;> simp_all
  obtain ⟨init, hinit⟩ := List.getLast?_eq_some_iff.mp hlast
  -- The name is the last component, so what stands behind its part is no component.
  obtain ⟨before, others, hsplit, -, hothers⟩ := List.filterMap_eq_append_iff.mp hinit
  obtain ⟨voids, part, after, rfl, hvoids, hpart, hafter⟩ := List.filterMap_eq_cons_iff.mp hothers
  have hmem : part ∈ dir.parts := by simp [hparts, hsplit]
  obtain ⟨rfl, hspeaks, hdescends⟩ := eq_of_componentOf? hpart
  refine ⟨before ++ voids, after, ?_, fun part hpart => ?_, ⟨hspeaks, hwhole part hmem⟩, hdescends⟩
  · rw [hparts, hsplit, List.cons_append, List.append_assoc]
  · exact componentOf?_eq_none_iff.mp (List.filterMap_eq_nil_iff.mp hafter part hpart)

theorem fileName_of_parts (h : Parts dir before name after) : dir.fileName = some name := by
  have hname : componentOf? name = some (.name name) := by
    rw [componentOf?, h.isName.speaks, if_neg Bool.false_ne_true, if_neg h.descends]
  have hafter : after.filterMap componentOf? = [] :=
    List.filterMap_eq_nil_iff.mpr fun part hpart =>
      componentOf?_eq_none_iff.mpr (h.void part hpart)
  rw [fileName, components, h.parts, List.cons_append, componentsOfParts, List.filterMap_append,
    List.filterMap_cons_some hname, hafter, ← List.append_assoc, List.getLast?_concat]

theorem dropVoid_append {voids : List (List Char)} (hvoids : ∀ part ∈ voids, isVoid part)
    (hnames : names ≠ []) : dropVoid (voids ++ names) = dropVoid names := by
  induction voids with
  | nil => rfl
  | cons first voids ih =>
      obtain ⟨hfirst, hvoids⟩ := List.forall_mem_cons.mp hvoids
      rw [List.cons_append, dropVoid, if_pos hfirst, ih hvoids]
      simp [hnames]

theorem exists_dropVoid (names : List (List Char)) :
    ∃ voids, names = voids ++ dropVoid names ∧ ∀ part ∈ voids, isVoid part := by
  induction names with
  | nil => exact ⟨[], rfl, by simp⟩
  | cons first rest ih =>
      obtain ⟨voids, hvoids, hall⟩ := ih
      cases rest with
      | nil => exact ⟨[], rfl, by simp⟩
      | cons second rest =>
          rw [dropVoid]
          · by_cases hfirst : isVoid first = true
            · rw [if_pos hfirst]
              refine ⟨first :: voids, by rw [List.cons_append, ← hvoids], ?_⟩
              exact List.forall_mem_cons.mpr ⟨hfirst, hall⟩
            · rw [if_neg hfirst]
              exact ⟨[], rfl, by simp⟩
          · exact List.cons_ne_nil _ _

/-- The parts of the directory in which another one lies, given what leads there from the root. -/
def outer (before : List (List Char)) : List (List Char) := (dropVoid ([] :: before).reverse).reverse

theorem parent_of_parts (h : Parts dir before name after) :
    dir.parent = some (ofParts (outer before)) := by
  have hdrop : dropVoid dir.parts.reverse = name :: ([] :: before).reverse := by
    rw [h.parts, List.reverse_append, List.reverse_cons, List.append_assoc,
      dropVoid_append (fun part hpart => h.void part (List.mem_reverse.mp hpart)) (by simp),
      List.singleton_append, dropVoid_cons h.isName]
  rw [parent, hdrop, outer]
  cases hreverse : ([] :: before).reverse with
  | nil => exact absurd hreverse (by simp)
  | cons first rest => rfl

/-- The text with which the directory begins in which another one lies. -/
def base (before : List (List Char)) : List Char := joinParts (outer before) ++ ['/']

theorem exists_outer (before : List (List Char)) : ∃ voids, (∀ part ∈ voids, isVoid part) ∧
    [] :: before = outer before ++ voids := by
  obtain ⟨voids, hvoids, hall⟩ := exists_dropVoid ([] :: before).reverse
  refine ⟨voids.reverse, fun part hpart => hall part (List.mem_reverse.mp hpart), ?_⟩
  rw [outer, ← List.reverse_append, ← hvoids, List.reverse_reverse]

theorem exists_cons_of_dropVoid (hnames : names ≠ []) : ∃ first rest,
    dropVoid names = first :: rest ∧ (rest = [] ∨ isVoid first = false) := by
  induction names with
  | nil => exact absurd rfl hnames
  | cons first rest ih =>
      cases rest with
      | nil => exact ⟨first, [], rfl, .inl rfl⟩
      | cons second rest =>
          rw [dropVoid]
          · split
            · exact ih (List.cons_ne_nil _ _)
            · next hspeaks => exact ⟨first, second :: rest, rfl, .inr (Bool.not_eq_true _ ▸ hspeaks)⟩
          · exact List.cons_ne_nil _ _

theorem outer_cases (before : List (List Char)) : outer before = [[]] ∨
    ∃ init last, outer before = [] :: init ++ [last] ∧ isVoid last = false := by
  obtain ⟨voids, -, houter⟩ := exists_outer before
  obtain ⟨first, rest, hdrop, hrest⟩ :=
    exists_cons_of_dropVoid (List.reverse_ne_nil_iff.mpr (List.cons_ne_nil [] before))
  rw [outer, hdrop, List.reverse_cons] at houter ⊢
  cases hreverse : rest.reverse with
  | nil =>
      rw [hreverse] at houter
      have hfirst : [] = first := (List.cons.inj houter).1
      exact .inl (by rw [← hfirst, List.nil_append])
  | cons root init =>
      rw [hreverse] at houter
      have hroot : [] = root := (List.cons.inj houter).1
      refine .inr ⟨init, first, by rw [hroot], hrest.resolve_left ?_⟩
      rintro rfl
      exact absurd hreverse (by simp)

theorem text_stagingDir (h : Parts dir before name after) :
    (stagingDir dir).text.toList = base before ++ stagedName name := by
  have hstaged : IsName (stagedName name) := isName_stagedName h.isName
  have htext : "." ++ String.ofList name ++ ".staging" = String.ofList (stagedName name) := by
    rw [← String.toList_inj]
    simp [stagedName]
  have hstaging : stagingDir dir = (ofParts (outer before)).join ⟨String.ofList (stagedName name)⟩ := by
    rw [← htext]
    simp only [stagingDir, withFileName, fileName_of_parts h, parent_of_parts h, Option.map_some,
      Option.getD_some]
  obtain ⟨voids, -, houter⟩ := exists_outer before
  have hwhole : ∀ part ∈ outer before, '/' ∉ part := fun part hpart => whole_of_mem_split
    (show part ∈ dir.parts by rw [h.parts, houter]; simp [hpart])
  rw [hstaging, toList_join _ hstaged, base]
  congr 1
  -- The root ends in a separator already, any other directory does not.
  rcases outer_cases before with hroot | ⟨init, last, hinner, hlast⟩
  · rw [hroot]
    rfl
  · have hname : IsName last := ⟨hlast, hwhole last (by simp [hinner])⟩
    have hjoin : joinParts (outer before) = joinParts ([] :: init) ++ '/' :: last := by
      rw [hinner, joinParts_append (by simp) (by simp)]
      rfl
    have hparts : (ofParts (outer before)).text.toList = joinParts (outer before) := by
      rw [hinner, ofParts]
      · rw [String.toList_ofList]
      · simp
    rw [hparts, if_neg]
    rw [hjoin, not_or]
    refine ⟨by simp, fun hends => hname.whole (List.mem_of_getLast? ?_)⟩
    rwa [List.append_cons, List.getLast?_append_of_ne_nil _ hname.ne_nil] at hends

theorem exists_inner (h : Parts dir before name after) : ∃ voids, (∀ part ∈ voids, isVoid part) ∧
    dir.text.toList = base before ++ joinParts (voids ++ name :: after) := by
  obtain ⟨voids, hvoids, houter⟩ := exists_outer before
  have hne : outer before ≠ [] := by
    rcases outer_cases before with hroot | ⟨init, last, hinner, -⟩ <;> simp [*]
  refine ⟨voids, hvoids, ?_⟩
  rw [base, List.append_assoc, List.singleton_append, ← joinParts_append hne (by simp),
    ← List.append_assoc, ← houter, ← h.parts, parts, joinParts_split]

/-- A path has no separator at its end. -/
def Bare (p : Path) : Prop := ∃ c, p.text.toList.getLast? = some c ∧ c ≠ '/' ∧ c ≠ '\\'

theorem exists_last (front : List (List Char)) (hname : IsName name) (hwritten : '\\' ∉ name)
    (hafter : ∀ part ∈ after, isVoid part) : ∃ after' spare, (∀ part ∈ after', isVoid part) ∧
      joinParts (front ++ name :: after) =
        joinParts (front ++ name :: after') ++ List.replicate spare '/' ∧
      ∃ c, (joinParts (front ++ name :: after')).getLast? = some c ∧ c ≠ '/' ∧ c ≠ '\\' := by
  induction after using List.reverseRecOn with
  | nil =>
      obtain ⟨init, c, hlast⟩ := (List.eq_nil_or_concat' name).resolve_left hname.ne_nil
      have hc : c ∈ name := by simp [hlast]
      refine ⟨[], 0, by simp, by simp, c, ?_, fun heq => hname.whole (heq ▸ hc),
        fun heq => hwritten (heq ▸ hc)⟩
      rw [joinParts_concat, hlast, ← List.append_assoc, List.getLast?_concat]
  | append_singleton after part ih =>
      have hjoin : joinParts (front ++ name :: (after ++ [part])) =
          joinParts (front ++ name :: after) ++ '/' :: part := by
        rw [← List.cons_append, ← List.append_assoc, joinParts_append (by simp) (by simp)]
        rfl
      obtain ⟨after', spare, hvoid, heq, hlast⟩ :=
        ih fun part hpart => hafter part (List.mem_append_left _ hpart)
      -- An empty part is one more separator; a dot is no separator, so nothing is to spare behind it.
      rcases isVoid_iff.mp (hafter part (by simp)) with rfl | rfl
      · refine ⟨after', spare + 1, hvoid, ?_, hlast⟩
        rw [hjoin, heq, List.replicate_succ', List.append_assoc]
      · refine ⟨after ++ [['.']], 0, hafter, by simp, '.', ?_, by decide, by decide⟩
        rw [hjoin, List.append_cons, List.getLast?_concat]

theorem exists_bare (h : Parts dir before name after) (hwritten : '\\' ∉ name) :
    ∃ bare after' spare, Parts bare before name after' ∧ Bare bare ∧
      dir.text.toList = bare.text.toList ++ List.replicate spare '/' := by
  obtain ⟨after', spare, hvoid, heq, hlast⟩ :=
    exists_last ([] :: before) h.isName hwritten h.void
  have hwhole : ∀ part ∈ [] :: before ++ name :: after', '/' ∉ part := by
    intro part hpart
    rw [List.append_cons, List.mem_append] at hpart
    rcases hpart with hpart | hpart
    · refine whole_of_mem_split (show part ∈ dir.parts from ?_)
      rw [h.parts, List.append_cons]
      exact List.mem_append_left _ hpart
    · rcases isVoid_iff.mp (hvoid part hpart) with rfl | rfl <;> decide
  refine ⟨⟨String.ofList (joinParts ([] :: before ++ name :: after'))⟩, after', spare,
    ⟨?_, hvoid, h.isName, h.descends⟩, ?_, ?_⟩
  · rw [parts, String.toList_ofList, split_joinParts (by simp) hwhole]
  · rwa [Bare, String.toList_ofList]
  · rw [String.toList_ofList, ← heq, ← h.parts, parts, joinParts_split]

variable {bare : Path} {spare : Nat} {key : String} {entries : List (String × ByteArray)}

theorem toList_slashed (p : Path) : p.slashed.toList = slashes p.text.toList := by
  rw [slashed, String.toList_ofList, slashes]

theorem Bare.strip_slashed (h : Bare bare) :
    strip bare.slashed.toList = slashes bare.text.toList := by
  obtain ⟨c, hlast, hslash, hback⟩ := h
  rw [toList_slashed, strip, List.rdropWhile_eq_self_iff]
  intro hne
  obtain ⟨init, hinit⟩ := List.getLast?_eq_some_iff.mp hlast
  simp [slashes, hinit, hslash, hback]

theorem Bare.slashed_ne_nil (h : Bare bare) : bare.slashed.toList ≠ [] := by
  obtain ⟨c, hlast, -⟩ := h
  rw [toList_slashed, slashes, Ne, List.map_eq_nil_iff]
  rintro hnil
  rw [hnil] at hlast
  exact absurd hlast (by simp)

theorem Bare.toList_keyOf (h : Bare bare) : (keyOf bare).toList = slashes bare.text.toList := by
  have hne : slashes bare.text.toList ≠ [] := toList_slashed bare ▸ h.slashed_ne_nil
  rw [StoreRegions.toList_keyOf h.slashed_ne_nil, h.strip_slashed, if_neg hne]

theorem Bare.toList_prefixOf (h : Bare bare) :
    (prefixOf (keyOf bare)).toList = slashes bare.text.toList ++ ['/'] := by
  rw [toList_prefixOf_keyOf h.slashed_ne_nil, h.strip_slashed]

theorem slashes_replicate (spare : Nat) :
    slashes (List.replicate spare '/') = List.replicate spare '/' := by
  simp [slashes]

theorem keyOf_eq (hbare : Bare bare)
    (htext : dir.text.toList = bare.text.toList ++ List.replicate spare '/') :
    keyOf dir = keyOf bare := by
  have hslashed : dir.slashed.toList = slashes bare.text.toList ++ List.replicate spare '/' := by
    rw [toList_slashed, htext, slashes, List.map_append, ← slashes, ← slashes, slashes_replicate]
  have hne : slashes bare.text.toList ≠ [] := toList_slashed bare ▸ hbare.slashed_ne_nil
  have hspare : strip (List.replicate spare '/') = [] := by
    rw [strip_eq_nil_iff]
    exact fun c hc => List.eq_of_mem_replicate hc
  rw [← String.toList_inj, StoreRegions.toList_keyOf (by simp [hslashed, hne]), hslashed, strip_append,
    hspare, if_pos rfl, ← toList_slashed, hbare.strip_slashed, if_neg hne, hbare.toList_keyOf]

theorem text_join {file : String} (hbare : Bare bare)
    (htext : dir.text.toList = bare.text.toList ++ List.replicate spare '/')
    (hrelative : (Path.mk file).isAbsolute = false) : (dir.join ⟨file⟩).text.toList =
      bare.text.toList ++ '/' :: List.replicate (spare - 1) '/' ++ file.toList := by
  obtain ⟨c, hlast, hslash, -⟩ := hbare
  obtain ⟨init, hinit⟩ := List.getLast?_eq_some_iff.mp hlast
  have hne : dir.text ≠ "" := by
    rintro hnil
    rw [hnil, hinit] at htext
    exact absurd htext (by simp)
  rw [Path.join, if_neg (Bool.eq_false_iff.mp hrelative)]
  cases spare with
  | zero =>
      have hend : ¬ (dir.text = "" || dir.text.toList.getLast? == some '/') = true := by
        simp [hne, htext, hinit, hslash]
      rw [if_neg hend]
      simp [htext]
  | succ spare =>
      have hend : (dir.text = "" || dir.text.toList.getLast? == some '/') = true := by
        simp [htext, List.replicate_succ']
      rw [if_pos hend]
      simp [htext, List.replicate_succ]

theorem trails_of_bare (hbare : Bare bare)
    (htext : dir.text.toList = bare.text.toList ++ List.replicate spare '/')
    (hfiles : ∀ e ∈ entries, (Path.mk e.1).isAbsolute = false ∧ Verbatim e.1.toList) :
    Trails dir entries (String.ofList (List.replicate (spare - 1) '/')) := by
  intro e he
  obtain ⟨hrelative, hverbatim⟩ := hfiles e he
  rw [← String.toList_inj, toList_keyOf_verbatim hverbatim (text_join hbare htext hrelative),
    keyOf_eq hbare htext, String.toList_append, String.toList_append, hbare.toList_prefixOf,
    String.toList_ofList]
  simp [slashes]

theorem joins_of_bare (hbare : Bare bare)
    (hfiles : ∀ e ∈ entries, (Path.mk e.1).isAbsolute = false ∧ Verbatim e.1.toList) :
    Joins bare entries := by
  have htext : bare.text.toList = bare.text.toList ++ List.replicate 0 '/' :=
    (List.append_nil _).symm
  intro e he
  rw [trails_of_bare hbare htext hfiles e he]
  simp

theorem Bare.not_below (hbare : Bare bare) : ¬ Below bare (keyOf bare) := by
  intro h
  rw [Below, hasPrefix_iff, hbare.toList_prefixOf, hbare.toList_keyOf] at h
  have hlength := h.length_le
  rw [List.length_append, List.length_singleton] at hlength
  omega

def Stops (rest : List Char) : Prop := rest = [] ∨ ∃ more, rest = '/' :: more

theorem head?_split {rest : List Char} (hwhole : '/' ∉ part) (hrest : Stops rest) :
    (split (part ++ rest)).head? = some part := by
  rcases hrest with rfl | ⟨more, rfl⟩
  · rw [List.append_nil, split_of_whole hwhole, List.head?_cons]
  · rw [split_append _ hwhole, List.head?_cons]

theorem Bare.exists_of_within (hbare : Bare bare) (h : Within bare key) :
    ∃ rest, Stops rest ∧ key.toList = slashes bare.text.toList ++ rest := by
  rcases h with h | h
  · exact ⟨[], .inl rfl, by rw [h, hbare.toList_keyOf, List.append_nil]⟩
  · rw [hasPrefix_iff, hbare.toList_prefixOf] at h
    obtain ⟨rest, hrest⟩ := h
    exact ⟨'/' :: rest, .inr ⟨rest, rfl⟩, by simp [← hrest]⟩

theorem exists_first {voids : List (List Char)} (hvoids : ∀ part ∈ voids, isVoid part)
    (hname : IsName name) (hwritten : '\\' ∉ name) (after : List (List Char)) :
    ∃ first rest, joinParts (voids ++ name :: after) = first ++ rest ∧ Stops rest ∧ '/' ∉ first ∧
      '\\' ∉ first ∧ first ≠ stagedName name := by
  have hstops : ∀ first others, ∃ rest, joinParts (first :: others) = first ++ rest ∧ Stops rest := by
    intro first others
    cases others with
    | nil => exact ⟨[], (List.append_nil first).symm, .inl rfl⟩
    | cons second others => exact ⟨_, rfl, .inr ⟨_, rfl⟩⟩
  cases voids with
  | nil =>
      obtain ⟨rest, hjoin, hrest⟩ := hstops name after
      refine ⟨name, rest, hjoin, hrest, hname.whole, hwritten, fun heq => ?_⟩
      have hlength := congrArg List.length heq
      simp [stagedName] at hlength
      omega
  | cons first voids =>
      obtain ⟨rest, hjoin, hrest⟩ := hstops first (voids ++ name :: after)
      refine ⟨first, rest, hjoin, hrest, ?_⟩
      rcases isVoid_iff.mp (hvoids first (by simp)) with rfl | rfl
      · simp [stagedName]
      · simp [stagedName, hname.ne_nil]

theorem bare_stagingDir (h : Parts dir before name after) : Bare (stagingDir dir) := by
  refine ⟨'g', ?_, by decide, by decide⟩
  rw [text_stagingDir h, stagedName, ← List.append_assoc,
    List.getLast?_append_of_ne_nil _ (by decide)]
  decide

/-- The staging directory beside an absolute directory with a name without backslashes is not in it. -/
theorem apart_of_parts (h : Parts dir before name after) (hwritten : '\\' ∉ name)
    (hkey : Within (stagingDir dir) key) : ¬ Within dir key := by
  intro hkey'
  obtain ⟨bare, after', spare, hparts, hbare, htext⟩ := exists_bare h hwritten
  have hstaged : IsName (stagedName name) := isName_stagedName h.isName
  have hwritten' : '\\' ∉ stagedName name := by simp [stagedName, hwritten]
  obtain ⟨voids, hvoids, hinner⟩ := exists_inner hparts
  obtain ⟨first, more, hfirst, hmore, hwhole, hplain, hne⟩ :=
    exists_first hvoids h.isName hwritten after'
  rw [Within, keyOf_eq hbare htext] at hkey'
  obtain ⟨rest, hrest, hstaging⟩ := (bare_stagingDir h).exists_of_within hkey
  obtain ⟨rest', hrest', hdir⟩ := hbare.exists_of_within hkey'
  -- Behind the base that the two share, a key in both would go on with two different parts.
  rw [text_stagingDir h, slashes, List.map_append, ← slashes, ← slashes, slashes_eq_self hwritten',
    List.append_assoc] at hstaging
  rw [hinner, hfirst, slashes, List.map_append, List.map_append, ← slashes, ← slashes, ← slashes,
    slashes_eq_self hplain, List.append_assoc, List.append_assoc] at hdir
  have hrests := List.append_cancel_left (hstaging.symm.trans hdir)
  have hstops : Stops (slashes more ++ rest') := by
    rcases hmore with rfl | ⟨other, rfl⟩
    · exact hrest'
    · exact .inr ⟨slashes other ++ rest', rfl⟩
  have hhead := head?_split hstaged.whole hrest
  rw [hrests, head?_split hwhole hstops] at hhead
  exact hne (Option.some.inj hhead)

end WebBundle.Proofs.OutputDirectories

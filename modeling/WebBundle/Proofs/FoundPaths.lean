import Mathlib.Data.List.Basic
import Mathlib.Data.Set.Finite.List
import WebBundle.Proofs.PathLocations
import WebBundle.Proofs.ResolvedFiles

/-!
The paths under which the files of a store are found. A store takes a backslash for a separator and ignores
separators at the end, but resolution takes it for a part of a name, so one file may be found under many
paths. They are finitely many if the backslashes at the end are bounded.
-/

namespace WebBundle.Proofs.FoundPaths

open MemoryStore
open Resolver
open WebBundle.Proofs.PathLocations
open WebBundle.Proofs.ResolvedFiles
open WebBundle.Proofs.TidyPaths

/-- Whether a store takes a character for a separator. -/
def isSeparator (c : Char) : Bool := c == '/' || c == '\\'

/-- The separators at the end of a text, the last one first. -/
def endRun (text : List Char) : List Char := text.reverse.takeWhile isSeparator

/-- How many of the separators at the end of a path are backslashes. -/
def strays (p : Path) : Nat := (endRun p.text.toList).count '\\'

/-- A path that is tried: a tidy one, perhaps with an extension. -/
def Tried (r : Resolver) (p : Path) : Prop :=
  ∃ base ending, Tidy base ∧ ending ∈ "" :: r.extensions ∧ p.text = base.text ++ ending

/-- The paths under which the files of a store are found, with so few backslashes at the end. -/
def foundPaths (s : FaultyStore) (r : Resolver) (bound : Nat) : Set Path :=
  {path | (s.view.isFile path).run = true ∧ Tried r path ∧ strays path ≤ bound}

variable {r : Resolver} {view : FileView Id} {s : FaultyStore} {base dir path : Path}
  {front rear : List Char} {names : List (List Char)} {specifier : String}

theorem endRun_append_of_all (h : ∀ c ∈ rear, isSeparator c = true) :
    endRun (front ++ rear) = rear.reverse ++ endRun front := by
  rw [endRun, List.reverse_append, List.takeWhile_append_of_pos, endRun]
  exact fun c hc => h c (List.mem_reverse.mp hc)

theorem endRun_append_of_some {c : Char} (hc : c ∈ rear) (h : isSeparator c = false) :
    endRun (front ++ rear) = endRun rear := by
  obtain ⟨before, after, rfl⟩ := List.append_of_mem hc
  have hstop (text : List Char) : endRun (text ++ c :: after) = endRun (c :: after) := by
    rw [endRun, endRun, List.reverse_append, List.reverse_cons, List.append_assoc]
    simp [List.takeWhile_append, h]
  rw [← List.append_assoc, hstop, hstop]

theorem length_endRun_le (text : List Char) : (endRun text).length ≤ text.length := by
  calc (endRun text).length ≤ text.reverse.length := (List.takeWhile_prefix _).length_le
    _ = text.length := List.length_reverse

theorem eq_backslash {c : Char} (h : isSeparator c = true) (hne : c ≠ '/') : c = '\\' := by
  simpa [isSeparator, hne] using h

theorem count_endRun (h : '/' ∉ rear) : (endRun rear).count '\\' = (endRun rear).length := by
  rw [List.count_eq_length]
  intro c hc
  have hmem : c ∈ rear := List.mem_reverse.mp ((List.takeWhile_sublist _).mem hc)
  exact (eq_backslash (List.mem_takeWhile_imp hc) fun heq => h (heq ▸ hmem)).symm

theorem lead_eq {init : List (List Char)} (absolute : Bool) (hinit : init ≠ []) :
    lead absolute init = (ofNames absolute init).text.toList ++ ['/'] := by
  simp [lead, ofNames, hinit]

theorem endRun_lead (absolute : Bool) (init : List (List Char)) : endRun (lead absolute init) =
    endRun (ofNames absolute init).text.toList ∨
      endRun (lead absolute init) = '/' :: endRun (ofNames absolute init).text.toList := by
  by_cases hinit : init = []
  · subst hinit
    exact .inl (by simp [lead, ofNames, Path.joinParts])
  · rw [lead_eq absolute hinit, endRun_append_of_all (by simp [isSeparator])]
    exact .inr rfl

/-- No two slashes of a tidy path stand side by side, so of the separators at its end at most every second
one is a slash. -/
theorem length_endRun_ofNames (absolute : Bool) (h : ∀ name ∈ names, IsName name) :
    (endRun (ofNames absolute names).text.toList).length ≤ 2 * strays (ofNames absolute names) + 1 := by
  induction names using List.reverseRecOn with
  | nil =>
      refine (length_endRun_le _).trans ?_
      cases absolute <;> simp [ofNames, Path.joinParts]
  | append_singleton init last ih =>
      have hlast : IsName last := h last (by simp)
      rw [strays, text_concat]
      by_cases hall : ∀ c ∈ last, isSeparator c = true
      · have hcount : last.reverse.count '\\' = last.length := by
          rw [List.count_reverse, List.count_eq_length]
          exact fun c hc => (eq_backslash (hall c hc) fun heq => hlast.whole (heq ▸ hc)).symm
        have hpos : 0 < last.length := List.length_pos_iff.mpr hlast.ne_nil
        have hinit := ih fun name hname => h name (by simp [hname])
        rw [strays] at hinit
        rw [endRun_append_of_all hall, List.length_append, List.count_append, hcount,
          List.length_reverse]
        rcases endRun_lead absolute init with heq | heq
        · rw [heq]
          omega
        · rw [heq, List.length_cons, List.count_cons_of_ne (by decide)]
          omega
      · obtain ⟨c, hc, hno⟩ : ∃ c ∈ last, isSeparator c = false := by simpa using hall
        rw [endRun_append_of_some hc hno, count_endRun hlast.whole]
        omega

theorem length_endRun_of_tried (h : Tried r path) : ∃ ending ∈ "" :: r.extensions,
    (endRun path.text.toList).length ≤ 2 * strays path + 1 + ending.toList.length := by
  obtain ⟨base, ending, ⟨absolute, names, hnames, rfl⟩, hending, htext⟩ := h
  have hbase := length_endRun_ofNames absolute hnames
  refine ⟨ending, hending, ?_⟩
  rw [strays] at hbase ⊢
  rw [htext, String.toList_append]
  by_cases hall : ∀ c ∈ ending.toList, isSeparator c = true
  · rw [endRun_append_of_all hall, List.length_append, List.count_append, List.length_reverse]
    omega
  · obtain ⟨c, hc, hno⟩ : ∃ c ∈ ending.toList, isSeparator c = false := by simpa using hall
    rw [endRun_append_of_some hc hno]
    exact (length_endRun_le _).trans (Nat.le_add_left _ _)

theorem tried_of_mem_fileProbes (hbase : Tidy base) (h : path ∈ r.fileProbes base) : Tried r path := by
  rcases List.mem_cons.mp h with rfl | h
  · exact ⟨path, "", hbase, List.mem_cons_self, by simp⟩
  · obtain ⟨ending, hending, rfl⟩ := List.mem_map.mp h
    exact ⟨base, ending, hbase, List.mem_cons_of_mem _ hending, rfl⟩

theorem tried_of_mem_indexProbes (hdir : Tidy dir) (h : path ∈ r.indexProbes dir) : Tried r path := by
  obtain ⟨ending, hending, rfl⟩ := List.mem_map.mp h
  have hname : IsName "index".toList := isName_iff.mpr (by decide)
  refine ⟨dir.join ⟨"index"⟩, ending, tidy_join hdir hname, List.mem_cons_of_mem _ hending, ?_⟩
  have hrelative (rest : String) : (Path.mk ("index" ++ rest)).isAbsolute = false := by
    simp [Path.isAbsolute]
  have hplain : (Path.mk "index").isAbsolute = false := by decide
  rw [Path.join, Path.join, hrelative, hplain, if_neg Bool.false_ne_true, if_neg Bool.false_ne_true]
  split <;> simp only [String.append_assoc]

/-- A specifier that is resolved to a file leads to a path that was tried, with the query of the
specifier. -/
theorem tried_of_resolve {directory : Path} {query : Option String}
    (h : (r.resolve view specifier directory).run = .ok (.file path query)) :
    Tried r path ∧ query = (splitQuery specifier).2 := by
  obtain ⟨-, hquery, base, hbase, hfile | hindex⟩ := probed_of_resolve h
  · exact ⟨tried_of_mem_fileProbes hbase hfile, hquery⟩
  · exact ⟨tried_of_mem_indexProbes hbase hindex, hquery⟩

theorem length_le_keyOf (p : Path) :
    p.text.toList.length ≤ (keyOf p).toList.length + (endRun p.text.toList).length := by
  have hslashed : p.slashed.toList.reverse =
      p.text.toList.reverse.map fun c => if c = '\\' then '/' else c := by
    rw [Path.slashed, String.toList_ofList, List.map_reverse]
  have hsame : ((fun c => c == '/') ∘ fun c => if c = '\\' then '/' else c) = isSeparator := by
    funext c
    by_cases hc : c = '\\' <;> simp [isSeparator, hc]
  have hsplit := congrArg List.length (List.takeWhile_append_dropWhile
    (p := fun c => c == '/') (l := p.slashed.toList.reverse))
  have hrun : (p.slashed.toList.reverse.takeWhile fun c => c == '/').length =
      (endRun p.text.toList).length := by
    rw [hslashed, List.takeWhile_map, hsame, List.length_map, endRun]
  have hlength : p.slashed.toList.reverse.length = p.text.toList.length := by
    rw [hslashed, List.length_map, List.length_reverse]
  have hkey : (p.slashed.toList.reverse.dropWhile fun c => c == '/').length ≤
      (keyOf p).toList.length := by
    rw [keyOf]
    split
    · next hnil => simp [List.reverse_eq_nil_iff.mp hnil]
    · rw [String.toList_ofList, List.length_reverse]
  rw [List.length_append, hrun, hlength] at hsplit
  omega

instance instFiniteChar : Finite Char := Finite.of_injective Char.ordinal Char.ordinal_injective

theorem finite_short (bound : Nat) : {p : Path | p.text.toList.length ≤ bound}.Finite := by
  refine (List.finite_length_le Char bound).preimage (f := fun p : Path => p.text.toList) ?_
  exact fun _ _ _ _ heq => eq_of_toList heq

theorem finite_foundPaths (s : FaultyStore) (r : Resolver) (bound : Nat) :
    (foundPaths s r bound).Finite := by
  have hshort : (⋃ key ∈ {key | key ∈ s.store.files.keys}, ⋃ ending ∈ {e | e ∈ "" :: r.extensions},
      {p : Path | p.text.toList.length ≤
        key.toList.length + (2 * bound + 1 + ending.toList.length)}).Finite :=
    (List.finite_toSet _).biUnion fun key _ => (List.finite_toSet _).biUnion fun ending _ =>
      finite_short _
  refine hshort.subset ?_
  rintro path ⟨hfile, htried, hbound⟩
  obtain ⟨entry, hentry, hkey⟩ := List.any_eq_true.mp hfile
  have hmem : keyOf path ∈ s.store.files.keys := eq_of_beq hkey ▸ List.mem_map_of_mem hentry
  obtain ⟨ending, hending, hrun⟩ := length_endRun_of_tried htried
  have hlength := length_le_keyOf path
  refine Set.mem_biUnion hmem (Set.mem_biUnion hending ?_)
  change path.text.toList.length ≤ _
  omega

/-- An absolute path with so many names of backslashes behind it. -/
def deeper (names : List (List Char)) (count : Nat) : Path :=
  spot true false (names ++ List.replicate count ['\\', '\\'])

variable {count : Nat}

theorem isPlain_of_mem_deeper (h : ∀ name ∈ names, IsPlain name) (count : Nat) :
    ∀ name ∈ names ++ List.replicate count ['\\', '\\'], IsPlain name := by
  intro name hname
  rcases List.mem_append.mp hname with hname | hname
  · exact h name hname
  · obtain rfl := List.eq_of_mem_replicate hname
    exact ⟨⟨by decide, by decide⟩, by decide⟩

theorem isName_of_mem_deeper (h : ∀ name ∈ names, IsPlain name) (count : Nat) :
    ∀ name ∈ names ++ List.replicate count ['\\', '\\'], IsName name :=
  fun name hname => (isPlain_of_mem_deeper h count name hname).isName

theorem deeper_concat (names : List (List Char)) (count : Nat) : deeper names (count + 1) =
    ofNames true (names ++ List.replicate count ['\\', '\\'] ++ [['\\', '\\']]) := by
  rw [deeper, List.replicate_succ', ← List.append_assoc]
  rfl

theorem deeper_succ (h : ∀ name ∈ names, IsPlain name) (count : Nat) :
    deeper names (count + 1) = (deeper names count).push (.name ['\\', '\\']) := by
  rw [deeper_concat]
  exact (push_name (isName_of_mem_deeper h count) ⟨by decide, by decide⟩).symm

theorem parent_deeper (h : ∀ name ∈ names, IsPlain name) (count : Nat) :
    (deeper names (count + 1)).parent = some (deeper names count) := by
  have hnames := isName_of_mem_deeper h (count + 1)
  rw [List.replicate_succ', ← List.append_assoc] at hnames
  rw [deeper_concat]
  exact parent_concat hnames

theorem isAbsolute_deeper (h : ∀ name ∈ names, IsPlain name) (count : Nat) :
    (deeper names count).isAbsolute = true :=
  isAbsolute_spot (isPlain_of_mem_deeper h count)

theorem normalize_deeper (h : ∀ name ∈ names, IsPlain name) (count : Nat) :
    (deeper names count).normalize = deeper names count := by
  have hplain := isPlain_of_mem_deeper h count
  rw [deeper, normalize_eq_spot, isAbsolute_spot hplain, course_spot hplain]
  rfl

theorem slashed_deeper (hne : names ≠ []) (count : Nat) : (deeper names count).slashed.toList =
    (deeper names 0).slashed.toList ++ List.replicate (3 * count) '/' := by
  induction count with
  | zero => exact (List.append_nil _).symm
  | succ count ih =>
      have htext : (deeper names (count + 1)).text.toList =
          (deeper names count).text.toList ++ ['/', '\\', '\\'] := by
        rw [deeper_concat, text_concat, lead_eq true (by simp [hne]), List.append_assoc]
        rfl
      rw [Path.slashed, String.toList_ofList] at ih ⊢
      rw [htext, List.map_append, ih, Nat.mul_succ, List.replicate_add, List.append_assoc]
      rfl

theorem slashed_deeper_injective (hne : names ≠ []) :
    Function.Injective fun count => (deeper names count).slashed := by
  intro count count' heq
  have hlength := congrArg (fun text => text.toList.length) heq
  dsimp only at hlength
  rw [slashed_deeper hne count, slashed_deeper hne count', List.length_append, List.length_append,
    List.length_replicate, List.length_replicate] at hlength
  omega

/-- A store takes all these paths for one. -/
theorem keyOf_deeper (hne : names ≠ []) (count : Nat) :
    keyOf (deeper names count) = keyOf (deeper names 0) := by
  have htrim : (deeper names count).slashed.toList.reverse.dropWhile (· == '/') =
      (deeper names 0).slashed.toList.reverse.dropWhile (· == '/') := by
    rw [slashed_deeper hne, List.reverse_append, List.reverse_replicate,
      List.dropWhile_append_of_pos (by simp)]
  have hstart : (deeper names 0).slashed.toList ≠ [] := by
    simp [Path.slashed, deeper, spot, ofNames]
  have hhead : (deeper names count).slashed.toList.head? = (deeper names 0).slashed.toList.head? := by
    rw [slashed_deeper hne, List.head?_append_of_ne_nil _ hstart]
  rw [keyOf, keyOf, htrim, hhead]

theorem candidates_deeper (h : ∀ name ∈ names, IsPlain name) {dirs : List Path}
    (hdirs : r.modulePaths = ⟨"\\\\"⟩ :: dirs) (count : Nat) :
    ∃ others, r.candidates "\\\\" (deeper names count) = deeper names (count + 2) :: others := by
  have hinner : PathLocations.inner ⟨"\\\\"⟩ = [.name ['\\', '\\']] := by decide
  have habsolute := isAbsolute_deeper h count
  have hrelative : (Path.mk "\\\\").isAbsolute = false := by decide
  have hfirst : (((deeper names count).join ⟨"\\\\"⟩).join ⟨"\\\\"⟩).normalize =
      deeper names (count + 2) := by
    rw [normalize_join (isAbsolute_join habsolute _) hrelative, normalize_join habsolute hrelative,
      hinner, normalize_deeper h, deeper_succ h, deeper_succ h]
    rfl
  obtain ⟨above, habove⟩ : ∃ above, (deeper names count).ancestors = deeper names count :: above := by
    rw [Path.ancestors]
    cases (deeper names count).text.length with
    | zero => exact ⟨[], rfl⟩
    | succ fuel =>
        rw [Path.ancestorsFrom]
        split
        · exact ⟨[], rfl⟩
        · exact ⟨_, rfl⟩
  rw [candidates, if_neg (by decide), if_neg (by decide), hdirs, List.flatMap_cons, if_neg (by decide),
    habove, List.map_cons, List.cons_append, hfirst]
  exact exists_eraseReps_cons _ _

end WebBundle.Proofs.FoundPaths

import WebBundle.Proofs.EmittedFiles
import WebBundle.Proofs.EntryFiles
import WebBundle.Proofs.ModuleNames
import WebBundle.Proofs.PlacedFiles
import WebBundle.Proofs.ResolvedFiles

namespace WebBundle.Proofs.KeptSources

open MemoryStore
open Output (stagingDir)
open WebBundle.Path (split joinParts)
open WebBundle.Proofs.ConfinedRuns
open WebBundle.Proofs.EntryFiles
open WebBundle.Proofs.ModuleNames
open WebBundle.Proofs.PlacedFiles
open WebBundle.Proofs.ResolvedFiles
open WebBundle.Proofs.StagedWrites
open WebBundle.Proofs.StoreRegions
open WebBundle.Proofs.TidyPaths
open WebBundle.Proofs.VerbatimNames

section Guarded

variable {p dir base source : Path} {front rear name : List Char}

theorem prefix_of_not_mem {start : List Char} (h : start ++ ['/'] <+: front ++ rear)
    (hrear : '/' ∉ rear) :
    start ++ ['/'] <+: front := by
  obtain ⟨rest, hrest⟩ := h
  rcases List.append_eq_append_iff.mp hrest with ⟨middle, hfront, -⟩ | ⟨middle, hstart, hmiddle⟩
  · exact ⟨middle, hfront.symm⟩
  · rcases List.eq_nil_or_concat middle with rfl | ⟨init, last, rfl⟩
    · exact ⟨[], by rw [hstart, List.append_nil, List.append_nil]⟩
    · rw [List.concat_eq_append, ← List.append_assoc] at hstart
      obtain rfl : '/' = last := by simpa using (List.append_inj' hstart rfl).2
      exact absurd (by simp [hmiddle]) hrear

theorem keyOf_isPrefix (h : '\\' ∉ p.text.toList) : (keyOf p).toList <+: p.text.toList := by
  have hslashed : p.slashed.toList = p.text.toList := by
    rw [Path.slashed, String.toList_ofList]
    exact slashes_eq_self h
  by_cases hempty : p.slashed.toList = []
  · simp [keyOf, hempty]
  · rw [toList_keyOf hempty, hslashed]
    rw [hslashed] at hempty
    split
    · next hstrip =>
        obtain ⟨first, rest, htext⟩ := List.exists_cons_of_ne_nil hempty
        obtain rfl : first = '/' := strip_eq_nil_iff.mp hstrip first (by simp [htext])
        exact ⟨rest, by rw [htext, List.singleton_append]⟩
    · exact List.rdropWhile_prefix _ _

theorem startsWith_of_textPrefix {absolute : Bool} {init : List (List Char)} (hbase : Tidy base)
    (hinit : ∀ part ∈ init ++ [name], IsName part)
    (h : (ofNames absolute (init ++ [name])).text.toList ++ ['/'] <+: base.text.toList ++ ['/']) :
    base.startsWith (ofNames absolute (init ++ [name])) = true := by
  have hparts : (ofNames absolute (init ++ [name])).parts <+: base.parts := by
    obtain ⟨rest, hrest⟩ := h
    have hsplit := congrArg split hrest
    rw [List.append_assoc, List.singleton_append, split_append_cons, split_append_cons] at hsplit
    rcases List.eq_nil_or_concat (split rest) with hnil | ⟨front, last, hlast⟩
    · exact absurd hnil (split_ne_nil rest)
    · rw [hlast, List.concat_eq_append, ← List.append_assoc] at hsplit
      exact ⟨front, (List.append_inj' hsplit rfl).1⟩
  have hne : init ++ [name] ≠ [] := by simp
  rw [parts_ofNames hinit hne] at hparts
  obtain ⟨absolute', names, hnames, rfl⟩ := hbase
  rw [startsWith_ofNames hnames, components_ofNames hinit]
  by_cases hempty : names = []
  · -- the parts of a path without names are all empty
    subst hempty
    have hname : name ∈ (ofNames absolute' []).parts := hparts.subset (by simp [spoken])
    have hnil : name = [] := by
      cases absolute' with
      | false => simpa [parts_here] using hname
      | true => simpa [parts_root] using hname
    exact absurd hnil (hinit name (by simp)).ne_nil
  · rw [parts_ofNames hnames hempty] at hparts
    exact hparts.map componentOf

theorem not_startsWith_of_check {c : Config} {entries : List (String × String)}
    {entry : String × String}
    (h : BuildPlan.checkOutputDir c entries = .ok ()) (hentry : entry ∈ entries) :
    (c.context.normalize.join ⟨entry.2⟩).normalize.startsWith c.outputDir = false := by
  unfold BuildPlan.checkOutputDir at h
  split at h
  · exact absurd h nofun
  · next hfind =>
      have hsource := List.find?_eq_none.mp hfind (c.context.normalize.join ⟨entry.2⟩).normalize
        (List.mem_cons_of_mem _ (List.mem_map.mpr ⟨entry, hentry, rfl⟩))
      exact Bool.eq_false_iff.mpr hsource

/-- A file that is found at the path of an entry, with an extension or as an index file. -/
def FoundAt (r : Resolver) (base source : Path) : Prop := source ∈ r.fileProbes base ∨
    source ∈ r.indexProbes base

theorem prefix_of_foundAt {r : Resolver} {start : List Char} (hr : Plain r.extensions)
    (h : FoundAt r base source)
    (hstart : start ++ ['/'] <+: source.text.toList) : start ++ ['/'] <+: base.text.toList ++
      ['/'] := by
  rcases h with h | h
  · rcases List.mem_cons.mp h with rfl | h
    · exact hstart.trans (List.prefix_append _ _)
    · obtain ⟨extension, hextension, rfl⟩ := List.mem_map.mp h
      rw [String.toList_append] at hstart
      exact (prefix_of_not_mem hstart (hr extension hextension).1).trans (List.prefix_append _ _)
  · obtain ⟨extension, hextension, rfl⟩ := List.mem_map.mp h
    have hname := isName_index (hr extension hextension).1
    rw [← String.ofList_toList (s := "index" ++ extension), toList_join base hname] at hstart
    have hbase := prefix_of_not_mem hstart hname.whole
    split at hbase
    · exact hbase.trans (List.prefix_append _ _)
    · exact hbase

theorem not_below_of_foundAt {c : Config} {r : Resolver} {entries : List (String × String)}
    {entry : String × String} (hcheck : BuildPlan.checkOutputDir c entries = .ok ())
      (hentry : entry ∈ entries)
    (hname : c.outputDir.fileName = some name) (hdir : '\\' ∉ c.outputDir.text.toList)
    (hsource : '\\' ∉ source.text.toList) (hr : Plain r.extensions)
    (h : FoundAt r (c.context.normalize.join ⟨entry.2⟩).normalize source) :
      ¬ Below c.outputDir (keyOf source) := by
  intro hbelow
  have hguarded := not_startsWith_of_check hcheck hentry
  obtain ⟨absolute, init, hinit, hconcat⟩ := exists_concat (tidy_normalize _) hname
  have hconcat : c.outputDir = ofNames absolute (init ++ [name]) := hconcat
  rw [hconcat] at hdir hbelow hguarded
  have htext := text_concat absolute init name
  rw [htext, List.mem_append, not_or] at hdir
  have hverbatim : Verbatim name := verbatim_of_isName (hinit name (by simp)) hdir.2
  rw [Below, hasPrefix_iff, toList_prefixOf_verbatim hverbatim htext, slashes_eq_self hdir.1,
    ← htext] at hbelow
  have hprefix := prefix_of_foundAt hr h (hbelow.trans (keyOf_isPrefix hsource))
  exact Bool.false_ne_true
    (hguarded.symm.trans (startsWith_of_textPrefix (tidy_normalize _) hinit hprefix))

end Guarded

section Kept

variable {dir : Path} {clean : Bool} {files : OutputFiles} {store : MemoryStore} {key : String}
  {content : ByteArray}

/-- An output leaves a stored file as it is: it puts the same bytes in its place, or it puts nothing
there and takes nothing away from there. -/
def Spared (dir : Path) (clean : Bool) (files : OutputFiles) (key : String)
    (content : ByteArray) : Prop :=
  placed dir files.entries key = some content ∨
    placed dir files.entries key = none ∧ ¬ Below (stagingDir dir) key ∧
      (clean = true → ¬ Below dir key)

theorem written_eq_some_iff (h : store.files.get? key = some content) :
    written dir clean files store key = some content ↔ Spared dir clean files key content := by
  rw [written, Spared]
  cases placed dir files.entries key with
  | some other => simp
  | none =>
      have hspared : (¬ Below (stagingDir dir) key ∧ (clean = true → ¬ Below dir key)) ↔
          ¬ (Below (stagingDir dir) key ∨ clean = true ∧ Below dir key) := by rw [not_or, not_and]
      rw [Option.none_or, hspared]
      by_cases hkey : Below (stagingDir dir) key ∨ clean = true ∧ Below dir key
      · rw [if_pos hkey]
        refine iff_of_false (by simp) fun hspared => ?_
        rcases hspared with hplaced | ⟨-, hfree⟩
        · exact absurd hplaced (by simp)
        · exact hfree hkey
      · rw [if_neg hkey]
        exact iff_of_true h (.inr ⟨rfl, hkey⟩)

theorem spared_iff_of_not_below (hfiles : Placeable dir files.entries) (h : ¬ Below dir key) :
    Spared dir clean files key content ↔ ¬ Below (stagingDir dir) key := by
  have hnone : placed dir files.entries key = none :=
    Option.not_isSome_iff_eq_none.mp fun hplaced => h (hfiles.joined.trails.below_of_placed hplaced)
  simp [Spared, hnone, h]

end Kept

section Runs

variable {c : Config} {registry : Registry} {cache : Option Cache} {s : FaultyStore}
  {result : BuildResult}

theorem plan_of_config {plan : BuildPlan} (h : BuildPlan.ofConfig c registry = .ok plan) :
    plan.entries = c.entry.entries ∧ Resolver.ofConfig c = .ok plan.project.resolver := by
  obtain ⟨_, -, h⟩ := EmittedFiles.ok_of_bind h
  obtain ⟨_, -, h⟩ := EmittedFiles.ok_of_bind h
  obtain ⟨_, -, h⟩ := EmittedFiles.ok_of_bind h
  obtain ⟨_, -, h⟩ := EmittedFiles.ok_of_bind h
  obtain ⟨resolver, hresolver, h⟩ := EmittedFiles.ok_of_bind h
  obtain ⟨_, -, h⟩ := EmittedFiles.ok_of_bind h
  obtain ⟨_, -, hplan⟩ := EmittedFiles.ok_of_bind h
  obtain rfl := Except.ok.inj hplan
  exact ⟨rfl, hresolver⟩

/-- What is stored after a run that succeeds. -/
theorem ran_written (hrun : (ran c registry FaultyStore.fileSystem cache s).1.1 = .ok result)
    (hfiles : Placeable c.outputDir result.files.entries)
    (hplain : s.store.files.get? (keyOf (stagingDir c.outputDir)) = none) (key : String) :
    (built c registry FaultyStore.fileSystem cache s).1.1 = .ok result ∧
      (ran c registry FaultyStore.fileSystem cache s).2.store.files.get? key =
        written c.outputDir c.output.clean result.files s.store key := by
  have hquiet := built_quiet backed_faulty c registry cache s
  rw [ran_eq] at hrun ⊢
  rcases hbuilt : built c registry FaultyStore.fileSystem cache s with ⟨⟨_ | made, next⟩, s'⟩
  · rw [hbuilt] at hrun
    exact absurd hrun nofun
  · rw [hbuilt] at hquiet hrun
    obtain rfl : s' = s := hquiet
    dsimp only at hrun ⊢
    rcases hwrite : ((Output.write FaultyStore.fileSystem c.outputDir c.output.clean made.files).run
      s').run with
      ⟨_ | _, s''⟩
    · rw [hwrite] at hrun
      exact absurd hrun nofun
    · rw [hwrite] at hrun
      obtain rfl := Except.ok.inj hrun
      exact ⟨rfl, write_placed backed_faulty hfiles hplain hwrite⟩

/-- The files to which entries are resolved are as before after a run that succeeds, if and only if
the output spares them. Those that are found at the path of their entry are lost below the staging
directory only. -/
theorem entry_kept_iff {name : List Char}
    (hrun : (ran c registry FaultyStore.fileSystem cache s).1.1 = .ok result)
    (hname : c.outputDir.fileName = some name) (hwritten : '\\' ∉ name)
    (hfiles : ∀ file ∈ result.files.entries, (Path.mk file.1).isAbsolute = false ∧
      Verbatim file.1.toList)
    (hplain : s.store.files.get? (keyOf (stagingDir c.outputDir)) = none) :
    ∀ entry ∈ c.entry.entries, ∃ resolver source query content, Resolver.ofConfig c = .ok resolver ∧
      ResolvesTo s.view resolver entry.2 source query ∧
        s.store.files.get? (keyOf source) = some content ∧
      ((ran c registry FaultyStore.fileSystem cache s).2.store.files.get? (keyOf source) =
        some content ↔
        Spared c.outputDir c.output.clean result.files (keyOf source) content) ∧
      (Plain resolver.extensions →
        FoundAt resolver (c.context.normalize.join ⟨entry.2⟩).normalize source →
        '\\' ∉ c.outputDir.text.toList → '\\' ∉ source.text.toList →
        ((ran c registry FaultyStore.fileSystem cache s).2.store.files.get? (keyOf source) =
          some content ↔
          ¬ Below (stagingDir c.outputDir) (keyOf source))) := by
  have hplaceable : Placeable c.outputDir result.files.entries :=
    placeable_of_verbatim (tidy_normalize _) hname hwritten hfiles
  have hbuilt := (ran_written hrun hplaceable hplain "").1
  obtain ⟨plan, hplan, hresolved⟩ := entries_resolved backed_faulty.quiet hbuilt
  obtain ⟨hentries, hresolver⟩ := plan_of_config hplan
  intro entry hentry
  obtain ⟨source, query, hsource⟩ := hresolved entry (hentries ▸ hentry)
  have hstored : s.store.files.contains (keyOf source) = true := isFile_of_resolve hsource
  obtain ⟨content, hcontent⟩ := contains_iff.mp hstored
  have hkept : (ran c registry FaultyStore.fileSystem cache s).2.store.files.get? (keyOf source) =
    some content ↔
      Spared c.outputDir c.output.clean result.files (keyOf source) content := by
    rw [(ran_written hrun hplaceable hplain _).2, written_eq_some_iff hcontent]
  refine ⟨plan.project.resolver, source, query, content, hresolver, hsource, hcontent, hkept, ?_⟩
  intro hextensions hfound hdir hslashes
  rw [hkept, spared_iff_of_not_below hplaceable]
  exact not_below_of_foundAt (ofConfig_checks hplan) hentry hname hdir hslashes hextensions hfound

end Runs

theorem exists_ok_of_any {ε α : Type} (P : α → Prop) [DecidablePred P] (result : Except ε α)
    (h : result.toOption.any (fun a => decide (P a)) = true) : ∃ a, result = .ok a ∧ P a := by
  cases result with
  | error e => exact absurd h Bool.false_ne_true
  | ok a => exact ⟨a, rfl, of_decide_eq_true h⟩

/-- A script and the output of an earlier run. -/
def oldOutput : FaultyStore where
  store := .ofFiles [(⟨"/p/e.js"⟩, "1".toUTF8), (⟨"/p/dist/old.js"⟩, "0".toUTF8)]

theorem relative_of_keys {files : OutputFiles}
    (hkeys : files.keys = ["main.bundle.js", "manifest.json"]) :
    ∀ file ∈ files.entries, (Path.mk file.1).isAbsolute = false ∧ Verbatim file.1.toList := by
  intro file hfile
  have hkey : file.1 ∈ files.keys := List.mem_map_of_mem hfile
  rw [hkeys] at hkey
  rcases List.mem_pair.mp hkey with heq | heq <;> rw [heq]
  · exact ⟨by decide, ⟨by decide, by decide, by decide⟩⟩
  · exact ⟨by decide, ⟨by decide, by decide, by decide⟩⟩

theorem entry_kept_iff_old_output :
    ∃ result, (ran plainConfig .builtins FaultyStore.fileSystem none oldOutput).1.1 = .ok result ∧
      plainConfig.outputDir.fileName = some "dist".toList ∧ '\\' ∉ "dist".toList ∧
      (∀ file ∈ result.files.entries, (Path.mk file.1).isAbsolute = false ∧
        Verbatim file.1.toList) ∧
      oldOutput.store.files.get? (keyOf (stagingDir plainConfig.outputDir)) = none ∧
      ("main", "./e.js") ∈ plainConfig.entry.entries ∧
      ∃ resolver source query content, Resolver.ofConfig plainConfig = .ok resolver ∧
        ResolvesTo oldOutput.view resolver "./e.js" source query ∧
        oldOutput.store.files.get? (keyOf source) = some content ∧
        ((ran plainConfig .builtins FaultyStore.fileSystem none oldOutput).2.store.files.get?
          (keyOf source) =
          some content ↔ Spared plainConfig.outputDir plainConfig.output.clean result.files
            (keyOf source) content) := by
  obtain ⟨result, hrun, hkeys⟩ :=
    exists_ok_of_any (fun result => result.files.keys = ["main.bundle.js", "manifest.json"])
    (ran plainConfig .builtins FaultyStore.fileSystem none oldOutput).1.1 (by decide +kernel)
  have hname : plainConfig.outputDir.fileName = some "dist".toList := by decide +kernel
  have hstaging : oldOutput.store.files.get? (keyOf (stagingDir plainConfig.outputDir)) = none := by
    decide +kernel
  have hentry : ("main", "./e.js") ∈ plainConfig.entry.entries := by decide
  obtain ⟨resolver, source, query, content, hresolver, hsource, hcontent, hkept, -⟩ :=
    entry_kept_iff hrun hname (by decide) (relative_of_keys hkeys) hstaging _ hentry
  exact ⟨result, hrun,
    hname, by decide, relative_of_keys hkeys, hstaging, hentry, resolver, source, query, content,
    hresolver, hsource, hcontent, hkept⟩

/-- The description of a package that names an earlier output as its main file. -/
def builtPackage : FaultyStore where
  store := .ofFiles [(⟨"/p/pkg/package.json"⟩, "\x7b\"main\":\"../dist/lib.js\"\x7d".toUTF8),
    (⟨"/p/dist/lib.js"⟩, "1".toUTF8)]

def packageConfig : Config := { plainConfig with entry := .single "./pkg" }

/-- The main file of an entry is cleaned away with the output directory. -/
theorem main_file_lost :
    (∃ result, (ran packageConfig .builtins FaultyStore.fileSystem none builtPackage).1.1 =
      .ok result) ∧
      (∃ resolver, Resolver.ofConfig packageConfig = .ok resolver ∧
        ResolvesTo builtPackage.view resolver "./pkg" ⟨"/p/dist/lib.js"⟩ none) ∧
      builtPackage.store.files.contains (keyOf ⟨"/p/dist/lib.js"⟩) = true ∧
      (ran packageConfig .builtins FaultyStore.fileSystem none builtPackage).2.store.files.contains
        (keyOf ⟨"/p/dist/lib.js"⟩) = false := by
  refine ⟨?_, ?_, by decide +kernel, by decide +kernel⟩
  · obtain ⟨result, hrun, -⟩ := exists_ok_of_any (fun _ => True)
      (ran packageConfig .builtins FaultyStore.fileSystem none builtPackage).1.1 (by decide +kernel)
    exact ⟨result, hrun⟩
  · exact exists_ok_of_any
      (fun resolver => ResolvesTo builtPackage.view resolver "./pkg" ⟨"/p/dist/lib.js"⟩ none)
      (Resolver.ofConfig packageConfig) (by decide +kernel)

end WebBundle.Proofs.KeptSources

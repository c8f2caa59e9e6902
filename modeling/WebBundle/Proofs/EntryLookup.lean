import WebBundle.Build.Plan
import WebBundle.Proofs.PathLocations
import WebBundle.Proofs.ProbeLists
import WebBundle.Proofs.ResolvedFiles

namespace WebBundle.Proofs.EntryLookup

open WebBundle.Discovery (entryRequest)
open WebBundle.Proofs.PathLocations
open WebBundle.Proofs.ProbeLists
open WebBundle.Proofs.ResolvedFiles
open WebBundle.Proofs.TidyPaths

/-- The directories in which a request is sought that is no path. -/
def searchDirectories (r : Resolver) (directory : Path) : List Path :=
  r.modulePaths.flatMap fun dir =>
    if dir.isAbsolute then [dir] else directory.ancestors.map (·.join dir)

/-- The paths at which the file of an entry is looked up. -/
def entryBases (r : Resolver) (entry : String) : List Path :=
  r.candidates (entryRequest entry) r.context

/-- The file of an entry is looked up at some paths, one after another, and nowhere else. -/
def LooksUp (r : Resolver) (entry : String) (bases : List Path) : Prop :=
  ∀ view : FileView Id, (r.resolve view (entryRequest entry) r.context).run =
    match (r.lookupPaths view [] bases).run with
    | .error e => .error e
    | .ok (.found path) => .ok (.file path none)
    | .ok (.missed tried) => .error (.notFound (entryRequest entry) tried)

/-- A configuration by which every specifier is looked up as it is written. -/
structure Literal (c : Config) : Prop where
  externals : c.externals = ∅
  ignore : c.resolve.ignore = []
  aliases : c.resolve.aliases = ∅

variable {c : Config} {r : Resolver} {entry request : String} {base directory p q : Path}

theorem candidates_of_relative (h : Resolver.isRelative request = true) :
    r.candidates request directory = [(directory.join ⟨request⟩).normalize] := by
  rw [Resolver.candidates, if_pos h]

theorem candidates_of_package (hrelative : Resolver.isRelative request = false)
    (habsolute : (Path.mk request).isAbsolute = false) : r.candidates request directory =
      ((searchDirectories r directory).map fun dir => (dir.join ⟨request⟩).normalize).eraseReps := by
  rw [Resolver.candidates, hrelative, habsolute, searchDirectories, List.map_flatMap]
  simp only [Bool.false_eq_true, if_false]
  congr 2
  funext dir
  split
  · rfl
  · rw [List.map_map]
    rfl

theorem isRelative_dot (entry : String) : Resolver.isRelative ("./" ++ entry) = true := by
  simp [Resolver.isRelative]

theorem entryRequest_of_dot (h : entry.toList.head? = some '.') : entryRequest entry = entry := by
  simp [entryRequest, h]

theorem entryRequest_of_name (hdot : entry.toList.head? ≠ some '.')
    (habsolute : (Path.mk entry).isAbsolute = false) : entryRequest entry = "./" ++ entry := by
  simp [entryRequest, hdot, habsolute]

theorem inner_dot (entry : String) :
    PathLocations.inner ⟨"./" ++ entry⟩ = PathLocations.inner ⟨entry⟩ := by
  have htext : ("./" ++ entry).toList = ['.'] ++ '/' :: entry.toList := by simp
  rw [PathLocations.inner, PathLocations.inner, Path.parts, Path.parts, htext, split_append_cons, List.filterMap_append]
  rfl

theorem normalize_join_congr (habsolute : base.isAbsolute = true) (hp : p.isAbsolute = false)
    (hq : q.isAbsolute = false) (hinner : PathLocations.inner p = PathLocations.inner q) :
    (base.normalize.join p).normalize = (base.join q).normalize := by
  have hnormal : base.normalize.isAbsolute = true := by
    rw [normalize_eq_spot, isAbsolute_spot (isPlain_of_mem_course base), habsolute]
  rw [normalize_join hnormal hp, normalize_join habsolute hq, normalize_normalize, hinner]

theorem isAbsolute_dot (entry : String) : (Path.mk ("./" ++ entry)).isAbsolute = false := by
  simp [Path.isAbsolute]

theorem ofConfig_literal (hliteral : Literal c) (h : Resolver.ofConfig c = .ok r) :
    r.context = c.context.normalize ∧ r.externals = ∅ ∧ r.ignore = [] ∧ r.aliases = [] := by
  rw [Resolver.ofConfig, hliteral.ignore, hliteral.aliases] at h
  obtain rfl := Except.ok.inj h
  exact ⟨rfl, hliteral.externals, rfl, List.mergeSort_nil⟩

theorem cut_entryRequest (h : '?' ∉ entry.toList) :
    Cut (entryRequest entry) (entryRequest entry) none := by
  refine ⟨by simp, ?_⟩
  rw [entryRequest]
  split
  · exact h
  · simpa using h

theorem looksUp_entryBases (hliteral : Literal c) (h : Resolver.ofConfig c = .ok r)
    (hquery : '?' ∉ entry.toList) : LooksUp r entry (entryBases r entry) := by
  obtain ⟨-, hexternals, hignore, haliases⟩ := ofConfig_literal hliteral h
  have hexternal : r.externals.get? (entryRequest entry) = none := by
    rw [hexternals]
    rfl
  have hrequest : r.applyAlias (entryRequest entry) = entryRequest entry := by
    rw [Resolver.applyAlias, haliases]
    rfl
  intro view
  rw [resolve_run hexternal (by simp [hignore]) (cut_entryRequest hquery), hrequest]
  rfl

/-- A file system without files. -/
def blank : FileView Id where
  read path := .error (.notFound path.text)
  isFile _ := false
  isDir _ := false

theorem lookupPaths_blank (bases : List Path) :
    (r.lookupPaths blank [] bases).run = .ok (.missed (bases.flatMap r.fileProbes)) := by
  have hprobes : bases.flatMap (probesOf r blank) = (bases.flatMap r.fileProbes).map .file := by
    rw [List.map_flatMap]
    congr 1
    funext base
    exact List.append_nil _
  have hends : ∀ probes : List Path, (probes.map Probe.file).find? (ends blank) = none := by
    intro probes
    rw [List.find?_eq_none]
    intro probe hprobe
    obtain ⟨path, -, rfl⟩ := List.mem_map.mp hprobe
    exact Bool.false_ne_true
  rw [lookupPaths_settle, hprobes, settle, hends, filterMap_path?, List.nil_append]

theorem flatMap_fileProbes_injective (r : Resolver) :
    Function.Injective fun bases : List Path => bases.flatMap r.fileProbes := by
  intro bases bases' h
  dsimp only at h
  induction bases generalizing bases' with
  | nil =>
      cases bases' with
      | nil => rfl
      | cons base rest => exact absurd h nofun
  | cons base rest ih =>
      cases bases' with
      | nil => exact absurd h nofun
      | cons base' rest' =>
          rw [List.flatMap_cons, List.flatMap_cons] at h
          obtain ⟨hfirst, hrest⟩ := List.append_inj h (by simp [Resolver.fileProbes])
          rw [(List.cons.inj hfirst).1, ih hrest]

theorem looksUp_iff (hliteral : Literal c) (h : Resolver.ofConfig c = .ok r)
    (hquery : '?' ∉ entry.toList) {bases : List Path} :
    LooksUp r entry bases ↔ entryBases r entry = bases := by
  have hbases := looksUp_entryBases hliteral h hquery
  constructor
  · intro hlooks
    have heq := (hbases blank).symm.trans (hlooks blank)
    rw [lookupPaths_blank, lookupPaths_blank] at heq
    exact flatMap_fileProbes_injective r (ResolutionError.notFound.inj (Except.error.inj heq)).2
  · rintro rfl
    exact hbases

/-- The file of an entry is looked up at its place in the project and nowhere else, unless the path begins
with a dot that belongs to a name. Such a path is sought in the search directories, and its place counts
only if all of them lead there. -/
theorem looksUp_place_iff (hliteral : Literal c) (h : Resolver.ofConfig c = .ok r)
    (hcontext : c.context.isAbsolute = true) (hentry : (Path.mk entry).isAbsolute = false)
    (hquery : '?' ∉ entry.toList) :
    let place := (c.context.join ⟨entry⟩).normalize
    let sought := (searchDirectories r r.context).map fun dir => (dir.join ⟨entry⟩).normalize
    (∀ name entries, (name, entry) ∈ entries → place ∈ BuildPlan.sources c entries) ∧
    (LooksUp r entry [place] ↔
      (entry.toList.head? = some '.' → Resolver.isRelative entry = false →
        sought ≠ [] ∧ ∀ base ∈ sought, base = place)) ∧
    (entry.toList.head? = some '.' → Resolver.isRelative entry = false →
      LooksUp r entry sought.eraseReps) := by
  intro place sought
  have hplace : (r.context.join ⟨entry⟩).normalize = place := by
    rw [(ofConfig_literal hliteral h).1, normalize_join_congr hcontext hentry hentry rfl]
  have hsought (hdot : entry.toList.head? = some '.') (hrelative : Resolver.isRelative entry = false) :
      entryBases r entry = sought.eraseReps := by
    rw [entryBases, entryRequest_of_dot hdot, candidates_of_package hrelative hentry]
  refine ⟨fun name entries hmem => ?_, ?_, fun hdot hrelative => ?_⟩
  · rw [BuildPlan.sources, ← hplace, (ofConfig_literal hliteral h).1]
    exact List.mem_cons_of_mem _ (List.mem_map.mpr ⟨_, hmem, rfl⟩)
  · rw [looksUp_iff hliteral h hquery]
    by_cases hdot : entry.toList.head? = some '.'
    · cases hrelative : Resolver.isRelative entry with
      | true =>
          refine iff_of_true ?_ (fun _ hfalse => absurd hfalse nofun)
          rw [entryBases, entryRequest_of_dot hdot, candidates_of_relative hrelative, hplace]
      | false =>
          rw [hsought hdot hrelative, eraseReps_eq_singleton_iff]
          exact ⟨fun heq _ _ => heq, fun heq => heq hdot rfl⟩
    · refine iff_of_true ?_ (fun h => absurd h hdot)
      rw [entryBases, entryRequest_of_name hdot hentry, candidates_of_relative (isRelative_dot entry),
        (ofConfig_literal hliteral h).1,
        normalize_join_congr hcontext (isAbsolute_dot entry) hentry (inner_dot entry)]
  · rw [looksUp_iff hliteral h hquery]
    exact hsought hdot hrelative

/-- A configuration with a dotted name for an entry. -/
def dottedConfig : Config := { context := ⟨"/p"⟩, entry := .single ".hidden.js" }

theorem looksUp_place_iff_nested : ∃ r, Resolver.ofConfig dottedConfig = .ok r ∧
    LooksUp r "src/../.hidden.js" [⟨"/p/.hidden.js"⟩] ∧
    LooksUp r "..." [⟨"/p/node_modules/..."⟩, ⟨"/node_modules/..."⟩] := by
  obtain ⟨r, hr⟩ : ∃ r, Resolver.ofConfig dottedConfig = .ok r := ⟨_, rfl⟩
  have hliteral : Literal dottedConfig := ⟨rfl, rfl, rfl⟩
  refine ⟨r, hr, ?_, ?_⟩
  · exact (looksUp_place_iff hliteral hr (by decide) (by decide) (by decide)).2.1.mpr
      fun hdot => absurd hdot (by decide)
  · obtain rfl := Except.ok.inj hr
    exact (looksUp_place_iff hliteral hr (by decide) (by decide) (by decide)).2.2 (by decide) (by decide)

/-- An entry with a dotted name is not found, although its file is in the project. -/
theorem dotted_entry_missed :
    let view := FaultyStore.view { store := .ofFiles [(⟨"/p/.hidden.js"⟩, ByteArray.empty)] }
    ∃ r, Resolver.ofConfig dottedConfig = .ok r ∧
      (view.isFile (dottedConfig.context.join ⟨".hidden.js"⟩).normalize).run = true ∧
      (r.resolve view (entryRequest ".hidden.js") r.context).run.isOk = false ∧
      ¬ LooksUp r ".hidden.js" [(dottedConfig.context.join ⟨".hidden.js"⟩).normalize] := by
  intro view
  obtain ⟨r, hr⟩ : ∃ r, Resolver.ofConfig dottedConfig = .ok r := ⟨_, rfl⟩
  have hfile : (view.isFile (dottedConfig.context.join ⟨".hidden.js"⟩).normalize).run = true := by
    decide +kernel
  have hmissed : (r.resolve view (entryRequest ".hidden.js") r.context).run.isOk = false := by
    obtain rfl := Except.ok.inj hr
    decide +kernel
  refine ⟨r, hr, hfile, hmissed, fun hlooks => ?_⟩
  rw [hlooks view, lookupPaths_of_isFile hfile] at hmissed
  exact absurd hmissed nofun

end WebBundle.Proofs.EntryLookup

import Mathlib.Data.List.Basic
import Mathlib.Data.List.TakeWhile
import WebBundle.Resolution.Lookup
import WebBundle.Store.Faulty

namespace WebBundle.Proofs.ProbeLists

open Resolver

/-- A step of a resolution: a path that may be a file, or a package description that has to be read. -/
inductive Probe where
  | file (path : Path)
  | package (path : Path)
  deriving DecidableEq

def Probe.path? : Probe → Option Path
  | .file path => some path
  | .package _ => none

variable {r : Resolver} {view : FileView Id} {base dir path : Path} {tried paths : List Path}
  {probes rest : List Probe} {specifier request : String} {query : Option String}

/-- What a package description says. -/
def packageAt? (view : FileView Id) (path : Path) : Option Json :=
  match (view.read path).run with
  | .error _ => none
  | .ok bytes => (Text.text? bytes).bind Json.parse?

/-- Why a file cannot be read. -/
def faultAt? (view : FileView Id) (path : Path) : Option StoreError :=
  match (view.read path).run with
  | .error e => some e
  | .ok _ => none

/-- A search ends at the first file, and at a package description that cannot be read. -/
def ends (view : FileView Id) : Probe → Bool
  | .file path => (view.isFile path).run
  | .package path => (packageAt? view path).isNone

/-- The probes for the main files of the package in a directory. -/
def mainProbes (r : Resolver) (dir : Path) (description : Json) : List Path :=
  (r.mainFiles description).flatMap fun main =>
    r.fileProbes (dir.join ⟨main⟩).normalize ++ r.indexProbes (dir.join ⟨main⟩).normalize

/-- The probes for the package in a directory. -/
def packageProbes (r : Resolver) (view : FileView Id) (dir : Path) : List Probe :=
  let path := dir.join ⟨"package.json"⟩
  if (view.isFile path).run then
    .package path :: ((packageAt? view path).elim [] (mainProbes r dir)).map .file
  else []

/-- The probes for a path: first as a file, then as a directory. -/
def probesOf (r : Resolver) (view : FileView Id) (base : Path) : List Probe :=
  (r.fileProbes base).map .file ++
    if (view.isDir base).run then packageProbes r view base ++ (r.indexProbes base).map .file else []

/-- What a search in a list of probes leads to, behind some paths that are no files. -/
def settle (view : FileView Id) (tried : List Path) (probes : List Probe) :
    Except ResolutionError Probed :=
  match probes.find? (ends view) with
  | some (.file path) => .ok (.found path)
  | some (.package path) => .error (.invalidPackage ⟨path, faultAt? view path⟩)
  | none => .ok (.missed (tried ++ probes.filterMap Probe.path?))

theorem filterMap_path? (paths : List Path) : (paths.map Probe.file).filterMap Probe.path? = paths := by
  rw [List.filterMap_map]
  exact List.filterMap_some

theorem settle_append : settle view tried (probes ++ rest) =
    match settle view tried probes with
    | .ok (.missed tried) => settle view tried rest
    | result => result := by
  simp only [settle, List.find?_append, List.filterMap_append]
  cases probes.find? (ends view) with
  | none => simp only [Option.none_or, List.append_assoc]
  | some probe => cases probe <;> rfl

theorem probe_run : (probe view tried paths).run =
    match paths.find? fun path => (view.isFile path).run with
    | some path => .found path
    | none => .missed (tried ++ paths) := by
  induction paths generalizing tried with
  | nil => rw [List.append_nil]; rfl
  | cons path rest ih =>
      rw [probe, List.find?_cons]
      simp only [bind, Id.run] at ih ⊢
      cases h : view.isFile path with
      | true => rfl
      | false =>
          simp only [Bool.false_eq_true, if_false]
          rw [ih, List.append_assoc, List.singleton_append]

theorem settle_files : settle view tried (paths.map .file) = .ok (probe view tried paths).run := by
  have hends : ends view ∘ Probe.file = fun path => (view.isFile path).run := rfl
  rw [probe_run, settle, List.find?_map, hends, filterMap_path?]
  cases paths.find? fun path => (view.isFile path).run <;> rfl

theorem description_run : (description view dir).run =
    if (view.isFile (dir.join ⟨"package.json"⟩)).run then
      match packageAt? view (dir.join ⟨"package.json"⟩) with
      | some value => .ok (some value)
      | none => .error (.invalidPackage
          ⟨dir.join ⟨"package.json"⟩, faultAt? view (dir.join ⟨"package.json"⟩)⟩)
    else .ok none := by
  rw [description, packageAt?, faultAt?]
  simp only [bind, Id.run]
  cases view.isFile (dir.join ⟨"package.json"⟩) with
  | false => rfl
  | true =>
      cases view.read (dir.join ⟨"package.json"⟩) with
      | error e => rfl
      | ok bytes =>
          simp only [if_true]
          cases (Text.text? bytes).bind Json.parse? <;> rfl

theorem settle_package : settle view tried (.package path :: probes) =
    if (packageAt? view path).isNone then .error (.invalidPackage ⟨path, faultAt? view path⟩)
    else settle view tried probes := by
  have hpaths : (Probe.package path :: probes).filterMap Probe.path? =
      probes.filterMap Probe.path? := List.filterMap_cons_none rfl
  rw [settle, List.find?_cons, hpaths, ends]
  cases packageAt? view path <;> rfl

theorem directoryProbes_run : (r.directoryProbes view dir).run =
    match (description view dir).run with
    | .error e => .error e
    | .ok none => .ok (r.indexProbes dir)
    | .ok (some value) => .ok (mainProbes r dir value ++ r.indexProbes dir) := by
  rw [directoryProbes]
  simp only [bind, Id.run]
  cases description view dir with
  | error e => rfl
  | ok value => cases value <;> rfl

theorem settle_directory : settle view tried
      (packageProbes r view dir ++ (r.indexProbes dir).map .file) =
    match (r.directoryProbes view dir).run with
    | .error e => .error e
    | .ok probes => .ok (probe view tried probes).run := by
  rw [directoryProbes_run, description_run, packageProbes]
  cases hfile : (view.isFile (dir.join ⟨"package.json"⟩)).run with
  | false =>
      simp only [Bool.false_eq_true, if_false, List.nil_append]
      exact settle_files
  | true =>
      simp only [if_true, List.cons_append, settle_package]
      cases packageAt? view (dir.join ⟨"package.json"⟩) with
      | none => rfl
      | some value =>
          simp only [Option.elim_some, ← List.map_append]
          exact settle_files

theorem lookupPath_run : (r.lookupPath view tried base).run =
    match (probe view tried (r.fileProbes base)).run with
    | .found path => .ok (.found path)
    | .missed tried =>
      if (view.isDir base).run then
        match (r.directoryProbes view base).run with
        | .error e => .error e
        | .ok probes => .ok (probe view tried probes).run
      else .ok (.missed tried) := by
  rw [lookupPath]
  simp only [bind, Id.run]
  cases probe view tried (r.fileProbes base) with
  | found path => rfl
  | missed tried =>
      cases view.isDir base with
      | false => rfl
      | true => cases r.directoryProbes view base <;> rfl

theorem lookupPath_settle : (r.lookupPath view tried base).run =
    settle view tried (probesOf r view base) := by
  rw [lookupPath_run, probesOf, settle_append, settle_files]
  cases (probe view tried (r.fileProbes base)).run with
  | found path => rfl
  | missed tried =>
      cases (view.isDir base).run with
      | false => simp [settle]
      | true => exact settle_directory.symm

theorem lookupPaths_settle (bases : List Path) : (r.lookupPaths view tried bases).run =
    settle view tried (bases.flatMap (probesOf r view)) := by
  induction bases generalizing tried with
  | nil => simp [lookupPaths, settle, pure, Id.run]
  | cons base bases ih =>
      rw [List.flatMap_cons, settle_append, ← lookupPath_settle, lookupPaths]
      simp only [bind, Id.run] at ih ⊢
      cases r.lookupPath view tried base with
      | error e => rfl
      | ok probed =>
          cases probed with
          | found path => rfl
          | missed tried => exact ih

theorem mem_map_file : .file path ∈ paths.map Probe.file ↔ path ∈ paths :=
  List.mem_map_of_injective fun _ _ => Probe.file.inj

theorem exists_main_of_mem_packageProbes (h : .file path ∈ packageProbes r view dir) :
    ∃ main, path ∈ r.fileProbes (dir.join ⟨main⟩).normalize ∨
      path ∈ r.indexProbes (dir.join ⟨main⟩).normalize := by
  rw [packageProbes] at h
  split at h
  · have hmem := mem_map_file.mp ((List.mem_cons.mp h).resolve_left Probe.noConfusion)
    cases hpackage : packageAt? view (dir.join ⟨"package.json"⟩) with
    | none => simp [hpackage] at hmem
    | some description =>
        rw [hpackage, Option.elim_some, mainProbes] at hmem
        obtain ⟨main, -, hmem⟩ := List.mem_flatMap.mp hmem
        exact ⟨main, List.mem_append.mp hmem⟩
  · exact absurd h List.not_mem_nil

theorem probed_of_lookupPaths {bases : List Path}
    (h : (r.lookupPaths view tried bases).run = .ok (.found path)) :
    .file path ∈ bases.flatMap (probesOf r view) ∧ (view.isFile path).run = true := by
  rw [lookupPaths_settle, settle] at h
  split at h
  · next found hfind =>
      obtain rfl := Probed.found.inj (Except.ok.inj h)
      have hfile : ends view (.file found) = true := List.find?_some hfind
      exact ⟨List.mem_of_find?_eq_some hfind, hfile⟩
  · cases h
  · cases h

theorem lookupPaths_of_isFile (h : (view.isFile base).run = true) (bases : List Path) :
    (r.lookupPaths view tried (base :: bases)).run = .ok (.found base) := by
  rw [lookupPaths_settle, List.flatMap_cons, probesOf, fileProbes, settle, List.map_cons,
    List.cons_append, List.cons_append, List.find?_cons_of_pos (by exact h)]

/-- A specifier is cut at its first question mark. -/
structure Cut (specifier request : String) (query : Option String) : Prop where
  text : specifier = request ++ query.elim "" ("?" ++ ·)
  first : '?' ∉ request.toList

theorem splitQuery_eq (h : Cut specifier request query) : splitQuery specifier = (request, query) := by
  have hbefore : ∀ c ∈ request.toList, (c != '?') = true := by
    intro c hc
    rw [bne_iff_ne]
    rintro rfl
    exact h.first hc
  cases query with
  | none =>
      obtain rfl : specifier = request := by simpa using h.text
      have htake : specifier.toList.takeWhile (· != '?') = specifier.toList :=
        List.takeWhile_eq_self_iff.mpr hbefore
      simp only [splitQuery, htake, List.drop_length]
  | some query =>
      have htext : specifier.toList = request.toList ++ '?' :: query.toList := by
        rw [h.text]
        simp
      have htake : specifier.toList.takeWhile (· != '?') = request.toList := by
        rw [htext, List.takeWhile_append_of_pos hbefore]
        simp
      simp only [splitQuery, htake]
      rw [htext, List.drop_left]
      simp

/-- A specifier that is neither external nor left out is looked up. -/
theorem resolve_run {r : Resolver} {view : FileView Id} {specifier request : String}
    {query : Option String} {directory : Path} (hexternal : r.externals.get? specifier = none)
    (hignore : ∀ i ∈ r.ignore, i.holds specifier directory = false)
    (hcut : Cut specifier request query) :
    (r.resolve view specifier directory).run =
      match (r.lookupPaths view [] (r.candidates (r.applyAlias request) directory)).run with
      | .error e => .error e
      | .ok (.found path) => .ok (.file path query)
      | .ok (.missed tried) => .error (.notFound specifier tried) := by
  have hkept : r.ignore.any (·.holds specifier directory) = false := by
    rw [List.any_eq_false]
    exact fun i hi => Bool.not_eq_true _ ▸ hignore i hi
  rw [resolve, hexternal]
  simp only [hkept, Bool.false_eq_true, if_false, splitQuery_eq hcut, bind, Id.run]
  cases r.lookupPaths view [] (r.candidates (r.applyAlias request) directory) with
  | error e => rfl
  | ok probed => cases probed <;> rfl

end WebBundle.Proofs.ProbeLists

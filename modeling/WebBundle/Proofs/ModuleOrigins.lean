import WebBundle.Proofs.DiscoverySteps
import WebBundle.Proofs.ResolvedFiles
import WebBundle.Proofs.StubKeys

namespace WebBundle.Proofs.ModuleOrigins

open WebBundle.Discovery
open WebBundle.Proofs.DiscoverySteps
open WebBundle.Proofs.GraphGrowth
open WebBundle.Proofs.ModuleNames
open WebBundle.Proofs.ResolvedFiles
open WebBundle.Proofs.StubKeys
open WebBundle.Proofs.TidyPaths

variable {p : Project} {view : FileView Id} {R : Makes} {g : ModuleGraph} {id owner target : ModuleId}
variable {directory : Path} {specifier global : String} {resolution : Resolution}

theorem exists_source (hg : Sound p view R g) (hid : id < g.size)
    (hsource : (g.get id).origin = .source) : ∃ specifier directory path query,
      (p.resolver.resolve view specifier directory).run = .ok (.file path query) ∧
        Same (fileModule p.resolver.context path query) (g.get id) := by
  obtain ⟨m, hm, hsame⟩ := hg.known id hid
  have horigin := hsame.origin.symm.trans hsource
  cases hm with
  | @target specifier directory resolution hresolve =>
      cases resolution with
      | file path query => exact ⟨specifier, directory, path, query, hresolve, hsame⟩
      | external global => cases horigin
      | ignored => cases horigin
  | side => cases horigin

theorem exists_side (hg : Sound p view R g) (hid : id < g.size)
    (hside : (g.get id).origin = .side owner) : owner < g.size ∧ (g.get owner).origin = .source ∧
      ∃ type output index artifact, R (g.get owner).path type output ∧
        output.side[index]? = some artifact ∧
        Same (sideModule p.resolver.context owner (g.get owner).path
          (sideQuery (g.get owner).query index) artifact) (g.get id) := by
  obtain ⟨m, hm, hsame⟩ := hg.known id hid
  have horigin := hsame.origin.symm.trans hside
  cases hm with
  | @target specifier directory resolution => cases resolution <;> cases horigin
  | @side other index type output artifact howner hsource hmade hartifact =>
      obtain rfl : other = owner := ModuleOrigin.side.inj horigin
      exact ⟨howner, hsource, type, output, index, artifact, hmade, hartifact, hsame⟩

/-- The module of a file, or of what was set apart from one. -/
def IsFile (m : Module) : Prop := m.origin = .source ∨ ∃ owner, m.origin = .side owner

theorem key_of_isFile (hg : Sound p view R g) (hid : id < g.size) (h : IsFile (g.get id)) :
    (g.get id).key = (g.get id).path.moduleKey p.resolver.context (g.get id).query := by
  rcases h with hsource | ⟨owner, hside⟩
  · obtain ⟨_, _, path, query, -, hsame⟩ := exists_source hg hid hsource
    rw [hsame.key, hsame.path, hsame.query]
    rfl
  · obtain ⟨-, -, _, _, index, artifact, -, -, hsame⟩ := exists_side hg hid hside
    rw [hsame.key, hsame.path, hsame.query]
    rfl

theorem tidy_of_isFile (hg : Sound p view R g) (hplain : Plain p.resolver.extensions)
    (hid : id < g.size) (h : IsFile (g.get id)) : Tidy (g.get id).path := by
  have hfile : ∀ {id}, id < g.size → (g.get id).origin = .source → Tidy (g.get id).path := by
    intro id hid hsource
    obtain ⟨_, _, path, query, hresolve, hsame⟩ := exists_source hg hid hsource
    rw [hsame.path]
    exact tidy_of_resolve hplain hresolve
  rcases h with hsource | ⟨owner, hside⟩
  · exact hfile hid hsource
  · obtain ⟨howner, hsource, _, _, _, _, -, -, hsame⟩ := exists_side hg hid hside
    rw [hsame.path]
    exact hfile howner hsource

theorem external_of_resolve
    (h : (p.resolver.resolve view specifier directory).run = .ok (.external global)) :
    p.resolver.externals.get? specifier = some global := by
  rw [Resolver.resolve] at h
  split at h
  · next found hfound =>
      obtain rfl : found = global := by simpa [pure, Id.run] using h
      exact hfound
  · split at h
    · simp [pure, Id.run] at h
    · simp only [bind, Id.run] at h
      split at h <;> simp [pure] at h

theorem exists_stub (hg : Sound p view R g) (hid : id < g.size) (h : ¬ IsFile (g.get id)) :
    (∃ specifier global, p.resolver.externals.get? specifier = some global ∧
      Same (externalModule specifier global) (g.get id)) ∨
    ∃ specifier directory, Same (ignoredModule specifier directory) (g.get id) := by
  obtain ⟨m, hm, hsame⟩ := hg.known id hid
  cases hm with
  | @target specifier directory resolution hresolve =>
      cases resolution with
      | file path query => exact absurd (.inl hsame.origin) h
      | external global => exact .inl ⟨specifier, global, external_of_resolve hresolve, hsame⟩
      | ignored => exact .inr ⟨specifier, directory, hsame⟩
  | side => exact absurd (.inr ⟨_, hsame.origin⟩) h

/-- A module is the one for which a specifier stands. -/
def StandsFor (m : Module) : Resolution → Prop
  | .file path query => IsFile m ∧ m.path = path ∧ m.query = query
  | .external global => m.origin = .external global
  | .ignored => m.origin = .ignored

/-- A module tells a resolution apart from others with the same key. -/
def TellsApart (context : Path) (m : Module) : Resolution → Prop
  | .file path _ =>
    IsFile m ∧ '\\' ∉ m.path.text.toList ∧ marks context m.path = marks context path
  | .external _ => ¬ IsFile m
  | .ignored => ¬ IsFile m

/-- The path of a resolution, if it has one, has no backslashes. -/
def Forward : Resolution → Prop
  | .file path _ => '\\' ∉ path.text.toList
  | .external _ => True
  | .ignored => True

theorem key_of_lookup {key : String} (h : g.lookup key = some target) :
    target < g.size ∧ (g.get target).key = key :=
  ⟨(lookup_eq_some_iff.mp h).1, (lookup_eq_some_iff.mp h).2.1⟩

theorem standsFor_file_iff (hg : Sound p view R g) (hplain : Plain p.resolver.extensions)
    {path : Path} {query : Option String}
    (hresolve : (p.resolver.resolve view specifier directory).run = .ok (.file path query))
    (hforward : '\\' ∉ path.text.toList)
    (hlookup : g.lookup (path.moduleKey p.resolver.context query) = some target) :
    StandsFor (g.get target) (.file path query) ↔
      TellsApart p.resolver.context (g.get target) (.file path query) := by
  obtain ⟨htarget, hkey⟩ := key_of_lookup hlookup
  constructor
  · rintro ⟨hfile, hpath, -⟩
    exact ⟨hfile, hpath ▸ hforward, by rw [hpath]⟩
  · rintro ⟨hfile, hforward', hmarks⟩
    rw [key_of_isFile hg htarget hfile] at hkey
    have hsame := eq_iff_marks (tidy_of_isFile hg hplain htarget hfile)
      (tidy_of_resolve hplain hresolve) hforward' hforward hkey
    exact ⟨hfile, hsame.mpr hmarks⟩

/-- The module that is found by the key of a resolution stands for it if it tells it apart. -/
theorem standsFor_iff (hg : Sound p view R g) (hplain : Plain p.resolver.extensions)
    (hresolve : (p.resolver.resolve view specifier directory).run = .ok resolution)
    (hforward : Forward resolution)
    (hlookup : g.lookup (wanted p.resolver.context directory specifier resolution).key = some target) :
    StandsFor (g.get target) resolution ↔ TellsApart p.resolver.context (g.get target) resolution := by
  obtain ⟨htarget, hkey⟩ := key_of_lookup hlookup
  cases resolution with
  | file path query => exact standsFor_file_iff hg hplain hresolve hforward hlookup
  | external global =>
      constructor
      · rintro horigin (hsource | ⟨owner, hside⟩)
        · exact absurd (horigin.symm.trans hsource) nofun
        · exact absurd (horigin.symm.trans hside) nofun
      · intro hfile
        rcases exists_stub hg htarget hfile with ⟨specifier', global', hglobal, hsame⟩ | ⟨_, _, hsame⟩
        · obtain rfl := externalModule_key_injective (hsame.key.symm.trans hkey)
          rw [external_of_resolve hresolve] at hglobal
          obtain rfl := Option.some.inj hglobal
          exact hsame.origin
        · exact absurd (hkey.symm.trans hsame.key) (externalModule_key_ne_ignored _ _ _ _)
  | ignored =>
      constructor
      · rintro horigin (hsource | ⟨owner, hside⟩)
        · exact absurd (horigin.symm.trans hsource) nofun
        · exact absurd (horigin.symm.trans hside) nofun
      · intro hfile
        rcases exists_stub hg htarget hfile with ⟨_, _, -, hsame⟩ | ⟨_, _, hsame⟩
        · exact absurd (hsame.key.symm.trans hkey) (externalModule_key_ne_ignored _ _ _ _)
        · exact hsame.origin

end WebBundle.Proofs.ModuleOrigins

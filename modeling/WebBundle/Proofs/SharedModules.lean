import WebBundle.Proofs.DiscoveredGraphs

namespace WebBundle.Proofs.SharedModules

open WebBundle.Discovery
open WebBundle.Proofs.DiscoveredGraphs
open WebBundle.Proofs.DiscoveryRun
open WebBundle.Proofs.DiscoverySteps
open WebBundle.Proofs.GraphGrowth
open WebBundle.Proofs.LinkedModules
open WebBundle.Proofs.ModuleNames
open WebBundle.Proofs.ModuleOrigins
open WebBundle.Proofs.ProcessedFiles
open WebBundle.Proofs.ResolvedFiles

/-- An entry, or an import of a module. -/
inductive Reference where
  | entry (index : Nat)
  | importOf (importer : ModuleId) (i : Import)

/-- Whether the imports of a module count; those of a side artifact count if those of its owner do. -/
def Scanned (p : Project) (g : ModuleGraph) (id : ModuleId) : Prop :=
  match (g.get id).origin with
  | .source => parses p (g.get id).type (g.get id).path = true
  | .side owner => parses p (g.get owner).type (g.get owner).path = true
  | .external _ => False
  | .ignored => False

namespace Reference

/-- The reference is one of a graph of some entries. -/
def IsIn (p : Project) (entries : List (String × String)) (g : ModuleGraph) : Reference → Prop
  | entry index => index < entries.length
  | importOf importer i =>
    importer < g.size ∧ Scanned p g importer ∧ i ∈ (g.get importer).artifact.imports

/-- What the specifier of a reference stands for. -/
def resolution (p : Project) (view : FileView Id) (entries : List (String × String))
    (g : ModuleGraph) : Reference → Except ResolutionError Resolution
  | entry index =>
    (p.resolver.resolve view (entryRequest (entries.getD index ("", "")).2) p.resolver.context).run
  | importOf importer i =>
    (p.resolver.resolve view i.specifier ((g.get importer).directory p.resolver.context)).run

/-- The reference leads to a module of a graph. -/
def LeadsTo (g : ModuleGraph) (target : ModuleId) : Reference → Prop
  | entry index => ∃ name, g.entries[index]? = some (name, target)
  | importOf importer i => ⟨i.specifier, target, i.kind⟩ ∈ (g.get importer).dependencies

end Reference

variable {p : Project} {view : FileView Id} {g : ModuleGraph} {d : Discovery} {id : ModuleId}
variable {cache after : Option Cache} {entries : List (String × String)}
variable {path path' : Path} {query query' : Option String} {first second : Reference}

theorem followed_of_scanned (h : Complete p view entries g) (hid : id < g.size)
    (hscanned : Scanned p g id) : Followed p view g id ((g.get id).directory p.resolver.context)
      (g.get id).artifact.imports := by
  rw [Scanned] at hscanned
  split at hscanned
  · next hsource =>
      obtain ⟨type, output, -, hfinished⟩ := h.finished id hid hsource
      obtain ⟨rfl, hartifact, -⟩ := hfinished.settled
      rw [hartifact]
      exact hfinished.followed hscanned
  · next owner hside =>
      obtain ⟨howner, hsource, type, output, index, artifact, hmade, hartifact, hsame⟩ :=
        exists_side h.sound hid hside
      obtain ⟨type', output', hmade', hfinished⟩ := h.finished owner howner hsource
      obtain ⟨rfl, rfl⟩ := hmade.unique hmade'
      obtain ⟨rfl, -, -⟩ := hfinished.settled
      obtain ⟨target, hlookup, -, hfollowed⟩ := hfinished.attached index artifact hartifact
      have hkey := h.sound.lookup_key id hid
      rw [hsame.key] at hkey
      obtain rfl : target = id := Option.some.inj (hlookup.symm.trans hkey)
      obtain ⟨-, hcontent, -⟩ := hsame.content nofun
      rw [hcontent, Module.directory, hsame.path]
      exact hfollowed hscanned
  · exact hscanned.elim
  · exact hscanned.elim

theorem exists_target (h : Complete p view entries g) (hfirst : first.IsIn p entries g)
    (hresolution : first.resolution p view entries g = .ok (.file path query)) : ∃ target,
      first.LeadsTo g target ∧ g.lookup (path.moduleKey p.resolver.context query) = some target := by
  cases first with
  | entry index =>
      have hlength : index < g.entries.length := h.entered.length_eq ▸ hfirst
      obtain ⟨-, file, query', hresolve, hlookup⟩ := h.entered.get hfirst hlength
      have hentry : entries.getD index ("", "") = entries.get ⟨index, hfirst⟩ := by
        rw [List.getD_eq_getElem?_getD, List.getElem?_eq_getElem hfirst]
        rfl
      rw [Reference.resolution, hentry, hresolve] at hresolution
      obtain ⟨rfl, rfl⟩ : file = path ∧ query' = query := by
        simpa using Except.ok.inj hresolution
      exact ⟨_, ⟨_, List.getElem?_eq_getElem hlength⟩, hlookup⟩
  | importOf importer i =>
      obtain ⟨hlt, hscanned, hi⟩ := hfirst
      obtain ⟨resolution, target, hresolve, hlookup, hmem⟩ :=
        followed_of_scanned h hlt hscanned i hi
      rw [Reference.resolution, hresolve] at hresolution
      obtain rfl := Except.ok.inj hresolution
      exact ⟨target, hmem, hlookup⟩

theorem tidy_of_resolution (hplain : Plain p.resolver.extensions)
    (hresolution : first.resolution p view entries g = .ok (.file path query)) :
    TidyPaths.Tidy path := by
  cases first with
  | entry index => exact tidy_of_resolve hplain hresolution
  | importOf importer i => exact tidy_of_resolve hplain hresolution

/-- Two references that are resolved to files lead to one module if and only if they are resolved to
one path with one query, or the name of one file goes on where the other has its query. -/
theorem share_module_iff (h : ((run p view entries).run.run cache).run = (.ok d, after))
    (hcache : Reliable p view d.graph cache) (hplain : Plain p.resolver.extensions)
    (hfirst : first.IsIn p entries d.graph) (hsecond : second.IsIn p entries d.graph)
    (hfile : first.resolution p view entries d.graph = .ok (.file path query))
    (hfile' : second.resolution p view entries d.graph = .ok (.file path' query'))
    (hforward : '\\' ∉ path.text.toList) (hforward' : '\\' ∉ path'.text.toList) :
    ∃ id id', first.LeadsTo d.graph id ∧ second.LeadsTo d.graph id' ∧
      d.graph.lookup (path.moduleKey p.resolver.context query) = some id ∧
      d.graph.lookup (path'.moduleKey p.resolver.context query') = some id' ∧
      (id = id' ↔ (path = path' ∧ query = query') ∨
        Blurs p.resolver.context path query path' query' ∨
          Blurs p.resolver.context path' query' path query) := by
  have hcomplete := complete_of_run h hcache
  obtain ⟨id, hleads, hlookup⟩ := exists_target hcomplete hfirst hfile
  obtain ⟨id', hleads', hlookup'⟩ := exists_target hcomplete hsecond hfile'
  refine ⟨id, id', hleads, hleads', hlookup, hlookup', ?_⟩
  rw [← moduleKey_eq_iff (tidy_of_resolution hplain hfile) (tidy_of_resolution hplain hfile')
    hforward hforward']
  constructor
  · rintro rfl
    exact (key_of_lookup hlookup).2.symm.trans (key_of_lookup hlookup').2
  · intro hkey
    rw [hkey, hlookup'] at hlookup
    exact (Option.some.inj hlookup).symm

/-- Whether a module is that of a scanned file in a directory, with an import. -/
def importsIn (p : Project) (g : ModuleGraph) (id : ModuleId) (directory : Path) (i : Import) : Bool :=
  decide (id < g.size) && decide ((g.get id).origin = .source) &&
    parses p (g.get id).type (g.get id).path && decide (i ∈ (g.get id).artifact.imports) &&
    decide ((g.get id).directory p.resolver.context = directory)

theorem reference_of_importsIn {directory : Path} {i : Import}
    (h : importsIn p g id directory i = true) : (Reference.importOf id i).IsIn p entries g ∧
      (Reference.importOf id i).resolution p view entries g =
        (p.resolver.resolve view i.specifier directory).run := by
  simp only [importsIn, Bool.and_eq_true, decide_eq_true_eq] at h
  obtain ⟨⟨⟨⟨hid, hsource⟩, hparse⟩, hi⟩, hdirectory⟩ := h
  refine ⟨⟨hid, ?_, hi⟩, ?_⟩
  · rw [Scanned, hsource]
    exact hparse
  · rw [Reference.resolution, hdirectory]

theorem share_module_iff_twins : ∃ d after,
    ((run plainProject twins [("main", "./e.js")]).run.run (some {})).run = (.ok d, after) ∧
      Reliable plainProject twins d.graph (some {}) ∧ ∃ target,
        (Reference.importOf 0 ⟨"./a", .static⟩).LeadsTo d.graph target ∧
        (Reference.importOf 1 ⟨"./a", .static⟩).LeadsTo d.graph target := by
  obtain ⟨d, after, hrun, himport, himport'⟩ := exists_ok
    (fun d : Discovery => importsIn plainProject d.graph 0 ⟨"/p"⟩ ⟨"./a", .static⟩ = true ∧
      importsIn plainProject d.graph 1 ⟨"/p"⟩ ⟨"./a", .static⟩ = true)
    (((run plainProject twins [("main", "./e.js")]).run.run (some {})).run)
    (by decide +kernel)
  have hplain : Plain plainProject.resolver.extensions := by
    intro extension hmem
    obtain rfl := List.mem_singleton.mp hmem
    decide
  have hresolve : (plainProject.resolver.resolve twins "./a" ⟨"/p"⟩).run =
      .ok (.file ⟨"/p/a.js"⟩ none) := by
    decide +kernel
  obtain ⟨hin, hfile⟩ := reference_of_importsIn himport
  obtain ⟨hin', hfile'⟩ := reference_of_importsIn himport'
  obtain ⟨id, id', hleads, hleads', -, -, hiff⟩ := share_module_iff hrun (reliable_twins d.graph)
    hplain hin hin' (hfile.trans hresolve) (hfile'.trans hresolve) (by decide) (by decide)
  obtain rfl := hiff.mpr (.inl ⟨rfl, rfl⟩)
  exact ⟨d, after, hrun, reliable_twins d.graph, id, hleads, hleads'⟩

/-- An import of a file with a query and an import of another file share a module. -/
theorem marked_file_is_shared : ∃ d after target,
    ((run aliasProject markedStore.view markedEntries).run.run none).run = (.ok d, after) ∧
      (Reference.importOf 0 ⟨"q", .static⟩).IsIn aliasProject markedEntries d.graph ∧
      (Reference.importOf 1 ⟨"../a.js?b.js", .static⟩).IsIn aliasProject markedEntries d.graph ∧
      (Reference.importOf 0 ⟨"q", .static⟩).resolution aliasProject markedStore.view markedEntries
        d.graph = .ok (.file ⟨"/p/a.js?b.js"⟩ none) ∧
      (Reference.importOf 1 ⟨"../a.js?b.js", .static⟩).resolution aliasProject markedStore.view
        markedEntries d.graph = .ok (.file ⟨"/p/a.js"⟩ (some "b.js")) ∧
      (d.graph.get 0).dependencies = [⟨"q", target, .static⟩] ∧
      (d.graph.get 1).dependencies = [⟨"../a.js?b.js", target, .static⟩] := by
  obtain ⟨d, after, hrun, himport, himport', hfirst, hsecond⟩ := exists_ok
    (fun d : Discovery =>
      importsIn aliasProject d.graph 0 ⟨"/p/src"⟩ ⟨"q", .static⟩ = true ∧
      importsIn aliasProject d.graph 1 ⟨"/p/src"⟩ ⟨"../a.js?b.js", .static⟩ = true ∧
      (d.graph.get 0).dependencies = [⟨"q", 2, .static⟩] ∧
      (d.graph.get 1).dependencies = [⟨"../a.js?b.js", 2, .static⟩])
    (((run aliasProject markedStore.view markedEntries).run.run none).run)
    (by decide +kernel)
  have hresolve : (aliasProject.resolver.resolve markedStore.view "q" ⟨"/p/src"⟩).run =
      .ok (.file ⟨"/p/a.js?b.js"⟩ none) := by
    decide +kernel
  have hresolve' : (aliasProject.resolver.resolve markedStore.view "../a.js?b.js" ⟨"/p/src"⟩).run =
      .ok (.file ⟨"/p/a.js"⟩ (some "b.js")) := by
    decide +kernel
  obtain ⟨hin, hfile⟩ := reference_of_importsIn himport
  obtain ⟨hin', hfile'⟩ := reference_of_importsIn himport'
  exact ⟨d, after, 2, hrun, hin, hin', hfile.trans hresolve, hfile'.trans hresolve', hfirst, hsecond⟩

end WebBundle.Proofs.SharedModules

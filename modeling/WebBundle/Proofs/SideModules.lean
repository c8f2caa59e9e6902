import WebBundle.Proofs.DiscoveredGraphs

namespace WebBundle.Proofs.SideModules

open WebBundle.Discovery
open WebBundle.Proofs.DiscoveredGraphs
open WebBundle.Proofs.DiscoveryRun
open WebBundle.Proofs.DiscoverySteps
open WebBundle.Proofs.GraphGrowth
open WebBundle.Proofs.LinkedModules
open WebBundle.Proofs.ModuleOrigins
open WebBundle.Proofs.ProcessedFiles
open WebBundle.Proofs.StubKeys

/-- The key of the module that is to hold a side artifact of a file. -/
def sideKey (p : Project) (file : Module) (index : Nat) : String :=
  file.path.moduleKey p.resolver.context (some (sideQuery file.query index))

/-- A module holds a side artifact of a file. -/
structure Holds (m : Module) (owner : ModuleId) (file : Module) (index : Nat) (side : Artifact) :
    Prop where
  origin : m.origin = .side owner
  path : m.path = file.path
  query : m.query = some (sideQuery file.query index)
  artifact : m.artifact = side
  contentHash : m.contentHash = Digest.contentHash side.content

variable {p : Project} {view : FileView Id} {g : ModuleGraph} {d : Discovery}
variable {cache after : Option Cache} {entries : List (String × String)}
variable {id target owner : ModuleId} {index : Nat} {type : ModuleType} {output : ChainOutput}
variable {artifact : Artifact}

theorem owner_of_sideKey (hg : Sound p view (Made p view) g) (hid : id < g.size)
    (hsource : (g.get id).origin = .source) (howner : owner < g.size)
    (howner' : (g.get owner).origin = .source) {index' : Nat}
    (hkey : sideKey p (g.get owner) index' = sideKey p (g.get id) index) :
    owner = id ∧ index' = index := by
  obtain ⟨hfile, hindex⟩ := sideKey_injective hkey
  rw [← key_of_isFile hg howner (.inl howner'), ← key_of_isFile hg hid (.inl hsource)] at hfile
  have hlookup := hg.lookup_key owner howner
  rw [hfile, hg.lookup_key id hid] at hlookup
  exact ⟨(Option.some.inj hlookup).symm, hindex⟩

theorem holds_iff (hg : Sound p view (Made p view) g) (hid : id < g.size)
    (hsource : (g.get id).origin = .source) (hmade : Made p view (g.get id).path type output)
    (hartifact : output.side[index]? = some artifact)
    (hlookup : g.lookup (sideKey p (g.get id) index) = some target) :
    Holds (g.get target) id (g.get id) index artifact ↔ ∃ owner, (g.get target).origin = .side owner := by
  constructor
  · exact fun h => ⟨id, h.origin⟩
  · rintro ⟨owner, hside⟩
    obtain ⟨htarget, hkey⟩ := key_of_lookup hlookup
    obtain ⟨howner, howner', type', output', index', artifact', hmade', hartifact', hsame⟩ :=
      exists_side hg htarget hside
    obtain ⟨rfl, rfl⟩ := owner_of_sideKey hg hid hsource howner howner' (hsame.key.symm.trans hkey)
    obtain ⟨rfl, rfl⟩ := hmade.unique hmade'
    obtain rfl : artifact = artifact' := Option.some.inj (hartifact.symm.trans hartifact')
    obtain ⟨-, hcontent, hhash⟩ := hsame.content nofun
    exact ⟨hside, hsame.path, hsame.query, hcontent, hhash⟩

/-- Every side artifact of a file has a key under which the file depends on a module. That module holds
the artifact if and only if it holds a side artifact at all, so that no specifier had the key before. -/
theorem side_artifact_kept_iff (h : ((run p view entries).run.run cache).run = (.ok d, after))
    (hcache : Reliable p view d.graph cache) (hid : id < d.graph.size)
    (hsource : (d.graph.get id).origin = .source) :
    ∃ output, Made p view (d.graph.get id).path (d.graph.get id).type output ∧
      ∀ index artifact, output.side[index]? = some artifact → ∃ target,
        d.graph.lookup (sideKey p (d.graph.get id) index) = some target ∧
        ⟨"?" ++ sideQuery (d.graph.get id).query index, target, .static⟩ ∈
          (d.graph.get id).dependencies ∧
        (Holds (d.graph.get target) id (d.graph.get id) index artifact ↔
          ∃ owner, (d.graph.get target).origin = .side owner) := by
  have hcomplete := complete_of_run h hcache
  obtain ⟨type, output, hmade, hfinished⟩ := hcomplete.finished id hid hsource
  obtain ⟨rfl, -, -⟩ := hfinished.settled
  refine ⟨output, hmade, fun index artifact hartifact => ?_⟩
  obtain ⟨target, hlookup, hmem, -⟩ := hfinished.attached index artifact hartifact
  exact ⟨target, hlookup, hmem,
    holds_iff hcomplete.sound hid hsource hmade hartifact hlookup⟩

/-- Stylesheets are set apart. -/
def styleProject : Project where
  resolver := plainProject.resolver
  rules := {
    rules := [{
      test := .seq [.literal ".css".toList, .look .textEnd], stages := [{ transform := .extractCss }]
      type := none, assetKind := none, exclusive := false, threshold := none }]
    json := none
    copyUnknown := false }
  noParse := []

def styleStore : FaultyStore where
  store := .ofFiles [
    (⟨"/p/q.js"⟩, "require(\"./a.css?side=0\")".toUTF8),
    (⟨"/p/e.js"⟩, "require(\"./a.css\")".toUTF8), (⟨"/p/a.css"⟩, "b\x7b\x7d".toUTF8)]

theorem side_of_made {path : Path} (h : Made p view path type output) :
    ((call? p view path).bind fun call => (call.chain.execute call.input call.path).toOption).map
      ChainOutput.side = some output.side := by
  obtain ⟨content, found, hread, hmatch, rfl, houtput⟩ := h
  rw [call?_eq_some.mpr ⟨content, found, hread, hmatch, rfl⟩]
  simp [houtput, Except.toOption]

theorem side_of_stylesheet (h : Made styleProject styleStore.view ⟨"/p/a.css"⟩ type output) :
    output.side = [.ofText .style "b\x7b\x7d"] := by
  have hside := side_of_made h
  have hstyle : ((call? styleProject styleStore.view ⟨"/p/a.css"⟩).bind fun call =>
      (call.chain.execute call.input call.path).toOption).map ChainOutput.side =
        some [.ofText .style "b\x7b\x7d"] := by
    decide +kernel
  exact (Option.some.inj (hstyle.symm.trans hside)).symm

theorem side_artifact_kept_iff_stylesheet : ∃ d after target,
    ((run styleProject styleStore.view [("second", "./e.js")]).run.run none).run = (.ok d, after) ∧
      1 < d.graph.size ∧ (d.graph.get 1).path = ⟨"/p/a.css"⟩ ∧ (d.graph.get 1).origin = .source ∧
      Holds (d.graph.get target) 1 (d.graph.get 1) 0 (.ofText .style "b\x7b\x7d") := by
  obtain ⟨d, after, hrun, hsize, hpath, hsource, hquery, hlookup, hside⟩ := exists_ok
    (fun d : Discovery => d.graph.size = 3 ∧ (d.graph.get 1).path = ⟨"/p/a.css"⟩ ∧
      (d.graph.get 1).origin = .source ∧ (d.graph.get 1).query = none ∧
      d.graph.lookup "./a.css?side=0" = some 2 ∧ (d.graph.get 2).origin = .side 1)
    (((run styleProject styleStore.view [("second", "./e.js")]).run.run none).run)
    (by decide +kernel)
  have hlt : 1 < d.graph.size := hsize ▸ by decide
  obtain ⟨output, hmade, hkept⟩ := side_artifact_kept_iff hrun reliable_none hlt hsource
  rw [hpath] at hmade
  obtain ⟨target, hfound, -, hiff⟩ := hkept 0 _ (by rw [side_of_stylesheet hmade]; rfl)
  have hkey : sideKey styleProject (d.graph.get 1) 0 = "./a.css?side=0" := by
    rw [sideKey, hpath, hquery]
    decide +kernel
  rw [hkey, hlookup] at hfound
  obtain rfl := Option.some.inj hfound
  exact ⟨d, after, 2, hrun, hlt, hpath, hsource, hiff.mpr ⟨1, hside⟩⟩

/-- An import with the query of a side artifact takes its key, and the artifact is lost. -/
theorem import_takes_side_key : ∃ d after output,
    ((run styleProject styleStore.view [("first", "./q.js"), ("second", "./e.js")]).run.run none).run =
        (.ok d, after) ∧
      (d.graph.get 3).origin = .source ∧
      Made styleProject styleStore.view (d.graph.get 3).path (d.graph.get 3).type output ∧
      output.side[0]? = some (.ofText .style "b\x7b\x7d") ∧
      ∀ target < d.graph.size,
        ¬ Holds (d.graph.get target) 3 (d.graph.get 3) 0 (.ofText .style "b\x7b\x7d") := by
  obtain ⟨d, after, hrun, hsize, hpath, hsource, hsides⟩ := exists_ok
    (fun d : Discovery => d.graph.size = 5 ∧ (d.graph.get 3).path = ⟨"/p/a.css"⟩ ∧
      (d.graph.get 3).origin = .source ∧ ∀ m ∈ d.graph.modules, m.origin ≠ .side 3)
    (((run styleProject styleStore.view
      [("first", "./q.js"), ("second", "./e.js")]).run.run none).run)
    (by decide +kernel)
  have hcomplete := complete_of_run hrun reliable_none
  obtain ⟨type, output, hmade, hfinished⟩ := hcomplete.finished 3 (hsize ▸ by decide) hsource
  obtain ⟨rfl, -, -⟩ := hfinished.settled
  refine ⟨d, after, output, hrun, hsource, hmade, ?_, fun target htarget hholds => ?_⟩
  · rw [hpath] at hmade
    rw [side_of_stylesheet hmade]
    rfl
  · have hmem := List.getElem_mem htarget
    rw [← get_eq_getElem htarget] at hmem
    exact hsides _ hmem hholds.origin

end WebBundle.Proofs.SideModules

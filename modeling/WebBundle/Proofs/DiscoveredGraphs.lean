import WebBundle.Proofs.DiscoveryRun
import WebBundle.Proofs.ModuleOrigins
import WebBundle.Store.Faulty

namespace WebBundle.Proofs.DiscoveredGraphs

open Relation
open WebBundle.Discovery
open WebBundle.Proofs.CachedRuns
open WebBundle.Proofs.DiscoveryRun
open WebBundle.Proofs.DiscoverySteps
open WebBundle.Proofs.GraphGrowth
open WebBundle.Proofs.LinkedModules
open WebBundle.Proofs.ModuleOrigins
open WebBundle.Proofs.ProcessedFiles
open WebBundle.Proofs.ResolvedFiles

/-- What is to be said of the graph of some entries. -/
structure Discovered (p : Project) (view : FileView Id) (entries : List (String × String))
    (g : ModuleGraph) : Prop where
  lookup_iff : ∀ id < g.size, ∀ key, g.lookup key = some id ↔ (g.get id).key = key
  target_lt : ∀ id < g.size, ∀ dependency ∈ (g.get id).dependencies, dependency.target < g.size
  reached : ∀ id < g.size, ∃ entry, g.isEntry entry = true ∧ ReflTransGen (Depends g) entry id
  isEntry_iff : ∀ id, g.isEntry id = true ↔ ∃ entry ∈ entries, ∃ path query,
    (p.resolver.resolve view (entryRequest entry.2) p.resolver.context).run = .ok (.file path query) ∧
      g.lookup (path.moduleKey p.resolver.context query) = some id
  /-- The artifact of a file is what its chain makes of it, and size and hash are those of the artifact. -/
  made : ∀ id < g.size, (g.get id).origin = .source → ∃ output,
    Made p view (g.get id).path (g.get id).type output ∧ (g.get id).artifact = output.primary ∧
      (g.get id).size = output.primary.content.size ∧
      (g.get id).contentHash = Digest.contentHash output.primary.content
  /-- Each import of a file that is scanned is resolved in the directory of the file, and it is a
  dependency on the module that is found by the key of what it was resolved to. This module stands for
  it if and only if it tells it apart. -/
  followed : ∀ id < g.size, (g.get id).origin = .source →
    parses p (g.get id).type (g.get id).path = true → ∀ i ∈ (g.get id).artifact.imports,
      ∃ resolution target,
        (p.resolver.resolve view i.specifier ((g.get id).directory p.resolver.context)).run =
          .ok resolution ∧
        g.lookup (wanted p.resolver.context ((g.get id).directory p.resolver.context) i.specifier
          resolution).key = some target ∧
        ⟨i.specifier, target, i.kind⟩ ∈ (g.get id).dependencies ∧
        (Plain p.resolver.extensions → Forward resolution →
          (StandsFor (g.get target) resolution ↔
            TellsApart p.resolver.context (g.get target) resolution))

variable {p : Project} {view : FileView Id} {R : Makes} {g : ModuleGraph} {d : Discovery}
variable {cache after : Option Cache} {entries : List (String × String)} {id : ModuleId}

theorem isEntry_eq_true_iff : g.isEntry id = true ↔ ∃ entry ∈ g.entries, entry.2 = id := by
  rw [ModuleGraph.isEntry, List.any_eq_true]
  simp only [beq_iff_eq]

theorem lookup_eq_iff (hg : Sound p view R g) (hid : id < g.size) (key : String) :
    g.lookup key = some id ↔ (g.get id).key = key := by
  constructor
  · exact fun h => (key_of_lookup h).2
  · rintro rfl
    exact hg.lookup_key id hid

theorem exists_entry_of_forall₂ {entered : List (String × ModuleId)}
    (h : List.Forall₂ (EntryFor p view g) entries entered) (id : ModuleId) :
    (∃ entry ∈ entered, entry.2 = id) ↔ ∃ entry ∈ entries, ∃ path query,
      (p.resolver.resolve view (entryRequest entry.2) p.resolver.context).run =
        .ok (.file path query) ∧
      g.lookup (path.moduleKey p.resolver.context query) = some id := by
  induction h with
  | nil => simp
  | cons hfirst _ ih =>
      obtain ⟨-, path, query, hresolve, hlookup⟩ := hfirst
      rw [List.exists_mem_cons_iff, List.exists_mem_cons_iff, ih]
      refine or_congr ⟨?_, ?_⟩ Iff.rfl
      · rintro rfl
        exact ⟨path, query, hresolve, hlookup⟩
      · rintro ⟨path', query', hresolve', hlookup'⟩
        obtain ⟨rfl, rfl⟩ : path = path' ∧ query = query' := by
          simpa using Except.ok.inj (hresolve.symm.trans hresolve')
        exact Option.some.inj (hlookup.symm.trans hlookup')

theorem discovered_of_complete (h : Complete p view entries g) : Discovered p view entries g where
  lookup_iff := fun id hid key => lookup_eq_iff h.sound hid key
  target_lt := fun id _ => h.sound.target_lt id
  reached := by
    intro id hid
    obtain ⟨entry, hentry, hpath⟩ := h.sound.reached id hid
    exact ⟨entry.2, isEntry_eq_true_iff.mpr ⟨entry, hentry, rfl⟩, hpath⟩
  isEntry_iff := fun id => isEntry_eq_true_iff.trans (exists_entry_of_forall₂ h.entered id)
  made := by
    intro id hid hsource
    obtain ⟨type, output, hmade, hfinished⟩ := h.finished id hid hsource
    obtain ⟨rfl, hartifact, hhash⟩ := hfinished.settled
    exact ⟨output, hmade, hartifact, by rw [Module.size, hartifact], hhash⟩
  followed := by
    intro id hid hsource hparse i hi
    obtain ⟨type, output, hmade, hfinished⟩ := h.finished id hid hsource
    obtain ⟨rfl, hartifact, -⟩ := hfinished.settled
    rw [hartifact] at hi
    obtain ⟨resolution, target, hresolve, hlookup, hmem⟩ := hfinished.followed hparse i hi
    exact ⟨resolution, target, hresolve, hlookup, hmem, fun hplain hforward =>
      standsFor_iff h.sound hplain hresolve hforward hlookup⟩

/-- A discovery that succeeds, with a cache that is safe for its files, ends with such a graph. -/
theorem run_discovered (h : ((run p view entries).run.run cache).run = (.ok d, after))
    (hcache : Reliable p view d.graph cache) : Discovered p view entries d.graph :=
  discovered_of_complete (complete_of_run h hcache)

/-- Two scripts of one text, which requires the second. -/
def twins : FileView Id where
  read path :=
    if path.text = "/p/e.js" ∨ path.text = "/p/a.js" then .ok "require(\"./a\")".toUTF8
    else .error (.notFound path.text)
  isFile path := decide (path.text = "/p/e.js" ∨ path.text = "/p/a.js")
  isDir _ := false

def plainProject : Project where
  resolver := { context := ⟨"/p"⟩, aliases := [], extensions := [".js"], modulePaths := []
                mainFields := [], ignore := [], externals := ∅ }
  rules := { rules := [], json := none, copyUnknown := false }
  noParse := []

theorem exists_ok {ε α β : Type} (P : α → Prop) [DecidablePred P] (result : Except ε α × β)
    (h : result.1.toOption.any (fun a => decide (P a)) = true) :
    ∃ a b, result = (.ok a, b) ∧ P a := by
  obtain ⟨_ | a, b⟩ := result
  · exact absurd h Bool.false_ne_true
  · exact ⟨a, b, rfl, of_decide_eq_true h⟩

theorem chain_of_script {path : Path} {found : RuleMatch}
    (hpath : path.text = "/p/e.js" ∨ path.text = "/p/a.js")
    (h : plainProject.rules.matchPath? path = some found) : found.chain.declared = [] := by
  have hlength : (plainProject.rules.matchPath? path).map (·.chain.declared.length) = some 0 := by
    obtain ⟨text⟩ := path
    rcases hpath with rfl | rfl <;> decide +kernel
  rw [h] at hlength
  exact List.length_eq_zero_iff.mp (Option.some.inj hlength)

theorem call_twins {path : Path} {call : Call} (h : call? plainProject twins path = some call) :
    call.chain.declared = [] ∧ call.input.content = "require(\"./a\")".toUTF8 := by
  obtain ⟨content, found, hread, hmatch, rfl⟩ := call?_eq_some.mp h
  simp only [twins, Id.run] at hread
  by_cases hpath : path.text = "/p/e.js" ∨ path.text = "/p/a.js"
  · rw [if_pos hpath] at hread
    exact ⟨chain_of_script hpath hmatch, (Except.ok.inj hread).symm⟩
  · rw [if_neg hpath] at hread
    exact absurd hread nofun

theorem reliable_twins (g : ModuleGraph) : Reliable plainProject twins g (some {}) := by
  refine ⟨[], fun c hc => ?_⟩
  obtain rfl := Option.some.inj hc
  have hcall : ∀ call ∈ [] ++ callsOf plainProject twins g,
      call.chain.declared = [] ∧ call.input.content = "require(\"./a\")".toUTF8 := by
    intro call hcall
    obtain ⟨_, -, -, hcall⟩ := mem_callsOf_iff.mp hcall
    exact call_twins hcall
  refine ⟨truthful_empty _, fun first hfirst second hsecond _ => ?_, fun call hmem s hs => ?_,
    fun first hfirst _ _ s hs => ?_, fun call hmem s hs => ?_⟩
  · rw [(hcall first hfirst).2, (hcall second hsecond).2]
  · rw [(hcall call hmem).1] at hs
    exact absurd hs List.not_mem_nil
  · rw [(hcall first hfirst).1] at hs
    exact absurd hs List.not_mem_nil
  · rw [(hcall call hmem).1] at hs
    exact absurd hs List.not_mem_nil

theorem run_discovered_twins : ∃ d after,
    ((run plainProject twins [("main", "./e.js")]).run.run (some {})).run = (.ok d, after) ∧
      Reliable plainProject twins d.graph (some {}) ∧ d.graph.size = 2 ∧
      Discovered plainProject twins [("main", "./e.js")] d.graph := by
  obtain ⟨d, after, hrun, hsize⟩ := exists_ok (fun d : Discovery => d.graph.size = 2)
    (((run plainProject twins [("main", "./e.js")]).run.run (some {})).run)
    (by decide +kernel)
  exact ⟨d, after, hrun, reliable_twins d.graph, hsize, run_discovered hrun (reliable_twins d.graph)⟩

/-- A file with a question mark in its name, the file that is named before the mark, and two scripts
of which one imports the first file by an alias and the other the second one with a query. -/
def markedStore : FaultyStore where
  store := .ofFiles [
    (⟨"/p/src/q.js"⟩, "require(\"q\")".toUTF8),
    (⟨"/p/src/e.js"⟩, "require(\"../a.js?b.js\")".toUTF8),
    (⟨"/p/a.js"⟩, "1".toUTF8), (⟨"/p/a.js?b.js"⟩, "2".toUTF8)]

def aliasProject : Project where
  resolver := { plainProject.resolver with aliases := [⟨"q", false, "/p/a.js?b.js"⟩] }
  rules := plainProject.rules
  noParse := []

def markedEntries : List (String × String) := [("first", "./src/q.js"), ("second", "./src/e.js")]

/-- The import with a query is a dependency on the file with the question mark. -/
theorem import_blurs_into_marked_file : ∃ d after,
    ((run aliasProject markedStore.view markedEntries).run.run none).run = (.ok d, after) ∧
      (d.graph.get 1).path = ⟨"/p/src/e.js"⟩ ∧ (d.graph.get 1).origin = .source ∧
      parses aliasProject (d.graph.get 1).type (d.graph.get 1).path = true ∧
      ⟨"../a.js?b.js", .static⟩ ∈ (d.graph.get 1).artifact.imports ∧
      (aliasProject.resolver.resolve markedStore.view "../a.js?b.js"
        ((d.graph.get 1).directory aliasProject.resolver.context)).run =
          .ok (.file ⟨"/p/a.js"⟩ (some "b.js")) ∧
      ∀ dependency ∈ (d.graph.get 1).dependencies,
        ¬ StandsFor (d.graph.get dependency.target) (.file ⟨"/p/a.js"⟩ (some "b.js")) := by
  obtain ⟨d, after, hrun, hpath, horigin, hparse, himports, hdependencies, htarget⟩ := exists_ok
    (fun d : Discovery => (d.graph.get 1).path = ⟨"/p/src/e.js"⟩ ∧
      (d.graph.get 1).origin = .source ∧
      parses aliasProject (d.graph.get 1).type (d.graph.get 1).path = true ∧
      ⟨"../a.js?b.js", .static⟩ ∈ (d.graph.get 1).artifact.imports ∧
      (d.graph.get 1).dependencies = [⟨"../a.js?b.js", 2, .static⟩] ∧
      (d.graph.get 2).path = ⟨"/p/a.js?b.js"⟩)
    (((run aliasProject markedStore.view markedEntries).run.run none).run)
    (by decide +kernel)
  refine ⟨d, after, hrun, hpath, horigin, hparse, himports, ?_, fun dependency hmem hstands => ?_⟩
  · rw [Module.directory, hpath]
    decide +kernel
  · rw [hdependencies] at hmem
    obtain rfl := List.mem_singleton.mp hmem
    have hpath' := htarget.symm.trans hstands.2.1
    exact absurd hpath' (by decide)

end WebBundle.Proofs.DiscoveredGraphs

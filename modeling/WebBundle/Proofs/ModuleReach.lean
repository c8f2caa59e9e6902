import WebBundle.Graph.ModuleGraph
import WebBundle.Proofs.Reachability

namespace WebBundle.Proofs.ModuleReach

open Relation
open WebBundle.Proofs.Reachability

/-- The ids in a module graph stand for modules. -/
structure WellFormed (g : ModuleGraph) : Prop where
  entry_lt : ∀ entry ∈ g.entries, entry.2 < g.size
  target_lt : ∀ m ∈ g.modules, ∀ dependency ∈ m.dependencies, dependency.target < g.size

variable {g : ModuleGraph}

def Imports (g : ModuleGraph) (kind : ImportKind) (importer target : ModuleId) : Prop :=
  target ∈ (g.get importer).targets kind

theorem next_ofKind (kind : ImportKind) (id : ModuleId) :
    (g.ofKind kind).next id = (g.get id).targets kind := by
  simp only [ModuleGraph.ofKind, ModuleGraph.get, Array.getD_eq_getD_getElem?,
    List.getElem?_toArray, List.getElem?_map, List.getD_eq_getElem?_getD]
  cases g.modules[id]? with
  | none => rfl
  | some m => rfl

theorem edge_ofKind {kind : ImportKind} : Edge (g.ofKind kind) = Imports g kind := by
  funext importer target
  rw [Edge, next_ofKind, Imports]

theorem Imports.exists_module {kind : ImportKind} {importer target : ModuleId}
    (h : Imports g kind importer target) :
    ∃ m, g.modules[importer]? = some m ∧ target ∈ m.targets kind := by
  simp only [Imports, ModuleGraph.get, List.getD_eq_getElem?_getD] at h
  cases hm : g.modules[importer]? with
  | none =>
      rw [hm] at h
      exact absurd h List.not_mem_nil
  | some m =>
      rw [hm] at h
      exact ⟨m, rfl, h⟩

theorem WellFormed.import_lt (hg : WellFormed g) {kind : ImportKind} {importer target : ModuleId}
    (h : Imports g kind importer target) : target < g.size := by
  obtain ⟨m, hm, htarget⟩ := h.exists_module
  simp only [Module.targets, List.mem_map, List.mem_filter] at htarget
  obtain ⟨dependency, ⟨hdep, -⟩, rfl⟩ := htarget
  exact hg.target_lt m (List.mem_of_getElem? hm) dependency hdep

theorem WellFormed.closed_ofKind (hg : WellFormed g) (kind : ImportKind) :
    Closed (g.ofKind kind) := by
  intro importer _ target htarget
  rw [next_ofKind] at htarget
  exact hg.import_lt htarget

theorem mem_staticClosure_iff (hg : WellFormed g) {root m : ModuleId} (hroot : root < g.size) :
    m ∈ g.staticClosure root ↔ ReflTransGen (Imports g .static) root m := by
  rw [ModuleGraph.staticClosure, mem_reach_iff (hg.closed_ofKind .static) hroot, edge_ofKind]

theorem mem_staticClosure_self (root : ModuleId) : root ∈ g.staticClosure root :=
  mem_reach_self

theorem mem_staticClosure_lt (hg : WellFormed g) {root m : ModuleId} (hroot : root < g.size)
    (hm : m ∈ g.staticClosure root) : m < g.size := by
  rcases ((mem_staticClosure_iff hg hroot).mp hm).cases_tail with rfl | ⟨importer, -, himport⟩
  · exact hroot
  · exact hg.import_lt himport

theorem mem_dynamicTargets_iff {target : ModuleId} :
    target ∈ g.dynamicTargets ↔ ∃ importer, Imports g .dynamic importer target := by
  simp only [ModuleGraph.dynamicTargets, List.mem_eraseDups, List.mem_flatMap]
  constructor
  · rintro ⟨m, hm, htarget⟩
    obtain ⟨importer, himporter⟩ := List.mem_iff_getElem?.mp hm
    refine ⟨importer, ?_⟩
    simpa [Imports, ModuleGraph.get, List.getD_eq_getElem?_getD, himporter] using htarget
  · rintro ⟨importer, himport⟩
    obtain ⟨m, hm, htarget⟩ := himport.exists_module
    exact ⟨m, List.mem_of_getElem? hm, htarget⟩

/-- Two entries: `c` needs a stylesheet, and `e` imports on demand a script that needs the same
stylesheet. -/
def sharedStylesheet : ModuleGraph where
  modules := [
    { key := "./src/c.js", path := ⟨"/p/src/c.js"⟩, origin := .source
      dependencies := [⟨"./m.css", 2, .static⟩] },
    { key := "./src/e.js", path := ⟨"/p/src/e.js"⟩, origin := .source
      dependencies := [⟨"./b", 3, .dynamic⟩] },
    { key := "./src/m.css", path := ⟨"/p/src/m.css"⟩, origin := .source, type := .style
      artifact := ⟨.style, .empty⟩ },
    { key := "./src/b.js", path := ⟨"/p/src/b.js"⟩, origin := .source
      dependencies := [⟨"./m.css", 2, .static⟩] }]
  entries := [("c", 0), ("e", 1)]

theorem wellFormed_sharedStylesheet : WellFormed sharedStylesheet := ⟨by decide, by decide⟩

end WebBundle.Proofs.ModuleReach

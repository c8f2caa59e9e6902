import WebBundle.Output.Body
import WebBundle.Proofs.DepthFirstOrder

namespace WebBundle.Proofs.StyleOrder

open Output
open Relation
open WebBundle.Proofs.DepthFirstOrder
open WebBundle.Proofs.Reachability

variable {g : ModuleGraph} {chunk : IdSet} {importer target id : ModuleId}

/-- A module of a chunk has a static import of another one of the chunk. -/
structure ImportsWithin (g : ModuleGraph) (chunk : IdSet) (importer target : ModuleId) : Prop where
  importer_mem : importer ∈ chunk
  target_mem : target ∈ chunk
  import_mem : ∃ d ∈ (g.get importer).dependencies, d.target = target ∧ d.kind = .static

/-- An order of the stylesheets of a chunk: each is listed once, and behind those that it imports, as far
as they do not lead back to it. -/
structure IsStyleOrder (g : ModuleGraph) (chunk : IdSet) (order : List ModuleId) : Prop where
  nodup : order.Nodup
  mem_iff : ∀ id, id ∈ order ↔ id ∈ chunk ∧ (g.get id).isStyle = true
  imported_first : ∀ importer ∈ order, ∀ target ∈ order, ImportsWithin g chunk importer target →
    ¬ ReflTransGen (ImportsWithin g chunk) target importer → [target, importer].Sublist order

theorem edge_inside : Edge (inside g chunk) importer target ↔
    target ∈ chunk ∧ ∃ d ∈ (g.get importer).dependencies, d.target = target ∧ d.kind = .static := by
  simp only [Edge, inside, Module.targets, List.mem_filter, List.mem_map, IdSet.contains_iff,
    beq_iff_eq]
  constructor
  · rintro ⟨⟨d, ⟨hd, hkind⟩, htarget⟩, hmem⟩
    exact ⟨hmem, d, hd, htarget, hkind⟩
  · rintro ⟨hmem, d, hd, htarget, hkind⟩
    exact ⟨⟨d, ⟨hd, hkind⟩, htarget⟩, hmem⟩

theorem closed_inside (h : ∀ id ∈ chunk, id < g.size) : Closed (inside g chunk) := fun _ _ target htarget =>
  h target (edge_inside.mp htarget).1

theorem importsWithin_of_edges (hid : id ∈ chunk) (h : ReflTransGen (Edge (inside g chunk)) id target) :
    ReflTransGen (ImportsWithin g chunk) id target := by
  have hstays : ReflTransGen (ImportsWithin g chunk) id target ∧ target ∈ chunk := by
    induction h with
    | refl => exact ⟨.refl, hid⟩
    | tail _ hedge ih =>
        obtain ⟨hmem, himport⟩ := edge_inside.mp hedge
        exact ⟨ih.1.tail ⟨ih.2, hmem, himport⟩, hmem⟩
  exact hstays.1

theorem isStyleOrder_of_ordered {walk : Digraph.Walk} (hordered : Ordered (inside g chunk) walk)
    (hleft : ∀ id, id ∈ walk.left ↔ id ∈ chunk) :
    IsStyleOrder g chunk (walk.left.reverse.filter fun id => (g.get id).isStyle) where
  nodup := (List.nodup_reverse.mpr hordered.nodup).filter _
  mem_iff id := by rw [List.mem_filter, List.mem_reverse, hleft]
  imported_first := by
    intro importer himporter target htarget himport hback
    obtain ⟨hmem, himporter⟩ := List.mem_filter.mp himporter
    obtain ⟨-, htarget⟩ := List.mem_filter.mp htarget
    obtain ⟨later, earlier, hsplit⟩ := List.append_of_mem (List.mem_reverse.mp hmem)
    have hedge : Edge (inside g chunk) importer target :=
      edge_inside.mpr ⟨himport.target_mem, himport.import_mem⟩
    have hearlier : target ∈ earlier :=
      (hordered.behind later importer earlier hsplit target hedge).resolve_right fun hwalk =>
        hback (importsWithin_of_edges himport.target_mem hwalk)
    have hsub : [target, importer].Sublist walk.left.reverse := by
      rw [hsplit, List.reverse_append, List.reverse_cons, ← List.singleton_append (x := target)]
      exact ((List.singleton_sublist.mpr (List.mem_reverse.mpr hearlier)).append (.refl _)).trans
        (List.sublist_append_left _ _)
    have hstyles : [target, importer].filter (fun id => (g.get id).isStyle) = [target, importer] := by
      simp [htarget, himporter]
    rw [← hstyles]
    exact hsub.filter _

/-- For a chunk of any graph, however its modules import each other, the search for the order of its
stylesheets ends, and finds one. -/
theorem styleOrder_isStyleOrder (h : ∀ id ∈ chunk, id < g.size) :
    (∃ walk, Searches (inside g chunk).next {} chunk.toList walk ∧
      styleOrder g chunk = walk.left.reverse.filter fun id => (g.get id).isStyle) ∧
    IsStyleOrder g chunk (styleOrder g chunk) := by
  have hlt : ∀ id ∈ chunk.toList, id < (inside g chunk).size := fun id hid =>
    h id (IdSet.mem_toList.mp hid)
  obtain ⟨hordered, hall⟩ := walk_nodes (closed_inside h) hlt
  have hsearch : Searches (inside g chunk).next {} chunk.toList
      ((inside g chunk).walk chunk.toList) :=
    searches_foldl (closed_inside h) hlt (Nat.lt_succ_of_le card_remaining_le_size)
  have hentered : ∀ id ∈ ((inside g chunk).walk chunk.toList).entered, id ∈ chunk :=
    hsearch.entered (fun _ _ target htarget => (edge_inside.mp htarget).1)
      (fun _ => IdSet.mem_toList.mp) (by simp)
  refine ⟨⟨_, hsearch, rfl⟩, isStyleOrder_of_ordered hordered fun id => ?_⟩
  exact ⟨fun hid => hentered id (hordered.left_entered id hid), fun hid =>
    hall id (IdSet.mem_toList.mpr hid)⟩

def sheet (key : String) (imports : List ModuleId) : Module where
  key
  path := ⟨"/p/" ++ key⟩
  origin := .source
  artifact := ⟨.style, ByteArray.empty⟩
  dependencies := imports.map fun id => ⟨toString id, id, .static⟩

/-- A script imports the sheet of its page, which imports a theme; the theme and its colors import each
other. -/
def themedPage : ModuleGraph where
  modules := [
    { sheet "page.js" [1] with artifact := ⟨.script, ByteArray.empty⟩ },
    sheet "page.css" [2],
    sheet "theme.css" [3],
    sheet "colors.css" [2]]

theorem styleOrder_isStyleOrder_themedPage :
    (∀ id ∈ IdSet.below 4, id < themedPage.size) ∧
      IsStyleOrder themedPage (.below 4) (styleOrder themedPage (.below 4)) ∧
      styleOrder themedPage (.below 4) = [3, 2, 1] := by
  have hmodules : ∀ id ∈ IdSet.below 4, id < themedPage.size := fun _ => IdSet.mem_below.mp
  exact ⟨hmodules, (styleOrder_isStyleOrder hmodules).2, by decide +kernel⟩

end WebBundle.Proofs.StyleOrder

import WebBundle.Proofs.ChunkOrder
import WebBundle.Proofs.StackSearch

namespace WebBundle.Proofs.LoadOrder

open Relation
open WebBundle.Proofs.ChunkOrder
open WebBundle.Proofs.DepthFirstOrder
open WebBundle.Proofs.Reachability
open WebBundle.Proofs.StackSearch

variable {chunks : List Chunk} {order : List ChunkId} {id other : ChunkId} {e : BuildError}

/-- The chunks that depend on a chunk, each as often as it names it. -/
def followers (chunks : List Chunk) (id : ChunkId) : List ChunkId :=
  chunks.zipIdx.flatMap fun (c, other) => (c.dependencies.filter (· == id)).map fun _ => other

/-- The chunks that a chunk on a cycle waits for while they wait for it, each once. -/
structure IsKnot (chunks : List Chunk) (knot : List ChunkId) : Prop where
  nodup : knot.Nodup
  mem_iff : ∃ id, TransGen (Needs chunks) id id ∧ ∀ other, other ∈ knot ↔
    ReflTransGen (Needs chunks) id other ∧ ReflTransGen (Needs chunks) other id

theorem repeats_followers (chunks : List Chunk) (id : ChunkId) :
    Repeats ((Chunk.dependents chunks).next id) (followers chunks id) := by
  simp only [Chunk.dependents, followers]
  -- A chunk that names `id` several times stands several times in a row; any other one not at all.
  induction chunks.zipIdx with
  | nil => exact .nil
  | cons first rest ih =>
      obtain ⟨c, other⟩ := first
      rw [List.flatMap_cons, List.map_const']
      by_cases hid : id ∈ c.dependencies
      · rw [List.filterMap_cons_some (b := other) (by simp [hid])]
        have hpos : 0 < (c.dependencies.filter (· == id)).length :=
          List.length_pos_of_mem (List.mem_filter.mpr ⟨hid, by simp⟩)
        rw [← Nat.succ_pred_eq_of_pos hpos]
        exact .cons other _ ih
      · rw [List.filterMap_cons_none (by simp [hid]), List.filter_eq_nil_iff.mpr]
        · exact ih
        · rintro dependency hdep heq
          exact hid (beq_iff_eq.mp heq ▸ hdep)

/-- The walk that gives the load order is a search with a stack, in which a chunk is followed by those that
depend on it, as often as they name it. -/
theorem byStack_followers (chunks : List Chunk) :
    ByStack (followers chunks) {} (List.range chunks.length)
      ((Chunk.dependents chunks).walk (List.range chunks.length)) := by
  have hsearch : Searches (Chunk.dependents chunks).next {} (List.range chunks.length)
      ((Chunk.dependents chunks).walk (List.range chunks.length)) :=
    searches_foldl (closed_dependents chunks) (fun _ => List.mem_range.mp)
      (Nat.lt_succ_of_le card_remaining_le_size)
  have hrange : Repeats (List.range chunks.length) (List.range chunks.length) := by
    generalize List.range chunks.length = ids
    induction ids with
    | nil => exact .nil
    | cons first rest ih => exact .cons first 0 ih
  exact byStack_of_searches (searches_repeats hsearch (by simp) (repeats_followers chunks) hrange) (by simp)
    fun _ h => List.not_mem_nil h.1

theorem lt_of_needs {dependency : ChunkId} (h : Needs chunks id dependency) : id < chunks.length := by
  obtain ⟨c, hc, -⟩ := h
  exact (List.getElem?_eq_some_iff.mp hc).1

theorem edges_dependents_iff : ReflTransGen (Edge (Chunk.dependents chunks)) id other ↔
    ReflTransGen (Needs chunks) other id := by
  have hswap : Edge (Chunk.dependents chunks) = Function.swap (Needs chunks) :=
    funext fun _ => funext fun _ => propext edge_dependents
  rw [hswap, reflTransGen_swap]

theorem mem_waitingWith_iff (hid : id < chunks.length) : other ∈ Chunk.waitingWith chunks id ↔
    ReflTransGen (Needs chunks) id other ∧ ReflTransGen (Needs chunks) other id := by
  have hclosed := closed_dependents chunks
  rw [Chunk.waitingWith, List.mem_filter, List.mem_range, Bool.and_eq_true, IdSet.contains_iff,
    IdSet.contains_iff, mem_reach_iff hclosed hid, edges_dependents_iff]
  constructor
  · rintro ⟨hother, hback, hto⟩
    rw [mem_reach_iff hclosed hother, edges_dependents_iff] at hto
    exact ⟨hto, hback⟩
  · rintro ⟨hto, hback⟩
    have hother : other < chunks.length := by
      rcases hback.cases_head with rfl | ⟨_, hneeds, -⟩
      · exact hid
      · exact lt_of_needs hneeds
    rw [mem_reach_iff hclosed hother, edges_dependents_iff]
    exact ⟨hother, hback, hto⟩

theorem map_name_eq {ids : List ChunkId} (h : ∀ id ∈ ids, id < chunks.length) :
    ids.map (fun id => chunks[id]?.map Chunk.name) =
      (ids.filterMap fun id => chunks[id]?.map Chunk.name).map some := by
  induction ids with
  | nil => rfl
  | cons id rest ih =>
      obtain ⟨hid, hrest⟩ := List.forall_mem_cons.mp h
      rw [List.map_cons, List.getElem?_eq_getElem hid, Option.map_some,
        List.filterMap_cons_some (by rw [List.getElem?_eq_getElem hid, Option.map_some]), List.map_cons,
        ih hrest]

theorem inOrder_of_loadOrder (h : Chunk.loadOrder chunks = .ok order) :
    order = ((Chunk.dependents chunks).walk (List.range chunks.length)).left ∧
      InOrder chunks order ∧ order.Perm (List.range chunks.length) := by
  obtain ⟨hordered, hall⟩ := walk_dependents chunks
  simp only [Chunk.loadOrder] at h
  split at h
  · next hnone =>
      obtain rfl := Except.ok.inj h
      have hlt : ∀ id ∈ ((Chunk.dependents chunks).walk (List.range chunks.length)).left,
          id < chunks.length := fun id hid => hordered.entered_lt id (hordered.left_entered id hid)
      refine ⟨rfl, ⟨hordered.nodup, hlt, fun earlier id later horder dependency hneeds => ?_⟩, ?_⟩
      · exact (needs_first_of_misplaced? hnone horder hneeds).resolve_left List.not_mem_nil
      · refine (List.perm_ext_iff_of_nodup hordered.nodup List.nodup_range).mpr fun id => ?_
        rw [List.mem_range]
        exact ⟨hlt id, hall id⟩
  · cases h

theorem isKnot_of_loadOrder
    (hdeps : ∀ c ∈ chunks, ∀ dependency ∈ c.dependencies, dependency < chunks.length)
    (h : Chunk.loadOrder chunks = .error e) : ∃ knot names, IsKnot chunks knot ∧
      knot.map (fun id => chunks[id]?.map Chunk.name) = names.map some ∧ e = .chunkCycle names := by
  simp only [Chunk.loadOrder] at h
  split at h
  · cases h
  · next id hid =>
      obtain rfl := Except.error.inj h
      obtain ⟨earlier, later, dependency, horder, hneeds, -, hout⟩ := misplaced?_eq_some hid
      obtain ⟨c, hc, hdep⟩ := hneeds
      have hlt := (List.getElem?_eq_some_iff.mp hc).1
      have hcycle := cycle_of_misplaced horder ⟨c, hc, hdep⟩
        (hdeps c (List.mem_of_getElem? hc) dependency hdep) hout
      refine ⟨Chunk.waitingWith chunks id, _, ⟨List.nodup_range.filter _, id, hcycle, fun other => ?_⟩,
        map_name_eq fun other hother => ?_, rfl⟩
      · exact mem_waitingWith_iff hlt
      · exact List.mem_range.mp (List.mem_of_mem_filter hother)

/-- Chunks have a load order if and only if none of them waits for itself. The order lists each chunk once,
behind all that it depends on, and is the one in which a search with a stack leaves the chunks, the last
first. Otherwise the error names the chunks that wait for each other in one place. -/
theorem loadOrder_iff_acyclic
    (hdeps : ∀ c ∈ chunks, ∀ dependency ∈ c.dependencies, dependency < chunks.length) :
    ((∃ order, Chunk.loadOrder chunks = .ok order) ↔ ∀ id, ¬ TransGen (Needs chunks) id id) ∧
    (∀ order, Chunk.loadOrder chunks = .ok order →
      order.Perm (List.range chunks.length) ∧ InOrder chunks order ∧
      ∃ walk, ByStack (followers chunks) {} (List.range chunks.length) walk ∧ order = walk.left) ∧
    ∀ e, Chunk.loadOrder chunks = .error e → ∃ knot names, IsKnot chunks knot ∧
      knot.map (fun id => chunks[id]?.map Chunk.name) = names.map some ∧ e = .chunkCycle names := by
  refine ⟨⟨?_, ?_⟩, fun order horder => ?_, fun e he => isKnot_of_loadOrder hdeps he⟩
  · rintro ⟨order, horder⟩ id hcycle
    obtain ⟨-, hinOrder, hperm⟩ := inOrder_of_loadOrder horder
    obtain ⟨dependency, hneeds, -⟩ := TransGen.head'_iff.mp hcycle
    exact hinOrder.not_transGen_self (hperm.mem_iff.mpr (List.mem_range.mpr (lt_of_needs hneeds))) hcycle
  · refine loadOrder_of_acyclic fun id dependency hneeds => ?_
    obtain ⟨c, hc, hdep⟩ := hneeds
    exact hdeps c (List.mem_of_getElem? hc) dependency hdep
  · obtain ⟨hwalk, hinOrder, hperm⟩ := inOrder_of_loadOrder horder
    exact ⟨hperm, hinOrder, _, byStack_followers chunks, hwalk⟩

def chunk (name : String) (dependencies : List ChunkId) : Chunk :=
  { name, initial := true, origin := .entry name, modules := ∅, size := 0, dependencies }

/-- A page names the chunk that it needs twice, and that one needs another. -/
def stacked : List Chunk := [chunk "page" [1, 1], chunk "shared" [2], chunk "vendor" []]

/-- A page needs a chunk that waits for another one while that waits for it. -/
def knotted : List Chunk := [chunk "page" [1], chunk "left" [2], chunk "right" [1]]

theorem loadOrder_iff_acyclic_knotted :
    (∀ c ∈ stacked, ∀ dependency ∈ c.dependencies, dependency < stacked.length) ∧
      (∀ id, ¬ TransGen (Needs stacked) id id) ∧ InOrder stacked [2, 1, 0] ∧
      (∀ c ∈ knotted, ∀ dependency ∈ c.dependencies, dependency < knotted.length) ∧
      (∃ id, TransGen (Needs knotted) id id) ∧ ∃ knot, IsKnot knotted knot ∧
        knot.map (fun id => knotted[id]?.map Chunk.name) = [some "left", some "right"] := by
  have hstacked : ∀ c ∈ stacked, ∀ dependency ∈ c.dependencies, dependency < stacked.length := by decide
  have hknotted : ∀ c ∈ knotted, ∀ dependency ∈ c.dependencies, dependency < knotted.length := by decide
  have hfound : Chunk.loadOrder stacked = .ok [2, 1, 0] := by decide +kernel
  have hfailed : Chunk.loadOrder knotted = .error (.chunkCycle ["left", "right"]) := by decide +kernel
  obtain ⟨hacyclic, horder, -⟩ := loadOrder_iff_acyclic hstacked
  obtain ⟨hcyclic, -, herror⟩ := loadOrder_iff_acyclic hknotted
  obtain ⟨knot, names, hknot, hnames, heq⟩ := herror _ hfailed
  obtain rfl := BuildError.chunkCycle.inj heq
  refine ⟨hstacked, hacyclic.mp ⟨_, hfound⟩, (horder _ hfound).2.1, hknotted, ?_, knot, hknot, hnames⟩
  -- Without a chunk that waits for itself there would be an order.
  by_contra hnone
  obtain ⟨order, hok⟩ := hcyclic.mpr fun id hcycle => hnone ⟨id, hcycle⟩
  exact absurd (hok.symm.trans hfailed) nofun

end WebBundle.Proofs.LoadOrder

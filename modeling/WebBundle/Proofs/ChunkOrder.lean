import WebBundle.Proofs.ChunkNumbering
import WebBundle.Proofs.DepthFirstOrder
import WebBundle.Proofs.SplittingRun

namespace WebBundle.Proofs.ChunkOrder

open Relation
open WebBundle.Proofs.BoundaryMembers
open WebBundle.Proofs.ChunkNumbering
open WebBundle.Proofs.DepthFirstOrder
open WebBundle.Proofs.DraftInvariant
open WebBundle.Proofs.Extraction
open WebBundle.Proofs.ExtractionInvariant
open WebBundle.Proofs.LoadList
open WebBundle.Proofs.ModuleReach
open WebBundle.Proofs.SplittingRun

/-- Chunks that may be loaded in the order of a list: none is loaded twice, and each comes
behind its dependencies. -/
structure InOrder (chunks : List Chunk) (ids : List ChunkId) : Prop where
  nodup : ids.Nodup
  lt : ∀ id ∈ ids, id < chunks.length
  needs_first : ∀ earlier id later, ids = earlier ++ id :: later →
    ∀ dependency, Needs chunks id dependency → dependency ∈ earlier

variable {chunks : List Chunk} {ids : List ChunkId} {id dependency : ChunkId}

theorem InOrder.mem_earlier (h : InOrder chunks ids) {earlier later : List ChunkId}
    (hids : ids = earlier ++ id :: later) (hneeds : TransGen (Needs chunks) id dependency) :
    dependency ∈ earlier := by
  induction hneeds with
  | single hneeds => exact h.needs_first earlier id later hids _ hneeds
  | tail _ hneeds ih =>
      obtain ⟨before, after, rfl⟩ := List.append_of_mem ih
      refine List.mem_append_left _ (h.needs_first before _ (after ++ id :: later) ?_ _ hneeds)
      rw [hids, List.append_assoc, List.cons_append]

theorem InOrder.not_transGen_self (h : InOrder chunks ids) (hid : id ∈ ids) :
    ¬ TransGen (Needs chunks) id id := by
  intro hcycle
  obtain ⟨earlier, later, rfl⟩ := List.append_of_mem hid
  have hearlier := h.mem_earlier rfl hcycle
  exact (List.nodup_append.mp h.nodup).2.2 id hearlier id List.mem_cons_self rfl

variable {s : Splitting} {g : ModuleGraph} {d : Draft} {cg : ChunkGraph}

theorem inOrder_of_mem (h : Sound d) {b : Boundary} (hb : b ∈ d.boundaries) :
    InOrder (chunksOf g d) (Draft.groupOf d.kept b).chunks where
  nodup := nodup_numbers nodup_kept (nodup_loadsOf h hb)
  lt := by
    intro id hid
    obtain ⟨chunk, -, hchunk⟩ := (mem_numbers nodup_kept).mp hid
    obtain ⟨c, hc, -⟩ := exists_chunk (g := g) hchunk
    exact (List.getElem?_eq_some_iff.mp hc).1
  needs_first := by
    intro earlier id later hids dependency hneeds
    obtain ⟨before, chunk, after, hloads, rfl, hchunk⟩ := numbers_split nodup_kept hids
    obtain ⟨c, hc, hdependency⟩ := hneeds
    obtain ⟨chunk', hchunk', hrepresents⟩ := exists_draft hc
    obtain rfl : chunk = chunk' := Option.some.inj (hchunk.symm.trans hchunk')
    rw [hrepresents.dependencies, mem_numbers nodup_kept] at hdependency
    obtain ⟨needed, hneeded, hnumber⟩ := hdependency
    have hbefore := needsFirst_loadsOf h hb before chunk after hloads needed hneeded
    exact (mem_numbers nodup_kept).mpr ⟨needed, hbefore, hnumber⟩

theorem exists_group_of_needs (h : Sound d) (hneeds : Needs (chunksOf g d) id dependency) :
    ∃ b ∈ d.boundaries, id ∈ (Draft.groupOf d.kept b).chunks := by
  obtain ⟨c, hc, hdependency⟩ := hneeds
  obtain ⟨chunk, hchunk, hrepresents⟩ := exists_draft hc
  rw [hrepresents.dependencies, mem_numbers nodup_kept] at hdependency
  obtain ⟨needed, hneeded, -⟩ := hdependency
  have hloaded : ∃ b ∈ d.boundaries, chunk ∈ loadsOf b := by
    by_cases hfree : Free d chunk
    · rw [dependenciesOf_free hfree] at hneeded
      obtain ⟨draft, hdraft, hmem⟩ := exists_chunk_of_needs hneeded
      obtain ⟨-, b, hb, hload⟩ := h.former_base chunk draft hdraft (List.ne_nil_of_mem hmem)
      exact ⟨b, hb, mem_loadsOf.mpr (.inl hload)⟩
    · obtain ⟨b, hb, hbase⟩ := exists_base_of_not_free hfree
      exact ⟨b, hb, mem_loadsOf.mpr (.inr hbase)⟩
  obtain ⟨b, hb, hload⟩ := hloaded
  exact ⟨b, hb, (mem_numbers nodup_kept).mpr ⟨chunk, hload, hchunk⟩⟩

theorem not_needs_cycle (h : Sound d) (id : ChunkId) :
    ¬ TransGen (Needs (chunksOf g d)) id id := by
  intro hcycle
  obtain ⟨dependency, hneeds, -⟩ := TransGen.head'_iff.mp hcycle
  obtain ⟨b, hb, hid⟩ := exists_group_of_needs h hneeds
  exact (inOrder_of_mem h hb).not_transGen_self hid hcycle

/-- The chunks of a draft can be put into a load order, so there is a chunk graph. -/
theorem exists_toChunkGraph (g : ModuleGraph) (h : Sound d) :
    ∃ cg, d.toChunkGraph g = .ok cg := by
  have hlt : ∀ id dependency, Needs (chunksOf g d) id dependency →
      dependency < (chunksOf g d).length := by
    intro id dependency hneeds
    obtain ⟨b, hb, hid⟩ := exists_group_of_needs h hneeds
    obtain ⟨earlier, later, hids⟩ := List.append_of_mem hid
    have hearlier := (inOrder_of_mem h hb).needs_first earlier id later hids dependency hneeds
    exact (inOrder_of_mem h hb).lt dependency (hids ▸ List.mem_append_left _ hearlier)
  obtain ⟨order, horder⟩ := loadOrder_of_acyclic hlt (not_needs_cycle h)
  rw [toChunkGraph_eq, horder]
  exact ⟨_, rfl⟩

/-- The groups of a chunk graph: those of entries, and then those of dynamic imports. -/
def groups (cg : ChunkGraph) : List ChunkGroup := cg.entrypoints ++ cg.asyncGroups

/-- A group ends with the chunk of its entry, which no other group has. -/
def EndsAtEntry (cg : ChunkGraph) (place : Nat) (group : ChunkGroup) : Prop :=
  ∃ earlier id c, group.chunks = earlier ++ [id] ∧ cg.chunks[id]? = some c ∧
    c.origin = .entry group.name ∧ group.root ∈ c.modules ∧
    ∀ (other : Nat) (second : ChunkGroup), (groups cg)[other]? = some second →
      id ∈ second.chunks → other = place

theorem endsAtEntry (h : Invariant g d) (hcg : Built g d cg) {place : Nat} {group : ChunkGroup}
    (hgroup : cg.entrypoints[place]? = some group) : EndsAtEntry cg place group := by
  have hplace : (groups cg)[place]? = some group := by
    rw [groups, List.getElem?_append_left (List.getElem?_eq_some_iff.mp hgroup).1, hgroup]
  rw [groups, hcg.groups, List.getElem?_map, Option.map_eq_some_iff] at hplace
  obtain ⟨b, hb, rfl⟩ := hplace
  have hinitial : b.initial = true := hcg.initial _ (List.mem_of_getElem? hgroup)
  obtain ⟨base, hbase, hroot⟩ := h.entry b (List.mem_of_getElem? hb) hinitial
  obtain ⟨id, hid⟩ := List.mem_iff_getElem?.mp (mem_kept.mpr ⟨b.root, hroot⟩)
  obtain ⟨c, hc, hrepresents⟩ := exists_chunk (g := g) hid
  refine ⟨numbers d.kept b.loads, id, c, ?_, hcg.chunks ▸ hc, ?_, ?_, ?_⟩
  · have hlast : Draft.idIn? d.kept base = some id := (idIn?_eq_some nodup_kept).mpr hid
    rw [chunks_groupOf, numbers, loadsOf, hbase, List.filterMap_append]
    simp [numbers, hlast]
  · obtain ⟨draft, hdraft, horigin⟩ := h.sound.base_chunk b (List.mem_of_getElem? hb) base hbase
    have heq : some draft.origin = some c.origin := by rw [← hrepresents.origin, hdraft]; rfl
    rw [← Option.some.inj heq, horigin, originOf, if_pos hinitial]
    rfl
  · rw [hrepresents.modules]
    exact hroot
  · intro other second hother hmem
    rw [groups, hcg.groups, List.getElem?_map, Option.map_eq_some_iff] at hother
    obtain ⟨b', hb', rfl⟩ := hother
    obtain ⟨chunk, hload, hchunk⟩ := (mem_numbers nodup_kept).mp hmem
    obtain rfl : base = chunk := Option.some.inj (hid.symm.trans hchunk)
    rcases mem_loadsOf.mp hload with hload | hbase'
    · exact absurd hbase ((h.sound.loads b' (List.mem_of_getElem? hb')).free base hload b
        (List.mem_of_getElem? hb))
    · exact h.sound.base_unique other place base (baseOf_eq_some.mpr ⟨b', hb', hbase'⟩)
        (baseOf_eq_some.mpr ⟨b, hb, hbase⟩)

/-- Chunk splitting gives a chunk graph, in which no chunk depends on itself, every group is in
order, and the group of every entry ends with a chunk of its own. -/
theorem chunkGraph_loads_in_order (s : Splitting) (g : ModuleGraph) :
    ∃ cg, s.chunkGraph g = .ok cg ∧
      (∀ id, ¬ TransGen (Needs cg.chunks) id id) ∧
      (∀ group ∈ groups cg, InOrder cg.chunks group.chunks) ∧
      cg.entrypoints.map ChunkGroup.root = g.entries.map (·.2) ∧
      ∀ (place : Nat) (group : ChunkGroup), cg.entrypoints[place]? = some group →
        EndsAtEntry cg place group := by
  have hinvariant : Invariant g (s.draft g) := invariant_draft
  obtain ⟨cg, hcg⟩ := exists_toChunkGraph g hinvariant.sound
  have hbuilt := built_of_toChunkGraph hinvariant hcg
  refine ⟨cg, hcg, ?_, ?_, hbuilt.entry_roots, fun place group => endsAtEntry hinvariant hbuilt⟩
  · rw [hbuilt.chunks]
    exact not_needs_cycle hinvariant.sound
  · intro group hgroup
    rw [groups, hbuilt.groups] at hgroup
    obtain ⟨b, hb, rfl⟩ := List.mem_map.mp hgroup
    rw [hbuilt.chunks]
    exact inOrder_of_mem hinvariant.sound hb

theorem chunkGraph_loads_in_order_scripts : WellFormed sharedStylesheet ∧
    ∃ cg, scriptSplitting.chunkGraph sharedStylesheet = .ok cg ∧
      (∀ id, ¬ TransGen (Needs cg.chunks) id id) ∧
      (∀ group ∈ groups cg, InOrder cg.chunks group.chunks) ∧
      cg.entrypoints.map ChunkGroup.root = [0, 1] ∧
      ∀ (place : Nat) (group : ChunkGroup), cg.entrypoints[place]? = some group →
        EndsAtEntry cg place group :=
  ⟨wellFormed_sharedStylesheet, chunkGraph_loads_in_order scriptSplitting sharedStylesheet⟩

end WebBundle.Proofs.ChunkOrder

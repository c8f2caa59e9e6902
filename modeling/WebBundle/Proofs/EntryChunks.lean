import WebBundle.Output.Emission
import WebBundle.Proofs.ChunkNames

namespace WebBundle.Proofs.EntryChunks

open Output (startOf)
open WebBundle.Proofs.BoundaryMembers
open WebBundle.Proofs.ChunkNames
open WebBundle.Proofs.ChunkNumbering
open WebBundle.Proofs.ChunkOrder
open WebBundle.Proofs.DraftInvariant
open WebBundle.Proofs.Extraction
open WebBundle.Proofs.ExtractionInvariant
open WebBundle.Proofs.InitialDraft
open WebBundle.Proofs.ModuleReach
open WebBundle.Proofs.SplittingRun

/-- The chunks of entries are the base chunks of entries. -/
def EntriesBased (d : Draft) : Prop :=
  ∀ (chunk : Nat) (c : DraftChunk) (name : String), d.chunks[chunk]? = some c →
    c.origin = .entry name → ∃ b ∈ d.boundaries, b.initial = true ∧ b.base = some chunk

variable {g : ModuleGraph} {d : Draft} {p : Policy} {bucket : Bucket} {cg : ChunkGraph}

theorem exists_of_entry {chunk : Nat} {c : DraftChunk} {name : String}
    (hc : (d.extract p bucket).chunks[chunk]? = some c) (horigin : c.origin = .entry name) :
    ∃ c', d.chunks[chunk]? = some c' ∧ c'.origin = .entry name := by
  have htag : ((withTarget d p bucket).chunks.map tag)[chunk]? = some (tag c) := by
    rw [← tags_extract, List.getElem?_map, hc]
    rfl
  rw [List.getElem?_map, Option.map_eq_some_iff] at htag
  obtain ⟨c', hc', htag⟩ := htag
  have horigin' : c'.origin = .entry name := (congrArg Prod.snd htag).trans horigin
  rcases withTarget_cases d p bucket with heq | ⟨added, hchunks, -, -, hsplit⟩
  · exact ⟨c', heq ▸ hc', horigin'⟩
  · rw [hchunks, List.getElem?_append] at hc'
    split at hc'
    · exact ⟨c', hc', horigin'⟩
    · rw [List.mem_singleton.mp (List.mem_of_getElem? hc'), hsplit] at horigin'
      exact ChunkOrigin.noConfusion horigin'

theorem EntriesBased.extract (h : EntriesBased d) (hd : Invariant g d)
    (hbucket : ∀ c ∈ bucket, g.isEntry c.id = false) : EntriesBased (d.extract p bucket) := by
  intro chunk c name hc horigin
  obtain ⟨c', hc', horigin'⟩ := exists_of_entry hc horigin
  obtain ⟨b, hb, hinitial, hbase⟩ := h chunk c' name hc' horigin'
  obtain ⟨i, hi⟩ := List.mem_iff_getElem?.mp hb
  have hb' := List.mem_of_getElem? (boundary_extract (p := p) hd.sound (hd.reusesAsync hbucket) hi)
  have hinitial' : (after d p bucket i b).initial = true := (initial_after b).trans hinitial
  -- An entry keeps a base chunk, and it is the one that it had.
  obtain ⟨base, hbase', -⟩ := (invariant_extract hd hbucket).entry _ hb' hinitial'
  obtain rfl : chunk = base := Option.some.inj (hbase.symm.trans (base_of_after hbase').1)
  exact ⟨_, hb', hinitial', hbase'⟩

theorem entriesBased_ofGraph (g : ModuleGraph) : EntriesBased (Draft.ofGraph g) := by
  intro chunk c name hc horigin
  obtain ⟨b, hb, hbase⟩ :=
    exists_base _ [] (Nat.zero_le chunk) (List.getElem?_eq_some_iff.mp hc).1
  refine ⟨b, hb, ?_, hbase⟩
  obtain ⟨c', hc', horigin'⟩ := sound_ofGraph.base_chunk b hb chunk hbase
  obtain rfl : c = c' := Option.some.inj (hc.symm.trans hc')
  rw [horigin, originOf] at horigin'
  split at horigin'
  · assumption
  · exact ChunkOrigin.noConfusion horigin'

theorem entriesBased_draft (s : Splitting) (g : ModuleGraph) : EntriesBased (s.draft g) :=
  of_steps .refl reaches_draft (entriesBased_ofGraph g) fun _ _ _ _ hextracts h =>
    h.extract hextracts.invariant fun c hc => (hextracts.collected.shareable c hc).no_entry

/-- The chunks of entries in a chunk graph. -/
structure OwnChunks (cg : ChunkGraph) : Prop where
  lt : ∀ group ∈ groups cg, ∀ id ∈ group.chunks, id < cg.chunks.length
  /-- Every entry starts with a chunk, -/
  starts : ∀ group ∈ cg.entrypoints, ∃ start, startOf cg group = some start
  /-- which is that of no other entry, -/
  distinct : cg.entrypoints.Pairwise fun group other => ∀ start other',
    startOf cg group = some start → startOf cg other = some other' → start.1 ≠ other'.1
  /-- and there are no more chunks of entries. -/
  started : ∀ id c, cg.chunks[id]? = some c → c.isEntry = true →
    ∃ group ∈ cg.entrypoints, startOf cg group = some (id, c)
  /-- What is loaded before it, and what dynamic imports load, is no such chunk. -/
  before : ∀ group ∈ cg.entrypoints, ∀ id ∈ group.chunks.dropLast, ∀ c, cg.chunks[id]? = some c →
    c.isEntry = false
  async : ∀ group ∈ cg.asyncGroups, ∀ id ∈ group.chunks, ∀ c, cg.chunks[id]? = some c →
    c.isEntry = false

theorem startOf_eq_some {group : ChunkGroup} {id : ChunkId} {c : Chunk} :
    startOf cg group = some (id, c) ↔
      group.chunks.getLast? = some id ∧ cg.chunks[id]? = some c ∧ c.isEntry = true := by
  rw [startOf]
  constructor
  · intro h
    obtain ⟨id', hid, h⟩ := Option.bind_eq_some_iff.mp h
    obtain ⟨c', hc, h⟩ := Option.bind_eq_some_iff.mp h
    split at h
    · next hentry =>
        obtain ⟨rfl, rfl⟩ := Prod.mk.inj (Option.some.inj h)
        exact ⟨hid, hc, hentry⟩
    · contradiction
  · rintro ⟨hid, hc, hentry⟩
    rw [hid]
    show (cg.chunks[id]?.bind _) = _
    rw [hc, Option.bind_some, if_pos hentry]
    rfl

theorem isEntry_iff {c : Chunk} : c.isEntry = true ↔ ∃ name, c.origin = .entry name := by
  rw [Chunk.isEntry]
  cases c.origin <;> simp

theorem exists_entrypoint (h : EntriesBased d) (hcg : Built g d cg) {id : ChunkId} {c : Chunk}
    (hc : cg.chunks[id]? = some c) (hentry : c.isEntry = true) :
    ∃ group ∈ cg.entrypoints, startOf cg group = some (id, c) := by
  obtain ⟨name, horigin⟩ := isEntry_iff.mp hentry
  obtain ⟨chunk, draft, hid, hdraft, -, hdraft'⟩ := exists_name (hcg.chunks ▸ hc)
  obtain ⟨b, hb, hinitial, hbase⟩ := h chunk draft name hdraft (hdraft'.trans horigin)
  refine ⟨_, hcg.mem_entrypoints_iff.mpr ⟨b, hb, hinitial, rfl⟩, startOf_eq_some.mpr ⟨?_, hc, hentry⟩⟩
  have hlast : Draft.idIn? d.kept chunk = some id := (idIn?_eq_some nodup_kept).mpr hid
  rw [chunks_groupOf, numbers, loadsOf, hbase, List.filterMap_append]
  simp [hlast]

/-- The chunk of an entry is loaded by that entry only, and last. -/
theorem loaded_last (h : Invariant g d) (hentries : EntriesBased d) (hcg : Built g d cg)
    {place : Nat} {group : ChunkGroup} (hgroup : (groups cg)[place]? = some group) {id : ChunkId}
    {c : Chunk} (hid : id ∈ group.chunks) (hc : cg.chunks[id]? = some c)
    (hentry : c.isEntry = true) :
    cg.entrypoints[place]? = some group ∧ startOf cg group = some (id, c) := by
  obtain ⟨first, hfirst, hstart⟩ := exists_entrypoint hentries hcg hc hentry
  obtain ⟨place', hplace'⟩ := List.mem_iff_getElem?.mp hfirst
  obtain ⟨earlier, id', -, hchunks, -, -, -, hunique⟩ := endsAtEntry h hcg hplace'
  have hlast := (startOf_eq_some.mp hstart).1
  rw [hchunks, List.getLast?_concat] at hlast
  obtain rfl := Option.some.inj hlast
  obtain rfl := hunique place group hgroup hid
  have hplace : (groups cg)[place]? = some first := by
    rw [groups, List.getElem?_append_left (List.getElem?_eq_some_iff.mp hplace').1, hplace']
  obtain rfl := Option.some.inj (hgroup.symm.trans hplace)
  exact ⟨hplace', hstart⟩

theorem exists_start (h : Invariant g d) (hcg : Built g d cg) {group : ChunkGroup}
    (hgroup : group ∈ cg.entrypoints) : ∃ start, startOf cg group = some start := by
  obtain ⟨place, hplace⟩ := List.mem_iff_getElem?.mp hgroup
  obtain ⟨earlier, id, c, hchunks, hc, horigin, -⟩ := endsAtEntry h hcg hplace
  refine ⟨(id, c), startOf_eq_some.mpr ⟨?_, hc, isEntry_iff.mpr ⟨_, horigin⟩⟩⟩
  rw [hchunks, List.getLast?_concat]

theorem distinct_starts (h : Invariant g d) (hcg : Built g d cg) :
    cg.entrypoints.Pairwise fun group other => ∀ start other',
      startOf cg group = some start → startOf cg other = some other' → start.1 ≠ other'.1 := by
  rw [List.pairwise_iff_getElem]
  intro i j hi hj hij start start' hstart hstart' hsame
  have hlast := (startOf_eq_some.mp hstart).1
  have hlast' := (startOf_eq_some.mp hstart').1
  obtain ⟨earlier, id, -, hchunks, -, -, -, hunique⟩ :=
    endsAtEntry h hcg (List.getElem?_eq_getElem hi)
  rw [hchunks, List.getLast?_concat, Option.some.injEq] at hlast
  have hj' : (groups cg)[j]? = some cg.entrypoints[j] := by
    rw [groups, List.getElem?_append_left hj, List.getElem?_eq_getElem hj]
  refine absurd (hunique j _ hj' ?_) (Nat.ne_of_gt hij)
  rw [hlast, hsame]
  exact List.mem_of_getLast? hlast'

theorem inOrder_groups (h : Invariant g d) (hcg : Built g d cg) {group : ChunkGroup}
    (hgroup : group ∈ groups cg) : InOrder cg.chunks group.chunks := by
  rw [groups, hcg.groups] at hgroup
  obtain ⟨b, hb, rfl⟩ := List.mem_map.mp hgroup
  rw [hcg.chunks]
  exact inOrder_of_mem h.sound hb

theorem not_entry_before (h : Invariant g d) (hentries : EntriesBased d) (hcg : Built g d cg)
    {group : ChunkGroup} (hgroup : group ∈ cg.entrypoints) {id : ChunkId}
    (hid : id ∈ group.chunks.dropLast) {c : Chunk} (hc : cg.chunks[id]? = some c) :
    c.isEntry = false := by
  rw [Bool.eq_false_iff]
  intro hentry
  have hmem : group ∈ groups cg := List.mem_append_left _ hgroup
  obtain ⟨place, hplace⟩ := List.mem_iff_getElem?.mp hmem
  obtain ⟨-, hstart⟩ := loaded_last h hentries hcg hplace (List.mem_of_mem_dropLast hid) hc hentry
  obtain ⟨earlier, hchunks⟩ := List.getLast?_eq_some_iff.mp (startOf_eq_some.mp hstart).1
  -- The chunk would be loaded twice.
  have hnodup := (inOrder_groups h hcg hmem).nodup
  rw [hchunks, List.dropLast_concat] at hid
  rw [hchunks] at hnodup
  exact (List.nodup_append.mp hnodup).2.2 id hid id List.mem_cons_self rfl

theorem not_entry_async (h : Invariant g d) (hentries : EntriesBased d) (hcg : Built g d cg)
    {group : ChunkGroup} (hgroup : group ∈ cg.asyncGroups) {id : ChunkId}
    (hid : id ∈ group.chunks) {c : Chunk} (hc : cg.chunks[id]? = some c) : c.isEntry = false := by
  rw [Bool.eq_false_iff]
  intro hentry
  obtain ⟨place, hplace⟩ := List.mem_iff_getElem?.mp hgroup
  have hplace' : (groups cg)[cg.entrypoints.length + place]? = some group := by
    rw [groups, List.getElem?_append_right (Nat.le_add_right _ _), Nat.add_sub_cancel_left, hplace]
  obtain ⟨hfirst, -⟩ := loaded_last h hentries hcg hplace' hid hc hentry
  have hlt := (List.getElem?_eq_some_iff.mp hfirst).1
  exact absurd hlt (Nat.not_lt_of_le (Nat.le_add_right _ _))

theorem ownChunks_of_built (h : Invariant g d) (hentries : EntriesBased d) (hcg : Built g d cg) :
    OwnChunks cg where
  lt _ hgroup := (inOrder_groups h hcg hgroup).lt
  starts _ hgroup := exists_start h hcg hgroup
  distinct := distinct_starts h hcg
  started _ _ hc hentry := exists_entrypoint hentries hcg hc hentry
  before _ hgroup _ hid _ hc := not_entry_before h hentries hcg hgroup hid hc
  async _ hgroup _ hid _ hc := not_entry_async h hentries hcg hgroup hid hc

theorem ownChunks_chunkGraph {s : Splitting} (hcg : s.chunkGraph g = .ok cg) : OwnChunks cg :=
  ownChunks_of_built invariant_draft (entriesBased_draft s g)
    (built_of_toChunkGraph invariant_draft hcg)

end WebBundle.Proofs.EntryChunks

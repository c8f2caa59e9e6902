import Mathlib.Data.List.Nodup
import WebBundle.Chunk.Split
import WebBundle.Proofs.ExtractionInvariant

namespace WebBundle.Proofs.ChunkNumbering

open WebBundle.Proofs.BoundaryMembers
open WebBundle.Proofs.DraftInvariant
open WebBundle.Proofs.Extraction
open WebBundle.Proofs.ExtractionInvariant
open WebBundle.Proofs.LoadList

variable {kept loads : List Nat} {id : ChunkId} {chunk : Nat}

theorem idIn?_eq_some (hkept : kept.Nodup) :
    Draft.idIn? kept chunk = some id ↔ kept[id]? = some chunk := by
  rw [Draft.idIn?, List.findIdx?_eq_some_iff_getElem]
  constructor
  · rintro ⟨hlt, heq, -⟩
    rw [List.getElem?_eq_getElem hlt]
    exact congrArg some (by simpa using heq)
  · intro h
    obtain ⟨hlt, heq⟩ := List.getElem?_eq_some_iff.mp h
    refine ⟨hlt, by simp [heq], fun j hj hsame => ?_⟩
    have hj' : kept[j] = kept[id] := by simpa [heq] using hsame
    exact absurd ((List.Nodup.getElem_inj_iff hkept).mp hj') (Nat.ne_of_lt hj)

/-- The numbers of the drafts in a list. -/
def numbers (kept loads : List Nat) : List ChunkId := loads.filterMap (Draft.idIn? kept)

theorem mem_numbers (hkept : kept.Nodup) :
    id ∈ numbers kept loads ↔ ∃ chunk ∈ loads, kept[id]? = some chunk := by
  simp only [numbers, List.mem_filterMap, idIn?_eq_some hkept]

theorem nodup_numbers (hkept : kept.Nodup) (hloads : loads.Nodup) :
    (numbers kept loads).Nodup := by
  refine List.Nodup.filterMap ?_ hloads
  intro first second id hfirst hsecond
  have hfirst := (idIn?_eq_some hkept).mp hfirst
  exact Option.some.inj (hfirst.symm.trans ((idIn?_eq_some hkept).mp hsecond))

theorem numbers_split (hkept : kept.Nodup) {earlier later : List ChunkId}
    (h : numbers kept loads = earlier ++ id :: later) :
    ∃ before chunk after, loads = before ++ chunk :: after ∧ numbers kept before = earlier ∧
      kept[id]? = some chunk := by
  obtain ⟨before, rest, rfl, hbefore, hrest⟩ := List.filterMap_eq_append_iff.mp h
  obtain ⟨skipped, chunk, after, rfl, hskipped, hchunk, -⟩ := List.filterMap_eq_cons_iff.mp hrest
  refine ⟨before ++ skipped, chunk, after, by simp, ?_, (idIn?_eq_some hkept).mp hchunk⟩
  rw [numbers, List.filterMap_append, hbefore, List.filterMap_eq_nil_iff.mpr hskipped,
    List.append_nil]

theorem getElem?_filterMap {α β : Type} {f : α → Option β} {list : List α}
    (h : ∀ a ∈ list, (f a).isSome) (i : Nat) : (list.filterMap f)[i]? = list[i]?.bind f := by
  induction list generalizing i with
  | nil => rfl
  | cons a rest ih =>
      obtain ⟨b, hb⟩ := Option.isSome_iff_exists.mp (h a (by simp))
      rw [List.filterMap_cons_some hb]
      cases i with
      | zero => exact hb.symm
      | succ i => exact ih (fun a ha => h a (List.mem_cons_of_mem _ ha)) i

variable {g : ModuleGraph} {d : Draft}

theorem mem_kept : chunk ∈ d.kept ↔ ∃ m, m ∈ d.modulesOf chunk := by
  simp only [Draft.kept, List.mem_filterMap, Prod.exists, List.mem_zipIdx_iff_getElem?]
  constructor
  · rintro ⟨c, chunk', hc, hkept⟩
    split at hkept
    · simp at hkept
    · next hempty =>
        obtain rfl : chunk' = chunk := Option.some.inj hkept
        rw [Reachability.isEmpty_iff, not_forall] at hempty
        obtain ⟨m, hm⟩ := hempty
        exact ⟨m, by rw [modulesOf_of_getElem? hc]; exact not_not.mp hm⟩
  · rintro ⟨m, hm⟩
    obtain ⟨c, hc, hm⟩ := exists_chunk_of_mem hm
    refine ⟨c, chunk, hc, if_neg fun hempty => ?_⟩
    exact Reachability.isEmpty_iff.mp hempty m hm

theorem nodup_kept : d.kept.Nodup := by
  have hindices : (d.chunks.zipIdx.map Prod.snd).Nodup := by
    rw [List.zipIdx_map_snd]
    exact List.nodup_range'
  rw [Draft.kept, List.Nodup, List.pairwise_filterMap]
  refine (List.pairwise_map.mp hindices).imp ?_
  rintro ⟨c, chunk⟩ ⟨c', chunk'⟩ hne first hfirst second hsecond heq
  dsimp only at hfirst hsecond
  split at hfirst
  · simp at hfirst
  · split at hsecond
    · simp at hsecond
    · exact hne ((Option.some.inj hfirst).trans (heq.trans (Option.some.inj hsecond).symm))

/-- The drafts that a boundary loads, in order. -/
def loadsOf (b : Boundary) : List Nat := b.loads ++ b.base.toList

def initialOf (d : Draft) : List ChunkId :=
  ((d.boundaries.map (Draft.groupOf d.kept)).filter (·.initial)).flatMap (·.chunks)

def chunksOf (g : ModuleGraph) (d : Draft) : List Chunk :=
  d.kept.filterMap (Draft.chunkOf g d d.kept (initialOf d))

theorem chunks_groupOf (b : Boundary) :
    (Draft.groupOf d.kept b).chunks = numbers d.kept (loadsOf b) := rfl

theorem mem_loadsOf {b : Boundary} :
    chunk ∈ loadsOf b ↔ chunk ∈ b.loads ∨ b.base = some chunk := by
  simp [loadsOf]

theorem toChunkGraph_eq (g : ModuleGraph) (d : Draft) : d.toChunkGraph g =
    (Chunk.loadOrder (chunksOf g d)).map fun loadOrder => {
      chunks := chunksOf g d
      entrypoints := (d.boundaries.map (Draft.groupOf d.kept)).filter (·.initial)
      asyncGroups := (d.boundaries.map (Draft.groupOf d.kept)).filter fun group => !group.initial
      loadOrder } := by
  show (Chunk.loadOrder (chunksOf g d) >>= fun loadOrder => _) = _
  cases Chunk.loadOrder (chunksOf g d) with
  | error e => rfl
  | ok order => rfl

/-- A chunk is what has become of a draft. -/
structure Represents (d : Draft) (c : Chunk) (chunk : Nat) : Prop where
  origin : d.chunks[chunk]?.map DraftChunk.origin = some c.origin
  modules : c.modules = d.modulesOf chunk
  dependencies : c.dependencies = numbers d.kept (d.dependenciesOf chunk)

theorem represents_of_chunkOf {initial : List ChunkId} {c : Chunk}
    (h : Draft.chunkOf g d d.kept initial chunk = some c) : Represents d c chunk := by
  obtain ⟨draft, hdraft, rfl⟩ := Option.map_eq_some_iff.mp h
  exact ⟨by rw [hdraft]; rfl, (modulesOf_of_getElem? hdraft).symm, rfl⟩

theorem isSome_chunkOf (g : ModuleGraph) (initial : List ChunkId) (h : chunk ∈ d.kept) :
    (Draft.chunkOf g d d.kept initial chunk).isSome := by
  obtain ⟨m, hm⟩ := mem_kept.mp h
  obtain ⟨draft, hdraft, -⟩ := exists_chunk_of_mem hm
  simp [Draft.chunkOf, hdraft]

theorem getElem?_chunksOf (id : ChunkId) : (chunksOf g d)[id]? =
    d.kept[id]?.bind (Draft.chunkOf g d d.kept (initialOf d)) :=
  getElem?_filterMap (fun _ h => isSome_chunkOf g (initialOf d) h) id

theorem exists_chunk (hid : d.kept[id]? = some chunk) :
    ∃ c, (chunksOf g d)[id]? = some c ∧ Represents d c chunk := by
  obtain ⟨c, hc⟩ := Option.isSome_iff_exists.mp
    (isSome_chunkOf g (initialOf d) (List.mem_of_getElem? hid))
  refine ⟨c, ?_, represents_of_chunkOf hc⟩
  rw [getElem?_chunksOf, hid, Option.bind_some, hc]

theorem exists_draft {c : Chunk} (hid : (chunksOf g d)[id]? = some c) :
    ∃ chunk, d.kept[id]? = some chunk ∧ Represents d c chunk := by
  rw [getElem?_chunksOf, Option.bind_eq_some_iff] at hid
  obtain ⟨chunk, hchunk, hc⟩ := hid
  exact ⟨chunk, hchunk, represents_of_chunkOf hc⟩

theorem dependenciesOf_base (h : Sound d) {b : Boundary} (hb : b ∈ d.boundaries)
    (hbase : b.base = some chunk) : d.dependenciesOf chunk = b.loads := by
  rw [Draft.dependenciesOf]
  cases howner : d.boundaries.find? fun b => b.base == some chunk with
  | none =>
      have hnone := List.find?_eq_none.mp howner b hb
      simp [hbase] at hnone
  | some owner =>
      have howned : owner.base = some chunk := by simpa using List.find?_some howner
      rw [h.eq_of_base (List.mem_of_find?_eq_some howner) hb howned hbase]

theorem dependenciesOf_free (h : Free d chunk) :
    d.dependenciesOf chunk = needsOf d.chunks chunk := by
  have hnone : d.boundaries.find? (fun b => b.base == some chunk) = none := by
    rw [List.find?_eq_none]
    intro b hb
    simpa using h b hb
  rw [Draft.dependenciesOf, hnone]
  rfl

theorem nodup_loadsOf (h : Sound d) {b : Boundary} (hb : b ∈ d.boundaries) :
    (loadsOf b).Nodup := by
  have hloads := h.loads b hb
  rw [loadsOf]
  refine List.Nodup.append hloads.nodup ?_ ?_
  · cases b.base with
    | none => exact List.nodup_nil
    | some base => exact List.nodup_singleton base
  · intro chunk hchunk hbase
    exact hloads.free chunk hchunk b hb (by simpa using hbase)

theorem needsFirst_loadsOf (h : Sound d) {b : Boundary} (hb : b ∈ d.boundaries) :
    NeedsFirst d.dependenciesOf (loadsOf b) := by
  have hloads : NeedsFirst d.dependenciesOf b.loads :=
    (h.loads b hb).needsFirst.congr fun chunk hchunk =>
      dependenciesOf_free ((h.loads b hb).free chunk hchunk)
  rw [loadsOf]
  cases hbase : b.base with
  | none => simpa using hloads
  | some base =>
      refine needsFirst_concat.mpr ⟨hloads, fun n hn => ?_⟩
      rwa [dependenciesOf_base h hb hbase] at hn

/-- What the chunk graph of a draft consists of. -/
structure Built (g : ModuleGraph) (d : Draft) (cg : ChunkGraph) : Prop where
  chunks : cg.chunks = chunksOf g d
  groups : cg.entrypoints ++ cg.asyncGroups = d.boundaries.map (Draft.groupOf d.kept)
  initial : ∀ group ∈ cg.entrypoints, group.initial = true
  not_initial : ∀ group ∈ cg.asyncGroups, group.initial = false
  entry_roots : cg.entrypoints.map ChunkGroup.root = g.entries.map (·.2)
  async_roots : cg.asyncGroups.map ChunkGroup.root = g.dynamicTargets

theorem sites_of_invariant (h : Invariant g d) : d.boundaries.map site =
    (g.entries.map fun e => (e.2, true)) ++ g.dynamicTargets.map fun root => (root, false) := by
  rw [← sites_ofGraph, ← h.boundaries, List.map_map]
  rfl

theorem of_map_site {boundaries : List Boundary} {roots : List ModuleId} {initial : Bool}
    (h : boundaries.map site = roots.map fun root => (root, initial)) :
    (∀ b ∈ boundaries, b.initial = initial) ∧ boundaries.map Boundary.root = roots := by
  constructor
  · intro b hb
    have hsite : site b ∈ boundaries.map site := List.mem_map_of_mem hb
    rw [h] at hsite
    obtain ⟨_, -, heq⟩ := List.mem_map.mp hsite
    exact (congrArg Prod.snd heq).symm
  · have hroots := congrArg (List.map Prod.fst) h
    rw [List.map_map, List.map_map] at hroots
    exact hroots.trans (List.map_id _)

theorem boundaries_split (h : Invariant g d) :
    d.boundaries.filter (·.initial) ++ d.boundaries.filter (!·.initial) = d.boundaries ∧
      (d.boundaries.filter (·.initial)).map Boundary.root = g.entries.map (·.2) ∧
      (d.boundaries.filter (!·.initial)).map Boundary.root = g.dynamicTargets := by
  have hsites : d.boundaries.map site = (g.entries.map (·.2)).map (fun root => (root, true)) ++
      g.dynamicTargets.map fun root => (root, false) := by
    rw [sites_of_invariant h, List.map_map]
    rfl
  obtain ⟨entries, targets, hsplit, hentries, htargets⟩ := List.map_eq_append_iff.mp hsites
  obtain ⟨hinitial, hentries⟩ := of_map_site hentries
  obtain ⟨hlate, htargets⟩ := of_map_site htargets
  have hfirst : d.boundaries.filter (·.initial) = entries := by
    rw [hsplit, List.filter_append, List.filter_eq_self.mpr hinitial,
      List.filter_eq_nil_iff.mpr fun b hb => by simp [hlate b hb], List.append_nil]
  have hsecond : d.boundaries.filter (!·.initial) = targets := by
    rw [hsplit, List.filter_append,
      List.filter_eq_nil_iff.mpr fun b hb => by simp [hinitial b hb],
      List.filter_eq_self.mpr fun b hb => by simp [hlate b hb], List.nil_append]
  rw [hfirst, hsecond]
  exact ⟨hsplit.symm, hentries, htargets⟩

theorem built_of_toChunkGraph (h : Invariant g d) {cg : ChunkGraph}
    (hcg : d.toChunkGraph g = .ok cg) : Built g d cg := by
  obtain ⟨hsplit, hentries, htargets⟩ := boundaries_split h
  rw [toChunkGraph_eq] at hcg
  cases hloadOrder : Chunk.loadOrder (chunksOf g d) with
  | error e =>
      rw [hloadOrder] at hcg
      cases hcg
  | ok order =>
      rw [hloadOrder] at hcg
      cases hcg
      have hinitial : (d.boundaries.map (Draft.groupOf d.kept)).filter (·.initial) =
          (d.boundaries.filter (·.initial)).map (Draft.groupOf d.kept) := List.filter_map
      have hlate : (d.boundaries.map (Draft.groupOf d.kept)).filter (fun group => !group.initial) =
          (d.boundaries.filter (!·.initial)).map (Draft.groupOf d.kept) := List.filter_map
      refine ⟨rfl, ?_, fun group hgroup => (List.mem_filter.mp hgroup).2, ?_, ?_, ?_⟩
      · rw [hinitial, hlate, ← List.map_append, hsplit]
      · intro group hgroup
        simpa using (List.mem_filter.mp hgroup).2
      · rw [hinitial, List.map_map]
        exact hentries
      · rw [hlate, List.map_map]
        exact htargets

theorem Built.mem_entrypoints_iff {cg : ChunkGraph} (hcg : Built g d cg) {group : ChunkGroup} :
    group ∈ cg.entrypoints ↔
      ∃ b ∈ d.boundaries, b.initial = true ∧ group = Draft.groupOf d.kept b := by
  constructor
  · intro hgroup
    have hmem : group ∈ cg.entrypoints ++ cg.asyncGroups := List.mem_append_left _ hgroup
    rw [hcg.groups] at hmem
    obtain ⟨b, hb, rfl⟩ := List.mem_map.mp hmem
    exact ⟨b, hb, hcg.initial _ hgroup, rfl⟩
  · rintro ⟨b, hb, hinitial, rfl⟩
    have hmem : Draft.groupOf d.kept b ∈ cg.entrypoints ++ cg.asyncGroups := by
      rw [hcg.groups]
      exact List.mem_map_of_mem hb
    rcases List.mem_append.mp hmem with hentry | hasync
    · exact hentry
    · have hlate : b.initial = false := hcg.not_initial _ hasync
      rw [hinitial] at hlate
      exact Bool.noConfusion hlate

theorem Built.exists_kept {cg : ChunkGraph} (hcg : Built g d cg) {c : Chunk}
    (hc : cg.chunks[id]? = some c) :
    ∃ chunk, d.kept[id]? = some chunk ∧ c.modules = d.modulesOf chunk := by
  obtain ⟨chunk, hchunk, hrepresents⟩ := exists_draft (hcg.chunks ▸ hc)
  exact ⟨chunk, hchunk, hrepresents.modules⟩

theorem Built.exists_chunk {cg : ChunkGraph} (hcg : Built g d cg) {m : ModuleId}
    (hm : m ∈ d.modulesOf chunk) : ∃ id c, Draft.idIn? d.kept chunk = some id ∧
      cg.chunks[id]? = some c ∧ c.modules = d.modulesOf chunk := by
  obtain ⟨id, hid⟩ := List.mem_iff_getElem?.mp (mem_kept.mpr ⟨m, hm⟩)
  obtain ⟨c, hc, hrepresents⟩ := ChunkNumbering.exists_chunk (g := g) hid
  exact ⟨id, c, (idIn?_eq_some nodup_kept).mpr hid, hcg.chunks ▸ hc, hrepresents.modules⟩

theorem Built.modules_eq {cg : ChunkGraph} (hcg : Built g d cg) {c : Chunk}
    (hid : Draft.idIn? d.kept chunk = some id) (hc : cg.chunks[id]? = some c) :
    c.modules = d.modulesOf chunk := by
  obtain ⟨chunk', hchunk', hmodules⟩ := hcg.exists_kept hc
  obtain rfl : chunk = chunk' :=
    Option.some.inj (((idIn?_eq_some nodup_kept).mp hid).symm.trans hchunk')
  exact hmodules

/-- A module is in a chunk of a list. -/
def Held (cg : ChunkGraph) (ids : List ChunkId) (m : ModuleId) : Prop :=
  ∃ id ∈ ids, ∃ c, cg.chunks[id]? = some c ∧ m ∈ c.modules

theorem Held.mono {cg : ChunkGraph} {ids more : List ChunkId} {m : ModuleId} (h : Held cg ids m)
    (hsubset : ids ⊆ more) : Held cg more m := by
  obtain ⟨id, hid, c, hc, hm⟩ := h
  exact ⟨id, hsubset hid, c, hc, hm⟩

theorem held_groupOf_iff {cg : ChunkGraph} (hcg : Built g d cg) {b : Boundary} {m : ModuleId} :
    Held cg (Draft.groupOf d.kept b).chunks m ↔ ∃ chunk ∈ loadsOf b, m ∈ d.modulesOf chunk := by
  simp only [Held, hcg.chunks, chunks_groupOf, mem_numbers nodup_kept]
  constructor
  · rintro ⟨id, ⟨chunk, hload, hid⟩, c, hc, hm⟩
    obtain ⟨chunk', hid', hrepresents⟩ := exists_draft hc
    obtain rfl : chunk = chunk' := Option.some.inj (hid.symm.trans hid')
    exact ⟨chunk, hload, hrepresents.modules ▸ hm⟩
  · rintro ⟨chunk, hload, hm⟩
    obtain ⟨id, hid⟩ := List.mem_iff_getElem?.mp (mem_kept.mpr ⟨m, hm⟩)
    obtain ⟨c, hc, hrepresents⟩ := exists_chunk (g := g) hid
    exact ⟨id, ⟨chunk, hload, hid⟩, c, hc, hrepresents.modules.symm ▸ hm⟩

end WebBundle.Proofs.ChunkNumbering

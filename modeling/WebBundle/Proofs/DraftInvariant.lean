import WebBundle.Proofs.BoundaryMembers
import WebBundle.Proofs.Extraction

namespace WebBundle.Proofs.DraftInvariant

open WebBundle.Proofs.BoundaryMembers
open WebBundle.Proofs.Extraction
open WebBundle.Proofs.LoadList

def originOf (b : Boundary) : ChunkOrigin := if b.initial then .entry b.name else .async b.root

/-- No boundary has a chunk as its base chunk. -/
def Free (d : Draft) (chunk : Nat) : Prop := ∀ b ∈ d.boundaries, b.base ≠ some chunk

/-- Chunks that may be loaded together in the order of a list. -/
structure WellLoaded (d : Draft) (loads : List Nat) : Prop where
  lt : ∀ chunk ∈ loads, chunk < d.chunks.length
  free : ∀ chunk ∈ loads, Free d chunk
  nodup : loads.Nodup
  needsFirst : NeedsFirst (needsOf d.chunks) loads

/-- The invariant of a draft. A chunk that needs others was the base chunk of an asynchronous
boundary and is loaded by one. -/
structure Sound (d : Draft) : Prop where
  base_chunk : ∀ b ∈ d.boundaries, ∀ base, b.base = some base →
    ∃ c, d.chunks[base]? = some c ∧ c.origin = originOf b
  base_unique : ∀ i j base, d.baseOf i = some base → d.baseOf j = some base → i = j
  loads : ∀ b ∈ d.boundaries, WellLoaded d b.loads
  needs : ∀ chunk, WellLoaded d (needsOf d.chunks chunk)
  former_base : ∀ (chunk : Nat) (c : DraftChunk), d.chunks[chunk]? = some c →
    c.dependencies ≠ [] →
    (∃ root, c.origin = .async root) ∧ ∃ b ∈ d.boundaries, chunk ∈ b.loads

variable {d d' : Draft} {p : Policy} {users modules : IdSet} {bucket : Bucket} {t : Nat}

theorem exists_base_of_not_free (h : ¬ Free d t) : ∃ b ∈ d.boundaries, b.base = some t := by
  simpa [Free] using h

theorem needsOf_of_getElem? {chunks : List DraftChunk} {chunk : Nat} {c : DraftChunk}
    (h : chunks[chunk]? = some c) : needsOf chunks chunk = c.dependencies := by
  simp [needsOf, h]

theorem exists_chunk_of_needs {chunks : List DraftChunk} {chunk n : Nat}
    (h : n ∈ needsOf chunks chunk) : ∃ c, chunks[chunk]? = some c ∧ n ∈ c.dependencies := by
  cases hc : chunks[chunk]? with
  | none => simp [needsOf, hc] at h
  | some c => exact ⟨c, rfl, needsOf_of_getElem? hc ▸ h⟩

theorem Sound.not_needs_self (h : Sound d) (chunk : Nat) : chunk ∉ needsOf d.chunks chunk := by
  intro hself
  obtain ⟨c, hc, hmem⟩ := exists_chunk_of_needs hself
  obtain ⟨-, b, hb, hchunk⟩ := h.former_base chunk c hc (List.ne_nil_of_mem hmem)
  obtain ⟨before, after, heq⟩ := List.append_of_mem hchunk
  have hbefore := (h.loads b hb).needsFirst before chunk after heq chunk hself
  have hnodup := (h.loads b hb).nodup
  rw [heq] at hnodup
  exact (List.nodup_append.mp hnodup).2.2 chunk hbefore chunk (by simp) rfl

theorem Sound.base_lt (h : Sound d) {b : Boundary} (hb : b ∈ d.boundaries) {base : Nat}
    (hbase : b.base = some base) : base < d.chunks.length := by
  obtain ⟨c, hc, -⟩ := h.base_chunk b hb base hbase
  exact (List.getElem?_eq_some_iff.mp hc).1

theorem Sound.free_of_split (h : Sound d) {chunk : Nat} {c : DraftChunk} {policy : String}
    (hc : d.chunks[chunk]? = some c) (horigin : c.origin = .split policy) : Free d chunk := by
  intro b hb hbase
  obtain ⟨c', hc', horigin'⟩ := h.base_chunk b hb chunk hbase
  obtain rfl : c = c' := Option.some.inj (hc.symm.trans hc')
  rw [horigin, originOf] at horigin'
  split at horigin' <;> simp at horigin'

theorem WellLoaded.mono {loads : List Nat} (h : WellLoaded d loads)
    (hlength : d.chunks.length ≤ d'.chunks.length) (hfree : ∀ chunk ∈ loads, Free d' chunk)
    (hneeds : ∀ chunk ∈ loads, needsOf d'.chunks chunk = needsOf d.chunks chunk) :
    WellLoaded d' loads where
  lt := fun chunk hchunk => (h.lt chunk hchunk).trans_le hlength
  free := hfree
  nodup := h.nodup
  needsFirst := h.needsFirst.congr hneeds

theorem WellLoaded.concat {loads : List Nat} (h : WellLoaded d loads) (hlt : t < d.chunks.length)
    (hfree : Free d t) (hnew : t ∉ loads) (hneeds : ∀ n ∈ needsOf d.chunks t, n ∈ loads) :
    WellLoaded d (loads ++ [t]) where
  lt := by
    intro chunk hchunk
    rcases List.mem_append.mp hchunk with hchunk | hchunk
    · exact h.lt chunk hchunk
    · exact List.mem_singleton.mp hchunk ▸ hlt
  free := by
    intro chunk hchunk
    rcases List.mem_append.mp hchunk with hchunk | hchunk
    · exact h.free chunk hchunk
    · exact List.mem_singleton.mp hchunk ▸ hfree
  nodup := by
    refine List.Nodup.append h.nodup (List.nodup_singleton t) ?_
    intro chunk hchunk hmem
    exact hnew (List.mem_singleton.mp hmem ▸ hchunk)
  needsFirst := needsFirst_concat.mpr ⟨h.needsFirst, hneeds⟩

theorem WellLoaded.withChunk {loads : List Nat} (h : WellLoaded d loads)
    (hneeds : WellLoaded d (needsOf d.chunks t)) (hself : t ∉ needsOf d.chunks t)
    (hlt : t < d.chunks.length) (hfree : Free d t) :
    WellLoaded d (withChunk d.chunks loads t) where
  lt := by
    intro chunk hchunk
    rcases mem_withChunk.mp hchunk with hchunk | rfl | ⟨-, hchunk⟩
    · exact h.lt chunk hchunk
    · exact hlt
    · exact hneeds.lt chunk hchunk
  free := by
    intro chunk hchunk
    rcases mem_withChunk.mp hchunk with hchunk | rfl | ⟨-, hchunk⟩
    · exact h.free chunk hchunk
    · exact hfree
    · exact hneeds.free chunk hchunk
  nodup := nodup_withChunk h.nodup hneeds.nodup hself
  needsFirst := h.needsFirst.withChunk hneeds.needsFirst

/-- The boundaries stay as they are, the chunks keep their origins and needs, and new ones need
nothing. -/
structure KeepsNeeds (d d' : Draft) : Prop where
  boundaries : d'.boundaries = d.boundaries
  old : ∀ (chunk : Nat) (c : DraftChunk), d.chunks[chunk]? = some c →
    ∃ c', d'.chunks[chunk]? = some c' ∧ c'.origin = c.origin ∧ c'.dependencies = c.dependencies
  new : ∀ (chunk : Nat) (c' : DraftChunk), d'.chunks[chunk]? = some c' → d.chunks[chunk]? = none →
    c'.dependencies = []

theorem KeepsNeeds.length_le (h : KeepsNeeds d d') : d.chunks.length ≤ d'.chunks.length := by
  refine Nat.le_of_not_lt fun hlt => ?_
  obtain ⟨c', hc', -⟩ := h.old d'.chunks.length _ (List.getElem?_eq_getElem hlt)
  simp at hc'

theorem KeepsNeeds.needsOf_eq (h : KeepsNeeds d d') (chunk : Nat) :
    needsOf d'.chunks chunk = needsOf d.chunks chunk := by
  cases hc : d.chunks[chunk]? with
  | some c =>
      obtain ⟨c', hc', -, hdeps⟩ := h.old chunk c hc
      rw [needsOf_of_getElem? hc, needsOf_of_getElem? hc', hdeps]
  | none =>
      cases hc' : d'.chunks[chunk]? with
      | some c' => simp [needsOf, hc, hc', h.new chunk c' hc' hc]
      | none => simp [needsOf, hc, hc']

theorem Sound.of_keepsNeeds (h : Sound d) (hkeeps : KeepsNeeds d d') : Sound d' := by
  have hloads : ∀ {loads}, WellLoaded d loads → WellLoaded d' loads := fun hloads =>
    hloads.mono hkeeps.length_le
      (fun chunk hchunk => by simpa only [Free, hkeeps.boundaries] using hloads.free chunk hchunk)
      (fun chunk _ => hkeeps.needsOf_eq chunk)
  refine ⟨?_, ?_, ?_, ?_, ?_⟩
  · intro b hb base hbase
    rw [hkeeps.boundaries] at hb
    obtain ⟨c, hc, horigin⟩ := h.base_chunk b hb base hbase
    obtain ⟨c', hc', horigin', -⟩ := hkeeps.old base c hc
    exact ⟨c', hc', horigin'.trans horigin⟩
  · simpa only [Draft.baseOf, hkeeps.boundaries] using h.base_unique
  · intro b hb
    rw [hkeeps.boundaries] at hb
    exact hloads (h.loads b hb)
  · intro chunk
    rw [hkeeps.needsOf_eq]
    exact hloads (h.needs chunk)
  · intro chunk c' hc' hdeps
    cases hc : d.chunks[chunk]? with
    | none => exact absurd (hkeeps.new chunk c' hc' hc) hdeps
    | some c =>
        obtain ⟨c'', hc'', horigin, hdeps'⟩ := hkeeps.old chunk c hc
        obtain rfl : c' = c'' := Option.some.inj (hc'.symm.trans hc'')
        rw [hkeeps.boundaries, horigin]
        exact h.former_base chunk c hc (hdeps' ▸ hdeps)

theorem keepsNeeds_moveModules : KeepsNeeds d (d.moveModules bucket t) where
  boundaries := boundaries_moveModules
  old := by
    intro chunk c hc
    rw [getElem?_moveModules, hc, Option.map_some]
    refine ⟨_, rfl, ?_⟩
    split <;> exact ⟨rfl, rfl⟩
  new := by
    intro chunk c' hc' hc
    simp [getElem?_moveModules, hc] at hc'

theorem keepsNeeds_addChunk : KeepsNeeds d (d.addChunk p users).1 := by
  obtain ⟨added, hchunks, -, -, hdeps⟩ := chunks_addChunk d p users
  refine ⟨boundaries_addChunk, ?_, ?_⟩
  · intro chunk c hc
    refine ⟨c, ?_, rfl, rfl⟩
    rw [hchunks, List.getElem?_append_left (List.getElem?_eq_some_iff.mp hc).1, hc]
  · intro chunk c' hc' hc
    rw [hchunks, List.getElem?_append_right (List.getElem?_eq_none_iff.mp hc)] at hc'
    rw [List.mem_singleton.mp (List.mem_of_getElem? hc'), hdeps]

theorem mem_loads_released {b : Boundary} {chunk : Nat} :
    chunk ∈ (released t b).loads ↔ chunk ∈ b.loads ∨ (b.base = some t ∧ chunk = t) := by
  rw [released]
  split
  · next h => simp [h]
  · next h => simp [h]

theorem base_released {b : Boundary} {base : Nat} :
    (released t b).base = some base ↔ b.base = some base ∧ base ≠ t := by
  rw [released]
  split
  · next h =>
      constructor
      · simp
      · rintro ⟨hbase, hne⟩
        exact absurd (Option.some.inj (hbase.symm.trans h)) hne
  · next h =>
      constructor
      · exact fun hbase => ⟨hbase, fun heq => h (heq ▸ hbase)⟩
      · exact fun hbase => hbase.1

theorem originOf_released {b : Boundary} : originOf (released t b) = originOf b := by
  rw [released]
  split <;> rfl

theorem Sound.eq_of_base (h : Sound d) {first second : Boundary} (hfirst : first ∈ d.boundaries)
    (hsecond : second ∈ d.boundaries) {base : Nat} (hbase : first.base = some base)
    (hbase' : second.base = some base) : first = second := by
  obtain ⟨i, hi⟩ := List.mem_iff_getElem?.mp hfirst
  obtain ⟨j, hj⟩ := List.mem_iff_getElem?.mp hsecond
  obtain rfl := h.base_unique i j base (baseOf_eq_some.mpr ⟨first, hi, hbase⟩)
    (baseOf_eq_some.mpr ⟨second, hj, hbase'⟩)
  exact Option.some.inj (hi.symm.trans hj)

/-- A draft in which a base chunk is released: it needs what its boundary loads. -/
def freed (d : Draft) (t : Nat) (owner : Boundary) : Draft :=
  { d with chunks := d.chunks.modify t fun c => { c with dependencies := owner.loads }
           boundaries := d.boundaries.map (released t) }

section Freed

variable {owner : Boundary} {chunk : Nat} {loads : List Nat}

theorem free_freed (h : Free d chunk ∨ chunk = t) : Free (freed d t owner) chunk := by
  intro b' hb' hbase'
  obtain ⟨b, hb, rfl⟩ := List.mem_map.mp hb'
  obtain ⟨hbase, hne⟩ := base_released.mp hbase'
  exact h.elim (fun h => h b hb hbase) hne

theorem needsOf_freed (ht : t < d.chunks.length) (chunk : Nat) :
    needsOf (freed d t owner).chunks chunk =
      if chunk = t then owner.loads else needsOf d.chunks chunk :=
  needsOf_modify ht chunk

theorem WellLoaded.not_mem_of_base (h : WellLoaded d loads) (howner : owner ∈ d.boundaries)
    (hbase : owner.base = some t) : t ∉ loads :=
  fun hmem => h.free t hmem owner howner hbase

theorem WellLoaded.release (h : WellLoaded d loads) (howner : owner ∈ d.boundaries)
    (hbase : owner.base = some t) (ht : t < d.chunks.length) :
    WellLoaded (freed d t owner) loads := by
  refine h.mono (by simp [freed])
    (fun chunk hchunk => free_freed (.inl (h.free chunk hchunk))) fun chunk hchunk => ?_
  have hne : chunk ≠ t := fun heq => h.not_mem_of_base howner hbase (heq ▸ hchunk)
  rw [needsOf_freed ht, if_neg hne]

theorem Sound.loads_released (h : Sound d) {b : Boundary} (hb : b ∈ d.boundaries)
    (howner : owner ∈ d.boundaries) (hbase : owner.base = some t) :
    WellLoaded (freed d t owner) (released t b).loads := by
  have ht := h.base_lt howner hbase
  have hloads := (h.loads b hb).release howner hbase ht
  rw [released]
  split
  · next hbase' =>
      obtain rfl := h.eq_of_base hb howner hbase' hbase
      refine hloads.concat (by simpa [freed] using ht) (free_freed (.inr rfl))
        ((h.loads b hb).not_mem_of_base howner hbase) fun n hn => ?_
      rwa [needsOf_freed ht, if_pos rfl] at hn
  · exact hloads

theorem Sound.former_base_freed (h : Sound d) (howner : owner ∈ d.boundaries)
    (hbase : owner.base = some t) (hasync : owner.initial = false) {c : DraftChunk}
    (hc : (freed d t owner).chunks[chunk]? = some c) (hdeps : c.dependencies ≠ []) :
    (∃ root, c.origin = .async root) ∧
      ∃ b ∈ (freed d t owner).boundaries, chunk ∈ b.loads := by
  by_cases hchunk : chunk = t
  · subst hchunk
    obtain ⟨c', hc', horigin⟩ := h.base_chunk owner howner chunk hbase
    obtain rfl : { c' with dependencies := owner.loads } = c := by
      simpa [freed, hc'] using hc
    refine ⟨⟨owner.root, ?_⟩, released chunk owner, List.mem_map_of_mem howner,
      mem_loads_released.mpr (.inr ⟨hbase, rfl⟩)⟩
    simpa [originOf, hasync] using horigin
  · have hc' : d.chunks[chunk]? = some c := by
      simpa [freed, Ne.symm hchunk] using hc
    obtain ⟨horigin, b, hb, hmem⟩ := h.former_base chunk c hc' hdeps
    exact ⟨horigin, released t b, List.mem_map_of_mem hb,
      mem_loads_released.mpr (.inl hmem)⟩

/-- The release of a base chunk keeps the invariant: what the chunk needs is what its boundary
loads. -/
theorem Sound.release (h : Sound d) (howner : owner ∈ d.boundaries) (hbase : owner.base = some t)
    (hasync : owner.initial = false) : Sound (freed d t owner) := by
  have ht := h.base_lt howner hbase
  refine ⟨?_, ?_, ?_, ?_, fun chunk c => h.former_base_freed howner hbase hasync⟩
  · intro b' hb' base hbase'
    obtain ⟨b, hb, rfl⟩ := List.mem_map.mp hb'
    obtain ⟨hbase', hne⟩ := base_released.mp hbase'
    obtain ⟨c, hc, horigin⟩ := h.base_chunk b hb base hbase'
    exact ⟨c, by simp [freed, hc, Ne.symm hne], horigin.trans originOf_released.symm⟩
  · intro i j base hi hj
    simp only [baseOf_eq_some, freed, List.getElem?_map, Option.map_eq_some_iff]
      at hi hj
    obtain ⟨_, ⟨b, hb, rfl⟩, hbase⟩ := hi
    obtain ⟨_, ⟨b', hb', rfl⟩, hbase'⟩ := hj
    exact h.base_unique i j base (baseOf_eq_some.mpr ⟨b, hb, (base_released.mp hbase).1⟩)
      (baseOf_eq_some.mpr ⟨b', hb', (base_released.mp hbase').1⟩)
  · intro b' hb'
    obtain ⟨b, hb, rfl⟩ := List.mem_map.mp hb'
    exact h.loads_released hb howner hbase
  · intro chunk
    rw [needsOf_freed ht]
    split
    · exact (h.loads owner howner).release howner hbase ht
    · exact (h.needs chunk).release howner hbase ht

end Freed

theorem Sound.releaseBase (h : Sound d)
    (hasync : ∀ b ∈ d.boundaries, b.base = some t → b.initial = false) :
    Sound (d.releaseBase t) := by
  by_cases hfree : Free d t
  · rwa [releaseBase_of_free hfree]
  · obtain ⟨b, hb, hbase⟩ := exists_base_of_not_free hfree
    obtain ⟨i, hi⟩ := List.mem_iff_getElem?.mp hb
    obtain ⟨owner, howner, hbase, heq⟩ := releaseBase_of_base (baseOf_eq_some.mpr ⟨b, hi, hbase⟩)
    rw [heq]
    exact h.release howner hbase (hasync owner howner hbase)

/-- Each boundary may lose its base chunk and load more. -/
structure Updates (d d' : Draft) (update : Nat → Boundary → Boundary) : Prop where
  chunks : d'.chunks = d.chunks
  boundary : ∀ i, d'.boundaries[i]? = d.boundaries[i]?.map (update i)
  origin : ∀ i b, originOf (update i b) = originOf b
  base : ∀ i b base, (update i b).base = some base → b.base = some base
  loads : ∀ i b, ∀ chunk ∈ b.loads, chunk ∈ (update i b).loads

theorem Updates.exists_old {update : Nat → Boundary → Boundary} (h : Updates d d' update)
    {b' : Boundary} (hb' : b' ∈ d'.boundaries) : ∃ i, ∃ b ∈ d.boundaries, b' = update i b := by
  obtain ⟨i, hi⟩ := List.mem_iff_getElem?.mp hb'
  rw [h.boundary, Option.map_eq_some_iff] at hi
  obtain ⟨b, hi, rfl⟩ := hi
  exact ⟨i, b, List.mem_of_getElem? hi, rfl⟩

theorem Updates.exists_new {update : Nat → Boundary → Boundary} (h : Updates d d' update)
    {b : Boundary} (hb : b ∈ d.boundaries) : ∃ i, update i b ∈ d'.boundaries := by
  obtain ⟨i, hi⟩ := List.mem_iff_getElem?.mp hb
  have hi' := h.boundary i
  rw [hi, Option.map_some] at hi'
  exact ⟨i, List.mem_of_getElem? hi'⟩

theorem Updates.baseOf {update : Nat → Boundary → Boundary} (h : Updates d d' update)
    {i base : Nat} (hi : d'.baseOf i = some base) : d.baseOf i = some base := by
  obtain ⟨b', hb', hbase⟩ := baseOf_eq_some.mp hi
  rw [h.boundary, Option.map_eq_some_iff] at hb'
  obtain ⟨b, hb, rfl⟩ := hb'
  exact baseOf_eq_some.mpr ⟨b, hb, h.base i b base hbase⟩

theorem Updates.free {update : Nat → Boundary → Boundary} (h : Updates d d' update) {chunk : Nat}
    (hfree : Free d chunk) : Free d' chunk := by
  intro b' hb' hbase
  obtain ⟨i, b, hb, rfl⟩ := h.exists_old hb'
  exact hfree b hb (h.base i b chunk hbase)

theorem Sound.of_updates (h : Sound d) {update : Nat → Boundary → Boundary}
    (hupdates : Updates d d' update)
    (hloads : ∀ i, ∀ b ∈ d.boundaries, WellLoaded d (update i b).loads) : Sound d' := by
  have hkeep : ∀ {loads}, WellLoaded d loads → WellLoaded d' loads := fun hloads =>
    hloads.mono (hupdates.chunks ▸ Nat.le_refl _)
      (fun chunk hchunk => hupdates.free (hloads.free chunk hchunk))
      (fun chunk _ => by rw [hupdates.chunks])
  refine ⟨?_, ?_, ?_, ?_, ?_⟩
  · intro b' hb' base hbase
    obtain ⟨i, b, hb, rfl⟩ := hupdates.exists_old hb'
    rw [hupdates.chunks, hupdates.origin]
    exact h.base_chunk b hb base (hupdates.base i b base hbase)
  · intro i j base hi hj
    exact h.base_unique i j base (hupdates.baseOf hi) (hupdates.baseOf hj)
  · intro b' hb'
    obtain ⟨i, b, hb, rfl⟩ := hupdates.exists_old hb'
    exact hkeep (hloads i b hb)
  · intro chunk
    rw [hupdates.chunks]
    exact hkeep (h.needs chunk)
  · intro chunk c hc hdeps
    rw [hupdates.chunks] at hc
    obtain ⟨horigin, b, hb, hchunk⟩ := h.former_base chunk c hc hdeps
    obtain ⟨i, hi⟩ := hupdates.exists_new hb
    exact ⟨horigin, update i b, hi, hupdates.loads i b chunk hchunk⟩

theorem Sound.addLoad_eq (h : Sound d) (hlt : t < d.chunks.length) (hfree : Free d t)
    {b : Boundary} (hb : b ∈ d.boundaries) :
    Draft.addLoad d.chunks b.base d.chunks.length b.loads t = withChunk d.chunks b.loads t := by
  obtain ⟨depth, hdepth⟩ : ∃ depth, d.chunks.length = depth + 1 := ⟨d.chunks.length - 1, by omega⟩
  rw [hdepth]
  refine addLoad_eq_withChunk (hfree b hb) (fun n hn => (h.needs t).free n hn b hb)
    (h.needs t).needsFirst (h.needs t).nodup fun hne => ?_
  -- A chunk that is needed is another one, so there are at least two.
  obtain ⟨n, hn⟩ := List.exists_mem_of_ne_nil _ hne
  have hnlt := (h.needs t).lt n hn
  have hother : n ≠ t := fun heq => h.not_needs_self t (heq ▸ hn)
  omega

/-- A boundary that loads a chunk if it is one of those that do. -/
def loading (d : Draft) (users : IdSet) (t i : Nat) (b : Boundary) : Boundary :=
  if i ∈ users then { b with loads := withChunk d.chunks b.loads t } else b

theorem Sound.updates_load (h : Sound d) (hlt : t < d.chunks.length) (hfree : Free d t) :
    Updates d (d.load users t) (loading d users t) where
  chunks := chunks_load
  boundary := by
    intro i
    rw [getElem?_load]
    cases hi : d.boundaries[i]? with
    | none => rfl
    | some b =>
        simp only [Option.map_some, h.addLoad_eq hlt hfree (List.mem_of_getElem? hi), loading]
  origin := by
    intro i b
    rw [loading]
    split <;> rfl
  base := by
    intro i b base hbase
    rw [loading] at hbase
    split at hbase <;> exact hbase
  loads := by
    intro i b chunk hchunk
    rw [loading]
    split
    · exact subset_withChunk hchunk
    · exact hchunk

theorem Sound.load (h : Sound d) (hlt : t < d.chunks.length) (hfree : Free d t) :
    Sound (d.load users t) := by
  refine h.of_updates (h.updates_load hlt hfree) fun i b hb => ?_
  rw [loading]
  split
  · exact (h.loads b hb).withChunk (h.needs t) (h.not_needs_self t) hlt hfree
  · exact h.loads b hb

theorem updates_dropEmptyBases :
    Updates d (d.dropEmptyBases users) (dropped d users) where
  chunks := chunks_dropEmptyBases
  boundary := getElem?_dropEmptyBases
  origin := by
    intro i b
    rw [dropped]
    split <;> rfl
  base := fun _ _ _ hbase => base_of_dropped hbase
  loads := fun i b chunk hchunk => (loads_dropped i b).symm ▸ hchunk

theorem Sound.dropEmptyBases (h : Sound d) : Sound (d.dropEmptyBases users) :=
  h.of_updates updates_dropEmptyBases fun i b hb => (loads_dropped i b).symm ▸ h.loads b hb

end WebBundle.Proofs.DraftInvariant

import WebBundle.Proofs.ChunkNames
import WebBundle.Proofs.ExtractedChunks

namespace WebBundle.Proofs.TakenModules

open WebBundle.Proofs.ChunkNames
open WebBundle.Proofs.ChunkNumbering
open WebBundle.Proofs.ChunkOrder
open WebBundle.Proofs.DraftInvariant
open WebBundle.Proofs.ExtractedChunks
open WebBundle.Proofs.Extraction
open WebBundle.Proofs.ExtractionInvariant
open WebBundle.Proofs.InitialDraft
open WebBundle.Proofs.ModuleReach
open WebBundle.Proofs.PendingBuckets
open WebBundle.Proofs.SplittingRun

variable {s : Splitting} {g : ModuleGraph} {p : Policy} {d : Draft} {bucket part : Bucket}
variable {cg : ChunkGraph} {chunk : Nat} {id : ChunkId} {m : ModuleId}

def originAt (d : Draft) (chunk : Nat) : Option ChunkOrigin :=
  d.chunks[chunk]?.map DraftChunk.origin

theorem originAt_eq_tag (d : Draft) (chunk : Nat) :
    originAt d chunk = (d.chunks.map tag)[chunk]?.map Prod.snd := by
  rw [originAt, List.getElem?_map, Option.map_map]
  rfl

theorem originAt_withTarget :
    originAt (d.extract p bucket) chunk = originAt (withTarget d p bucket) chunk := by
  rw [originAt_eq_tag, originAt_eq_tag, tags_extract]

theorem originAt_extract {origin : ChunkOrigin} (h : originAt d chunk = some origin) :
    originAt (d.extract p bucket) chunk = some origin := by
  rw [originAt_withTarget]
  rcases withTarget_cases d p bucket with heq | ⟨c, hchunks, -⟩
  · rwa [heq]
  · obtain ⟨c', hc', -⟩ := Option.map_eq_some_iff.mp h
    rwa [originAt, hchunks, List.getElem?_append_left (List.getElem?_eq_some_iff.mp hc').1]

/-- A policy has split off a chunk. -/
def SplitOff (d : Draft) (chunk : Nat) : Prop := ∃ key, originAt d chunk = some (.split key)

theorem base_or_splitOff_target (d : Draft) (p : Policy) (bucket : Bucket) :
    (∃ i, d.baseOf i = some (targetOf d p bucket)) ∨
      SplitOff (d.extract p bucket) (targetOf d p bucket) := by
  have hcases := target_cases d p bucket.users bucket.modules
  simp only [SplitOff, originAt_withTarget]
  rw [targetOf, withTarget]
  generalize d.target p bucket.users bucket.modules = target at hcases
  cases hcases with
  | reused _ _ hbase _ => exact .inl ⟨_, hbase⟩
  | extended _ hc horigin => exact .inr ⟨_, by rw [originAt, hc, Option.map_some, horigin]⟩
  | added =>
      obtain ⟨c, hchunks, horigin, -⟩ := chunks_addChunk d p bucket.users
      have hlast : (d.addChunk p bucket.users).1.chunks[d.chunks.length]? = some c := by
        rw [hchunks, List.getElem?_concat_length]
      exact .inr ⟨p.key, (congrArg (Option.map DraftChunk.origin) hlast).trans (congrArg some horigin)⟩

/-- An extraction takes a base chunk as it is. -/
def Reused (s : Splitting) (g : ModuleGraph) (chunk : Nat) : Prop :=
  ∃ p bucket d part i, Extracts s g p bucket d part ∧ d.baseOf i = some chunk ∧
    targetOf d p part = chunk

theorem splitOff_or_reused (h : Extracts s g p bucket d part) :
    SplitOff (s.draft g) (targetOf d p part) ∨ Reused s g (targetOf d p part) := by
  rcases base_or_splitOff_target d p part with ⟨i, hbase⟩ | ⟨key, horigin⟩
  · exact .inr ⟨p, bucket, d, part, i, h, hbase, rfl⟩
  · obtain ⟨policies, pending, hreaches⟩ := h.reaches_extract
    exact .inl ⟨key, of_steps (P := fun d' => originAt d' (targetOf d p part) = some (.split key))
      hreaches (steps_draft hreaches) horigin fun _ _ _ _ _ => originAt_extract⟩

/-- The modules of chunks that are no base chunks were put there by extractions. -/
theorem exists_extracts_of_free (hfree : Free (s.draft g) chunk)
    (hm : m ∈ (s.draft g).modulesOf chunk) : ∃ p bucket d part, Extracts s g p bucket d part ∧
      targetOf d p part = chunk ∧ m ∈ part.modules := by
  refine of_steps (P := fun d' => ∀ chunk m, Free d' chunk → m ∈ d'.modulesOf chunk →
    ∃ p bucket d part, Extracts s g p bucket d part ∧ targetOf d p part = chunk ∧ m ∈ part.modules)
    .refl reaches_draft ?_ ?_ chunk m hfree hm
  · exact fun chunk m hfree hm => absurd hfree (not_free_ofGraph hm)
  · intro p bucket d part hextracts hbefore chunk m hfree hm
    rcases mem_of_free_extract hextracts.invariant.sound hextracts.reusesAsync hfree hm
      with ⟨rfl, hnew⟩ | ⟨hfree, hold⟩
    · exact ⟨p, bucket, d, part, hextracts, rfl, hnew⟩
    · exact hbefore chunk m hfree hold

theorem not_holds_extract (h : Extracts s g p bucket d part) {i : Nat}
    (hi : i ∈ part.users) (hm : m ∈ part.modules) : ¬ Holds (d.extract p part) i m := by
  have hstanding := standing_of_extracts h
  rw [hstanding.holds_extract_iff h.invariant.sound h.reusesAsync]
  obtain ⟨c, hc, rfl⟩ := mem_modules.mp hm
  rintro ⟨hholds, huntaken⟩
  -- The boundary may use another module of the bucket, but then it uses all of them that it holds.
  exact huntaken ⟨c, hc, rfl, hstanding.mem_users hi hc hholds⟩

theorem not_holds_draft (h : Extracts s g p bucket d part) {i : Nat}
    (hi : i ∈ part.users) (hm : m ∈ part.modules) : ¬ Holds (s.draft g) i m := by
  obtain ⟨policies, pending, hreaches⟩ := h.reaches_extract
  refine of_steps (P := fun d' => ¬ Holds d' i m) hreaches (steps_draft hreaches)
    (not_holds_extract h hi hm) fun p bucket d part hextracts hbefore hafter => ?_
  rw [(standing_of_extracts hextracts).holds_extract_iff hextracts.invariant.sound
    hextracts.reusesAsync] at hafter
  exact hbefore hafter.1

/-- A chunk that a policy has split off, or a base chunk that an extraction has reused. -/
def Extracted (s : Splitting) (g : ModuleGraph) (cg : ChunkGraph) (id : ChunkId) : Prop :=
  (∃ c key, cg.chunks[id]? = some c ∧ c.origin = .split key) ∨
    ∃ chunk, (s.draft g).kept[id]? = some chunk ∧ Reused s g chunk

/-- In the end, a chunk is the base chunk of a boundary. -/
def IsBase (s : Splitting) (g : ModuleGraph) (i : Nat) (id : ChunkId) : Prop :=
  ∃ chunk, (s.draft g).kept[id]? = some chunk ∧ (s.draft g).baseOf i = some chunk

theorem splitOff_iff (hcg : Built g d cg) (hid : d.kept[id]? = some chunk) :
    SplitOff d chunk ↔ ∃ c key, cg.chunks[id]? = some c ∧ c.origin = .split key := by
  obtain ⟨c, hc, hrepresents⟩ := ChunkNumbering.exists_chunk (g := g) hid
  have horigin : originAt d chunk = some c.origin := hrepresents.origin
  rw [← hcg.chunks] at hc
  constructor
  · rintro ⟨key, hkey⟩
    exact ⟨c, key, hc, Option.some.inj (horigin.symm.trans hkey)⟩
  · rintro ⟨c', key, hc', hkey⟩
    obtain rfl : c = c' := Option.some.inj (hc.symm.trans hc')
    exact ⟨key, horigin.trans (congrArg some hkey)⟩

theorem extracted_iff_free (hcg : Built g (s.draft g) cg)
    (hid : (s.draft g).kept[id]? = some chunk) :
    Extracted s g cg id ↔ Free (s.draft g) chunk := by
  rw [Extracted, ← splitOff_iff hcg hid]
  constructor
  · rintro (⟨key, horigin⟩ | ⟨chunk', hid', p, bucket, d, part, -, hextracts, -, rfl⟩)
    · obtain ⟨c, hc, hkey⟩ := Option.map_eq_some_iff.mp horigin
      exact invariant_draft.sound.free_of_split hc hkey
    · obtain rfl := Option.some.inj (hid.symm.trans hid')
      exact (target_of_extracts hextracts).1
  · intro hfree
    obtain ⟨m, hm⟩ := mem_kept.mp (List.mem_of_getElem? hid)
    obtain ⟨p, bucket, d, part, hextracts, rfl, -⟩ := exists_extracts_of_free hfree hm
    exact (splitOff_or_reused hextracts).imp_right fun hreused => ⟨_, hid, hreused⟩

theorem free_iff_not_isBase (hid : (s.draft g).kept[id]? = some chunk) :
    Free (s.draft g) chunk ↔ ∀ i, ¬ IsBase s g i id := by
  rw [free_iff]
  refine forall_congr' fun i => not_congr ⟨fun hbase => ⟨chunk, hid, hbase⟩, ?_⟩
  rintro ⟨chunk', hid', hbase⟩
  rwa [Option.some.inj (hid.symm.trans hid')]

theorem isBase_iff (hcg : Built g (s.draft g) cg) {i : Nat} {group : ChunkGroup}
    (hgroup : (groups cg)[i]? = some group) :
    IsBase s g i id ↔ id ∈ group.chunks ∧ ¬ Extracted s g cg id := by
  rw [groups, hcg.groups, List.getElem?_map, Option.map_eq_some_iff] at hgroup
  obtain ⟨b, hb, rfl⟩ := hgroup
  rw [chunks_groupOf, mem_numbers nodup_kept]
  constructor
  · rintro ⟨chunk, hid, hbase⟩
    obtain ⟨b', hb', hbase'⟩ := baseOf_eq_some.mp hbase
    obtain rfl : b = b' := Option.some.inj (hb.symm.trans hb')
    refine ⟨⟨chunk, mem_loadsOf.mpr (.inr hbase'), hid⟩, fun hextracted => ?_⟩
    exact free_iff.mp ((extracted_iff_free hcg hid).mp hextracted) i hbase
  · rintro ⟨⟨chunk, hload, hid⟩, hnot⟩
    rcases mem_loadsOf.mp hload with hload | hbase
    · -- What is loaded in front of a base chunk is no base chunk, so it was extracted.
      have hfree := (invariant_draft.sound.loads b (List.mem_of_getElem? hb)).free chunk hload
      exact absurd ((extracted_iff_free hcg hid).mpr hfree) hnot
    · exact ⟨chunk, hid, baseOf_eq_some.mpr ⟨b, hb, hbase⟩⟩

theorem eq_of_extracted (hcg : Built g (s.draft g) cg) {first second : ChunkId}
    {c c' : Chunk} (hfirst : Extracted s g cg first) (hsecond : Extracted s g cg second)
    (hc : cg.chunks[first]? = some c) (hc' : cg.chunks[second]? = some c') (hm : m ∈ c.modules)
    (hm' : m ∈ c'.modules) : first = second := by
  obtain ⟨chunk, hid, hmodules⟩ := hcg.exists_kept hc
  obtain ⟨chunk', hid', hmodules'⟩ := hcg.exists_kept hc'
  obtain rfl := (exclusive_draft (s := s)).unique chunk chunk' m
    ((extracted_iff_free hcg hid).mp hfirst) ((extracted_iff_free hcg hid').mp hsecond)
    (hmodules ▸ hm) (hmodules' ▸ hm')
  have hlt := (List.getElem?_eq_some_iff.mp hid).1
  exact (List.getElem?_inj hlt nodup_kept).mp (hid.trans hid'.symm)

/-- Every module that is taken is in one chunk, and in no base chunk from which it is taken. -/
structure ExtractedOnce (s : Splitting) (g : ModuleGraph) (cg : ChunkGraph) : Prop where
  /-- The extracted chunks are those that are no base chunks. -/
  extracted_iff : ∀ id c, cg.chunks[id]? = some c →
    (Extracted s g cg id ↔ ∀ i, ¬ IsBase s g i id)
  /-- The base chunk of a boundary is the one among the chunks that it loads which is not extracted. -/
  base_iff : ∀ (i : Nat) (group : ChunkGroup) (id : ChunkId), (groups cg)[i]? = some group →
    (IsBase s g i id ↔ id ∈ group.chunks ∧ ¬ Extracted s g cg id)
  unique : ∀ first second c c' m, Extracted s g cg first → Extracted s g cg second →
    cg.chunks[first]? = some c → cg.chunks[second]? = some c' → m ∈ c.modules → m ∈ c'.modules →
    first = second
  no_entry : ∀ id c, Extracted s g cg id → cg.chunks[id]? = some c → ∀ m ∈ c.modules,
    g.isEntry m = false
  moved : ∀ p bucket d part, Extracts s g p bucket d part → ∀ m ∈ part.modules,
    ∃ id c, Extracted s g cg id ∧ cg.chunks[id]? = some c ∧ m ∈ c.modules
  taken : ∀ p bucket d part, Extracts s g p bucket d part → ∀ m ∈ part.modules,
    ∀ i ∈ part.users, ∀ id c, IsBase s g i id → cg.chunks[id]? = some c → m ∉ c.modules

theorem extractedOnce_of_built (hcg : Built g (s.draft g) cg) :
    ExtractedOnce s g cg where
  extracted_iff := by
    intro id c hc
    obtain ⟨chunk, hid, -⟩ := hcg.exists_kept hc
    rw [extracted_iff_free hcg hid, free_iff_not_isBase hid]
  base_iff _ _ _ hgroup := isBase_iff hcg hgroup
  unique _ _ _ _ _ := eq_of_extracted hcg
  no_entry := by
    intro id c hextracted hc m hm
    obtain ⟨chunk, hid, hmodules⟩ := hcg.exists_kept hc
    obtain ⟨p, bucket, d, part, hextracts, -, hm⟩ := exists_extracts_of_free
      ((extracted_iff_free hcg hid).mp hextracted) (hmodules ▸ hm)
    obtain ⟨taken, htaken, rfl⟩ := mem_modules.mp hm
    exact (hextracts.collected.shareable taken htaken).no_entry
  moved := by
    intro p bucket d part hextracts m hm
    obtain ⟨hfree, hhas⟩ := target_of_extracts hextracts
    obtain ⟨id, c, hid, hc, hmodules⟩ := hcg.exists_chunk (hhas m hm)
    have hextracted := (extracted_iff_free hcg ((idIn?_eq_some nodup_kept).mp hid)).mpr hfree
    exact ⟨id, c, hextracted, hc, hmodules ▸ hhas m hm⟩
  taken := by
    rintro p bucket d part hextracts m hm i hi id c ⟨chunk, hid, hbase⟩ hc hmem
    obtain ⟨chunk', hid', hmodules⟩ := hcg.exists_kept hc
    obtain rfl := Option.some.inj (hid.symm.trans hid')
    exact not_holds_draft hextracts hi hm ⟨chunk, hbase, hmodules ▸ hmem⟩

/-- The chunks of entries have the names of the entries. -/
def EntriesNamed (d : Draft) : Prop :=
  ∀ c ∈ d.chunks, ∀ name, c.origin = .entry name → c.name = name

theorem entriesNamed_iff : EntriesNamed d ↔
    ∀ t ∈ d.chunks.map tag, ∀ name, t.2 = .entry name → t.1 = name := by
  rw [List.forall_mem_map]
  rfl

theorem EntriesNamed.extract (h : EntriesNamed d) : EntriesNamed (d.extract p bucket) := by
  rw [entriesNamed_iff, tags_extract, ← entriesNamed_iff]
  rcases withTarget_cases d p bucket with heq | ⟨added, hchunks, -, -, hsplit⟩
  · rwa [heq]
  · intro c hc name horigin
    rw [hchunks] at hc
    rcases List.mem_append.mp hc with hc | hc
    · exact h c hc name horigin
    · rw [List.mem_singleton.mp hc, hsplit] at horigin
      exact ChunkOrigin.noConfusion horigin

theorem entriesNamed_ofGraph (g : ModuleGraph) : EntriesNamed (Draft.ofGraph g) := by
  intro c hc name horigin
  rcases mem_baseChunks _ [] c hc with hc | ⟨b, modules, rfl⟩
  · exact absurd hc List.not_mem_nil
  · simp only [baseChunk, originOf] at horigin
    split at horigin
    · exact ChunkOrigin.entry.inj horigin
    · exact ChunkOrigin.noConfusion horigin

theorem entriesNamed_draft (s : Splitting) (g : ModuleGraph) : EntriesNamed (s.draft g) :=
  of_steps .refl reaches_draft (entriesNamed_ofGraph g) fun _ _ _ _ _ h => h.extract

/-- Chunks have different names, and entries have theirs: the boundary of an entry is named as it
is, and so is the chunk with which it starts. -/
structure WellNamed (g : ModuleGraph) (cg : ChunkGraph) : Prop where
  distinct : (cg.chunks.map Chunk.name).Nodup
  entries : cg.entrypoints.map (fun group => (group.name, group.root)) = g.entries
  starts : ∀ group ∈ cg.entrypoints, ∃ id c, group.chunks.getLast? = some id ∧
    cg.chunks[id]? = some c ∧ c.origin = .entry group.name ∧ c.name = group.name ∧
    group.root ∈ c.modules

theorem wellNamed_of_built (hnames : (g.entries.map Prod.fst).Nodup)
    (hcg : Built g (s.draft g) cg) : WellNamed g cg where
  distinct := hcg.chunks ▸ names_chunksOf (named_draft s g)
  entries := entrypoints_eq_entries invariant_draft hcg hnames
  starts := by
    intro group hgroup
    obtain ⟨place, hplace⟩ := List.mem_iff_getElem?.mp hgroup
    obtain ⟨earlier, id, c, hchunks, hc, horigin, hroot, -⟩ :=
      endsAtEntry invariant_draft hcg hplace
    obtain ⟨chunk, draft, -, hdraft, hname, horigin'⟩ := exists_name (hcg.chunks ▸ hc)
    refine ⟨id, c, by rw [hchunks, List.getLast?_concat], hc, horigin, ?_, hroot⟩
    rw [← hname]
    exact entriesNamed_draft s g draft (List.mem_of_getElem? hdraft) _ (horigin'.trans horigin)

/-- Chunk splitting gives a chunk graph in which every module is in at most one chunk that was split
off or reused, and no entry module is in such a chunk; boundaries have lost what was taken from them;
and all chunks have different names, those of entries the names of the entries. -/
theorem modules_are_extracted_once (s : Splitting) (g : ModuleGraph)
    (hnames : (g.entries.map Prod.fst).Nodup) :
    ∃ cg, s.chunkGraph g = .ok cg ∧ ExtractedOnce s g cg ∧ WellNamed g cg := by
  have hinvariant : Invariant g (s.draft g) := invariant_draft
  obtain ⟨cg, hcg⟩ := exists_toChunkGraph g hinvariant.sound
  have hbuilt := built_of_toChunkGraph hinvariant hcg
  exact ⟨cg, hcg, extractedOnce_of_built hbuilt, wellNamed_of_built hnames hbuilt⟩

/-- A stylesheet that an entry and a dynamic import share. -/
theorem modules_are_extracted_once_stylesheet : WellFormed sharedStylesheet ∧
    (sharedStylesheet.entries.map Prod.fst).Nodup ∧
    ∃ cg, scriptSplitting.chunkGraph sharedStylesheet = .ok cg ∧
      ExtractedOnce scriptSplitting sharedStylesheet cg ∧ WellNamed sharedStylesheet cg ∧
      ∃ id c, Extracted scriptSplitting sharedStylesheet cg id ∧ cg.chunks[id]? = some c ∧
        2 ∈ c.modules := by
  obtain ⟨cg, hcg, honce, hnamed⟩ :=
    modules_are_extracted_once scriptSplitting sharedStylesheet (by decide)
  exact ⟨wellFormed_sharedStylesheet, by decide, cg, hcg, honce, hnamed,
    honce.moved _ _ _ _ extracts_stylesheet 2 (by decide)⟩

end WebBundle.Proofs.TakenModules

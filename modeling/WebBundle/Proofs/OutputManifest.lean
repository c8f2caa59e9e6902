import WebBundle.Proofs.EmittedFiles
import WebBundle.Proofs.EntryScripts
import WebBundle.Proofs.InlinedAssets
import WebBundle.Proofs.PendingBuckets

namespace WebBundle.Proofs.OutputManifest

open Output
open WebBundle.Proofs.ChunkNames
open WebBundle.Proofs.ChunkNumbering
open WebBundle.Proofs.EmittedFiles
open WebBundle.Proofs.EntryChunks
open WebBundle.Proofs.EntryScripts
open WebBundle.Proofs.InlinedAssets (mem_all nodup_deliveries)
open WebBundle.Proofs.ModuleReach
open WebBundle.Proofs.PendingBuckets (nodup_eraseDups)
open WebBundle.Proofs.SplittingRun

theorem get?_foldl_insert {α : Type} {entries : List (String × α)}
    (h : (entries.map Prod.fst).Nodup) (m : SortedMap α) {key : String} {value : α} :
    (entries.foldl (fun m e => m.insert e.1 e.2) m).get? key = some value ↔
      (key, value) ∈ entries ∨ key ∉ entries.map Prod.fst ∧ m.get? key = some value := by
  induction entries generalizing m with
  | nil => simp
  | cons e rest ih =>
      obtain ⟨hnew, hrest⟩ := List.nodup_cons.mp h
      rw [List.foldl_cons, ih hrest, SortedMap.get?_insert, List.mem_cons, List.map_cons,
        List.mem_cons, Prod.ext_iff]
      by_cases hkey : e.1 = key
      · subst hkey
        have hother : (e.1, value) ∉ rest := fun hmem =>
          hnew (List.mem_map.mpr ⟨_, hmem, rfl⟩)
        simp [hnew, hother, eq_comm]
      · simp [hkey, Ne.symm hkey]

theorem get?_ofList {α : Type} {entries : List (String × α)} (h : (entries.map Prod.fst).Nodup)
    {key : String} {value : α} :
    (SortedMap.ofList entries).get? key = some value ↔ (key, value) ∈ entries := by
  have hempty : SortedMap.empty.get? key ≠ some value := by simp [SortedMap.empty, SortedMap.get?]
  rw [SortedMap.ofList, get?_foldl_insert h]
  simp [hempty]

theorem get?_ofList_map {α β : Type} {l : List β} {key : β → String} (h : (l.map key).Nodup)
    (value : β → α) {name : String} {found : α} :
    (SortedMap.ofList (l.map fun x => (key x, value x))).get? name = some found ↔
      ∃ x ∈ l, key x = name ∧ found = value x := by
  rw [get?_ofList (by rw [List.map_map]; exact h), List.mem_map]
  refine exists_congr fun x => and_congr_right fun _ => ?_
  rw [Prod.mk.injEq, eq_comm (a := found)]

/-- The files that a manifest records for a chunk. -/
def recordedFor (m : Manifest) (cg : ChunkGraph) (id : ChunkId) : List String :=
  ((m.chunks.get? (cg.nameOf id)).map ManifestChunk.files).getD []

/-- The files that a manifest records for chunks, in their order. -/
def recordedForAll (m : Manifest) (cg : ChunkGraph) (ids : List ChunkId) : List String :=
  ids.flatMap (recordedFor m cg)

/-- The names of files in a manifest. -/
def fileNames (m : Manifest) : List String :=
  m.entrypoints.entries.flatMap (·.2) ++ m.chunks.entries.flatMap (·.2.files) ++
    m.asyncChunks.entries.flatMap (·.2) ++ m.assets.entries.filterMap (·.2.file)

/-- The output of a build agrees with its manifest. -/
structure Agrees (format : Format) (g : ModuleGraph) (cg : ChunkGraph)
    (deliveries : List (ModuleId × Delivery)) (e : Emission) : Prop where
  /-- Every chunk has one record, and there are no other records of chunks. -/
  names : (cg.chunks.map Chunk.name).Nodup
  recorded : ∀ name, (e.manifest.chunks.get? name).isSome ↔ name ∈ cg.chunks.map Chunk.name
  record : ∀ id chunk, cg.chunks[id]? = some chunk → ∃ record,
    e.manifest.chunks.get? chunk.name = some record ∧ record.id = id ∧ record.files ≠ [] ∧
      record.modules = chunk.modules.toList.map fun m => (g.get m).key
  /-- Entries and dynamic imports have the files of the chunks of their groups. -/
  entries : cg.entrypoints.map (fun group => (group.name, group.root)) = g.entries
  entrypoints : ∀ name files, e.manifest.entrypoints.get? name = some files ↔
    ∃ group ∈ cg.entrypoints, group.name = name ∧
      files = recordedForAll e.manifest cg group.chunks
  asyncChunks : ∀ key files, e.manifest.asyncChunks.get? key = some files ↔
    ∃ group ∈ cg.asyncGroups, (g.get group.root).key = key ∧
      files = recordedForAll e.manifest cg group.chunks
  /-- All files that the manifest names are there, and no other ones. -/
  written : ∀ file ∈ fileNames e.manifest, (e.files.get? file).isSome
  others : ∀ file, (e.files.get? file).isSome →
    (∃ name record, e.manifest.chunks.get? name = some record ∧ file ∈ record.files) ∨
      (∃ id, (id, Delivery.emitted file) ∈ deliveries) ∨ format.options.manifest = some file
  manifest : ∀ name, format.options.manifest = some name →
    e.files.get? name = some e.manifest.text.toUTF8
  /-- An asset that is emitted is there as it is, and one that is inlined has no file. -/
  emitted : ∀ id file, (id, Delivery.emitted file) ∈ deliveries →
    e.files.get? file = some (g.get id).artifact.content ∧
      ∃ record, e.manifest.assets.get? (g.get id).key = some record ∧ record.file = some file
  inlined : ∀ id uri, (id, Delivery.inlined uri) ∈ deliveries →
    ∃ record, e.manifest.assets.get? (g.get id).key = some record ∧ record.file = none
  /-- The script of the last chunk of an entry ends in the bootstrap of the entry. -/
  bootstraps : ∀ group ∈ cg.entrypoints, ∃ earlier id script styles, ∃ opening : String,
    group.chunks = earlier ++ [id] ∧ recordedFor e.manifest cg id = script :: styles ∧
      e.files.get? script = some (opening ++ Loader.bootstrap format.options.publicPath
        e.manifest.asyncChunks.entries (recordedForAll e.manifest cg earlier)
        (g.get group.root).key).toUTF8

section Records

variable {g : ModuleGraph} {cg : ChunkGraph} {deliveries : List (ModuleId × Delivery)}
variable {table : SortedMap (List String)} {named : ChunkFiles} {id : ChunkId} {chunk : Chunk}

theorem get?_chunks (hnames : (cg.chunks.map Chunk.name).Nodup) {name : String}
    {record : ManifestChunk} :
    (manifestOf g cg deliveries table named).chunks.get? name = some record ↔
      ∃ id chunk, cg.chunks[id]? = some chunk ∧ chunk.name = name ∧
        record = chunkRecord g cg named id chunk := by
  have hkeys : ((cg.chunks.mapIdx fun id chunk =>
      (chunk.name, chunkRecord g cg named id chunk)).map Prod.fst) = cg.chunks.map Chunk.name := by
    apply List.ext_getElem <;> simp
  rw [manifestOf, get?_ofList (by rw [hkeys]; exact hnames), List.mem_mapIdx]
  constructor
  · rintro ⟨id, hid, heq⟩
    obtain ⟨rfl, rfl⟩ := Prod.mk.inj heq
    exact ⟨id, _, List.getElem?_eq_getElem hid, rfl, rfl⟩
  · rintro ⟨id, chunk, hid, rfl, rfl⟩
    obtain ⟨hlt, rfl⟩ := List.getElem?_eq_some_iff.mp hid
    exact ⟨id, hlt, rfl⟩

theorem recordedFor_eq_files {m : Manifest} {record : ManifestChunk}
    (hid : cg.chunks[id]? = some chunk) (hrecord : m.chunks.get? chunk.name = some record) :
    recordedFor m cg id = record.files := by
  have hname : cg.nameOf id = chunk.name := by rw [ChunkGraph.nameOf, hid]; rfl
  rw [recordedFor, hname, hrecord]
  rfl

theorem recordedFor_eq (hnames : (cg.chunks.map Chunk.name).Nodup)
    (hid : cg.chunks[id]? = some chunk) :
    recordedFor (manifestOf g cg deliveries table named) cg id = filesOf named id :=
  recordedFor_eq_files hid ((get?_chunks hnames).mpr ⟨id, chunk, hid, rfl, rfl⟩)

theorem recordedForAll_eq (hnames : (cg.chunks.map Chunk.name).Nodup) {ids : List ChunkId}
    (hids : ∀ id ∈ ids, id < cg.chunks.length) :
    recordedForAll (manifestOf g cg deliveries table named) cg ids = filesOfAll named ids := by
  rw [recordedForAll, filesOfAll, List.flatMap_def, List.flatMap_def, List.map_congr_left]
  exact fun id hid => recordedFor_eq hnames (List.getElem?_eq_getElem (hids id hid))

theorem get?_entrypoints (hnames : (cg.entrypoints.map ChunkGroup.name).Nodup) {name : String}
    {files : List String} :
    (manifestOf g cg deliveries table named).entrypoints.get? name = some files ↔
      ∃ group ∈ cg.entrypoints, group.name = name ∧ files = filesOfAll named group.chunks := by
  rw [manifestOf, get?_ofList_map hnames]

theorem get?_asyncFiles (hkeys : (cg.asyncGroups.map fun group => (g.get group.root).key).Nodup)
    {key : String} {files : List String} : (asyncFiles g cg named).get? key = some files ↔
      ∃ group ∈ cg.asyncGroups, (g.get group.root).key = key ∧
        files = filesOfAll named group.chunks := by
  rw [asyncFiles, get?_ofList_map hkeys]

/-- The file that a delivery asks for. -/
def fileOf : Delivery → Option String
  | .inlined _ => none
  | .emitted file => some file

theorem get?_assets (hkeys : (deliveries.map fun entry => (g.get entry.1).key).Nodup)
    {key : String} {record : ManifestAsset} :
    (assetRecords g deliveries).get? key = some record ↔
      ∃ id delivery, (id, delivery) ∈ deliveries ∧ (g.get id).key = key ∧
        record = ⟨fileOf delivery, (g.get id).size⟩ := by
  have hrecords : assetRecords g deliveries = SortedMap.ofList (deliveries.map fun entry =>
      ((g.get entry.1).key, ⟨fileOf entry.2, (g.get entry.1).size⟩)) := rfl
  rw [hrecords, get?_ofList_map hkeys, Prod.exists]

end Records

section Keys

variable {g : ModuleGraph}

theorem nodup_keys (hkeys : (g.modules.map Module.key).Nodup) {ids : List ModuleId}
    (hids : ids.Nodup) (hlt : ∀ id ∈ ids, id < g.size) :
    (ids.map fun id => (g.get id).key).Nodup := by
  refine List.Nodup.map_on (fun id hid id' hid' heq => ?_) hids
  have hget : ∀ id < g.size, (g.modules.map Module.key)[id]? = some (g.get id).key := by
    intro id hid
    rw [List.getElem?_map, ModuleGraph.get, List.getD_eq_getElem?_getD,
      List.getElem?_eq_getElem hid]
    rfl
  refine (List.getElem?_inj (by rw [List.length_map]; exact hlt id hid) hkeys).mp ?_
  rw [hget id (hlt id hid), hget id' (hlt id' hid'), heq]

theorem nodup_dynamicTargets (g : ModuleGraph) : g.dynamicTargets.Nodup := nodup_eraseDups _

end Keys

section Output

variable {format : Format} {g : ModuleGraph} {cg : ChunkGraph} {e : Emission} {c : Context}
variable {deliveries : List (ModuleId × Delivery)} {r : Rendering}

/-- What is known of an emission: what it has added, and what its manifest was made of. -/
structure Emits (format : Format) (g : ModuleGraph) (cg : ChunkGraph)
    (deliveries : List (ModuleId × Delivery)) (c : Context) (e : Emission) : Prop where
  own : OwnChunks cg
  names : (cg.chunks.map Chunk.name).Nodup
  entryNames : (cg.entrypoints.map ChunkGroup.name).Nodup
  asyncKeys : (cg.asyncGroups.map fun group => (g.get group.root).key).Nodup
  assetKeys : (deliveries.map fun entry => (g.get entry.1).key).Nodup
  graph_eq : c.graph = g
  format_eq : c.format = format
  manifest : e.manifest =
    manifestOf g cg deliveries (asyncTable c cg) (namesOf c (renderings c cg))
  adds : ∀ file content, e.files.get? file = some content ↔
    (file, content) ∈ assetFiles g deliveries ∨
      (∃ r ∈ renderings c cg, (file, content) ∈ r.written c) ∨
      format.options.manifest = some file ∧ content = e.manifest.text.toUTF8

theorem Emits.recordedFor_eq_names (h : Emits format g cg deliveries c e) (hr : r ∈ renderings c cg) :
    recordedFor e.manifest cg r.id = r.names c := by
  rw [h.manifest, recordedFor_eq h.names (chunk_of_mem hr),
    filesOf_namesOf (nodup_renderings h.own c) hr]

theorem Emits.recordedForAll_eq_filesOf (h : Emits format g cg deliveries c e) {ids : List ChunkId}
    (hids : ∀ id ∈ ids, id < cg.chunks.length) :
    recordedForAll e.manifest cg ids = filesOfAll (namesOf c (renderings c cg)) ids := by
  rw [h.manifest, recordedForAll_eq h.names hids]

theorem Emits.recordedForAll_shared (h : Emits format g cg deliveries c e) {ids : List ChunkId}
    (hids : ∀ id ∈ ids, id < cg.chunks.length)
    (hshared : ∀ id ∈ ids, ∀ chunk, cg.chunks[id]? = some chunk → chunk.isEntry = false) :
    recordedForAll e.manifest cg ids = filesOfAll (namesOf c (shared cg)) ids := by
  rw [h.recordedForAll_eq_filesOf hids]
  refine filesOfAll_congr fun id hid => ?_
  obtain ⟨chunk, hchunk⟩ : ∃ chunk, cg.chunks[id]? = some chunk :=
    ⟨_, List.getElem?_eq_getElem (hids id hid)⟩
  have hmem : ⟨id, chunk, ""⟩ ∈ shared cg :=
    mem_shared_iff.mpr ⟨hchunk, hshared id hid chunk hchunk, rfl⟩
  have hfirst := filesOf_namesOf (c := c) (nodup_shared cg) hmem
  have hlast := filesOf_namesOf (c := c) (nodup_renderings h.own c) (List.mem_append_left _ hmem)
  exact hlast.trans hfirst.symm

theorem Emits.record (h : Emits format g cg deliveries c e) {id : ChunkId} {chunk : Chunk}
    (hid : cg.chunks[id]? = some chunk) : ∃ record,
      e.manifest.chunks.get? chunk.name = some record ∧ record.id = id ∧ record.files ≠ [] ∧
        record.modules = chunk.modules.toList.map fun m => (g.get m).key := by
  obtain ⟨r, hr, rfl, rfl⟩ := exists_rendering h.own c hid
  refine ⟨_, h.manifest ▸ (get?_chunks h.names).mpr ⟨r.id, r.chunk, hid, rfl, rfl⟩, rfl, ?_, rfl⟩
  show filesOf (namesOf c (renderings c cg)) r.id ≠ []
  rw [filesOf_namesOf (nodup_renderings h.own c) hr]
  exact List.cons_ne_nil _ _

theorem Emits.recorded_iff (h : Emits format g cg deliveries c e) (name : String) :
    (e.manifest.chunks.get? name).isSome ↔ name ∈ cg.chunks.map Chunk.name := by
  rw [h.manifest, Option.isSome_iff_exists, List.mem_map]
  simp only [get?_chunks h.names]
  constructor
  · rintro ⟨_, id, chunk, hid, rfl, rfl⟩
    exact ⟨chunk, List.mem_of_getElem? hid, rfl⟩
  · rintro ⟨chunk, hchunk, rfl⟩
    obtain ⟨id, hid⟩ := List.mem_iff_getElem?.mp hchunk
    exact ⟨_, id, chunk, hid, rfl, rfl⟩

theorem Emits.entrypoints_iff (h : Emits format g cg deliveries c e) (name : String)
    (files : List String) : e.manifest.entrypoints.get? name = some files ↔
      ∃ group ∈ cg.entrypoints, group.name = name ∧
        files = recordedForAll e.manifest cg group.chunks := by
  have hfiles : ∀ group ∈ cg.entrypoints, recordedForAll e.manifest cg group.chunks =
      filesOfAll (namesOf c (renderings c cg)) group.chunks := fun group hgroup =>
    h.recordedForAll_eq_filesOf (h.own.lt group (List.mem_append_left _ hgroup))
  rw [h.manifest, get?_entrypoints h.entryNames, ← h.manifest]
  refine exists_congr fun group => and_congr_right fun hgroup => ?_
  rw [hfiles group hgroup]

theorem Emits.async_iff (h : Emits format g cg deliveries c e) (key : String)
    (files : List String) : e.manifest.asyncChunks.get? key = some files ↔
      ∃ group ∈ cg.asyncGroups, (g.get group.root).key = key ∧
        files = recordedForAll e.manifest cg group.chunks := by
  have hfiles : ∀ group ∈ cg.asyncGroups, recordedForAll e.manifest cg group.chunks =
      filesOfAll (namesOf c (shared cg)) group.chunks := fun group hgroup =>
    h.recordedForAll_shared (h.own.lt group (List.mem_append_right _ hgroup))
      (h.own.async group hgroup)
  have htable : e.manifest.asyncChunks = asyncFiles g cg (namesOf c (shared cg)) := by
    rw [h.manifest, manifestOf, asyncTable, h.graph_eq]
  rw [htable, get?_asyncFiles h.asyncKeys]
  refine exists_congr fun group => and_congr_right fun hgroup => ?_
  rw [hfiles group hgroup]

theorem Emits.get?_written (h : Emits format g cg deliveries c e) (hr : r ∈ renderings c cg)
    {file : String} {content : ByteArray} (hfile : (file, content) ∈ r.written c) :
    e.files.get? file = some content :=
  (h.adds file content).mpr (.inr (.inl ⟨r, hr, hfile⟩))

theorem Emits.isSome_recordedFor (h : Emits format g cg deliveries c e) {id : ChunkId}
    (hid : id < cg.chunks.length) {file : String} (hfile : file ∈ recordedFor e.manifest cg id) :
    (e.files.get? file).isSome := by
  obtain ⟨r, hr, rfl, -⟩ := exists_rendering h.own c (List.getElem?_eq_getElem hid)
  rw [h.recordedFor_eq_names hr] at hfile
  obtain ⟨⟨file, content⟩, hwritten, rfl⟩ := List.mem_map.mp hfile
  rw [h.get?_written hr hwritten]
  rfl

theorem mem_assetFiles {file : String} {content : ByteArray} :
    (file, content) ∈ assetFiles g deliveries ↔
      ∃ id, (id, Delivery.emitted file) ∈ deliveries ∧ content = (g.get id).artifact.content := by
  rw [assetFiles, List.mem_filterMap]
  constructor
  · rintro ⟨⟨id, delivery⟩, hmem, heq⟩
    cases delivery with
    | inlined uri => contradiction
    | emitted file' =>
        obtain ⟨rfl, rfl⟩ := Prod.mk.inj (Option.some.inj heq)
        exact ⟨id, hmem, rfl⟩
  · rintro ⟨id, hmem, rfl⟩
    exact ⟨_, hmem, rfl⟩

theorem Emits.get?_asset (h : Emits format g cg deliveries c e) {id : ModuleId} {file : String}
    (hmem : (id, Delivery.emitted file) ∈ deliveries) :
    e.files.get? file = some (g.get id).artifact.content :=
  (h.adds _ _).mpr (.inl (mem_assetFiles.mpr ⟨id, hmem, rfl⟩))

theorem Emits.assets_iff (h : Emits format g cg deliveries c e) {key : String}
    {record : ManifestAsset} : e.manifest.assets.get? key = some record ↔
      ∃ id delivery, (id, delivery) ∈ deliveries ∧ (g.get id).key = key ∧
        record = ⟨fileOf delivery, (g.get id).size⟩ := by
  rw [h.manifest]
  exact get?_assets h.assetKeys

theorem Emits.written (h : Emits format g cg deliveries c e) :
    ∀ file ∈ fileNames e.manifest, (e.files.get? file).isSome := by
  have hgroups : ∀ {group : ChunkGroup}, group ∈ ChunkOrder.groups cg →
      ∀ file ∈ recordedForAll e.manifest cg group.chunks,
        (e.files.get? file).isSome := by
    intro group hgroup file hfile
    obtain ⟨id, hid, hfile⟩ := List.mem_flatMap.mp hfile
    exact h.isSome_recordedFor (h.own.lt group hgroup id hid) hfile
  intro file hfile
  simp only [fileNames, List.mem_append, List.mem_flatMap, List.mem_filterMap, Prod.exists,
    SortedMap.mem_entries] at hfile
  rcases hfile with ((⟨name, files, hget, hfile⟩ | ⟨name, record, hget, hfile⟩) |
    ⟨key, files, hget, hfile⟩) | ⟨key, record, hget, hfile⟩
  · obtain ⟨group, hgroup, -, rfl⟩ := (h.entrypoints_iff name files).mp hget
    exact hgroups (List.mem_append_left _ hgroup) file hfile
  · obtain ⟨chunk, hchunk, rfl⟩ :=
      List.mem_map.mp ((h.recorded_iff name).mp (Option.isSome_iff_exists.mpr ⟨_, hget⟩))
    obtain ⟨id, hid⟩ := List.mem_iff_getElem?.mp hchunk
    refine h.isSome_recordedFor (List.getElem?_eq_some_iff.mp hid).1 ?_
    rwa [recordedFor_eq_files hid hget]
  · obtain ⟨group, hgroup, -, rfl⟩ := (h.async_iff key files).mp hget
    exact hgroups (List.mem_append_right _ hgroup) file hfile
  · obtain ⟨id, delivery, hmem, -, rfl⟩ := h.assets_iff.mp hget
    cases delivery with
    | inlined uri => contradiction
    | emitted file' =>
        obtain rfl : file' = file := Option.some.inj hfile
        rw [h.get?_asset hmem]
        rfl

theorem Emits.others (h : Emits format g cg deliveries c e) {file : String}
    (hfile : (e.files.get? file).isSome) :
    (∃ name record, e.manifest.chunks.get? name = some record ∧ file ∈ record.files) ∨
      (∃ id, (id, Delivery.emitted file) ∈ deliveries) ∨ format.options.manifest = some file := by
  obtain ⟨content, hget⟩ := Option.isSome_iff_exists.mp hfile
  rcases (h.adds file content).mp hget with hasset | ⟨r, hr, hwritten⟩ | ⟨hmanifest, -⟩
  · obtain ⟨id, hmem, -⟩ := mem_assetFiles.mp hasset
    exact .inr (.inl ⟨id, hmem⟩)
  · have hrecord := h.manifest ▸
      (get?_chunks h.names).mpr ⟨r.id, r.chunk, chunk_of_mem hr, rfl, rfl⟩
    refine .inl ⟨r.chunk.name, _, hrecord, ?_⟩
    show file ∈ filesOf (namesOf c (renderings c cg)) r.id
    rw [filesOf_namesOf (nodup_renderings h.own c) hr]
    exact List.mem_map.mpr ⟨_, hwritten, rfl⟩
  · exact .inr (.inr hmanifest)

theorem Emits.bootstrap (h : Emits format g cg deliveries c e) {group : ChunkGroup}
    (hgroup : group ∈ cg.entrypoints) : ∃ earlier id script styles, ∃ opening : String,
      group.chunks = earlier ++ [id] ∧ recordedFor e.manifest cg id = script :: styles ∧
        e.files.get? script = some (opening ++ Loader.bootstrap format.options.publicPath
          e.manifest.asyncChunks.entries (recordedForAll e.manifest cg earlier)
          (g.get group.root).key).toUTF8 := by
  obtain ⟨⟨id, chunk⟩, hstart⟩ := h.own.starts group hgroup
  obtain ⟨earlier, hchunks⟩ := List.getLast?_eq_some_iff.mp (startOf_eq_some.mp hstart).1
  have hr : ⟨id, chunk, endingOf c (asyncTable c cg) (namesOf c (shared cg)) group⟩ ∈
      renderings c cg :=
    List.mem_append_right _ (mem_starts_iff.mpr ⟨group, hgroup, hstart, rfl⟩)
  -- The bootstrap names files of the first pass only, and the manifest those of both.
  have hpresent : recordedForAll e.manifest cg earlier =
      filesOfAll (namesOf c (shared cg)) group.chunks.dropLast := by
    have hdrop : group.chunks.dropLast = earlier := by rw [hchunks, List.dropLast_concat]
    rw [hdrop]
    refine h.recordedForAll_shared (fun id hid => ?_) (hdrop ▸ h.own.before group hgroup)
    refine h.own.lt group (List.mem_append_left _ hgroup) id ?_
    rw [hchunks]
    exact List.mem_append_left _ hid
  have htable : asyncTable c cg = e.manifest.asyncChunks := by rw [h.manifest]; rfl
  obtain ⟨opening, hopening⟩ := script_ends_in_bootstrap c chunk format.options.publicPath
    e.manifest.asyncChunks.entries (recordedForAll e.manifest cg earlier)
    (g.get group.root).key
  refine ⟨earlier, id, _, _, opening, hchunks, h.recordedFor_eq_names hr, ?_⟩
  rw [h.get?_written hr List.mem_cons_self, ← hopening, endingOf, h.format_eq, h.graph_eq, htable,
    hpresent]

theorem Emits.agrees (h : Emits format g cg deliveries c e)
    (hentries : cg.entrypoints.map (fun group => (group.name, group.root)) = g.entries) :
    Agrees format g cg deliveries e where
  names := h.names
  recorded := h.recorded_iff
  record := fun _ _ hid => h.record hid
  entries := hentries
  entrypoints := h.entrypoints_iff
  asyncChunks := h.async_iff
  written := h.written
  others := fun _ hfile => h.others hfile
  manifest := fun name hname => (h.adds name _).mpr (.inr (.inr ⟨hname, rfl⟩))
  emitted := fun id _ hmem =>
    ⟨h.get?_asset hmem, _, h.assets_iff.mpr ⟨id, _, hmem, rfl, rfl⟩, rfl⟩
  inlined := fun id _ hmem => ⟨_, h.assets_iff.mpr ⟨id, _, hmem, rfl, rfl⟩, rfl⟩
  bootstraps := fun _ hgroup => h.bootstrap hgroup

end Output

variable {s : Splitting} {g : ModuleGraph} {cg : ChunkGraph} {e : Emission} {format : Format}
variable {o : AssetOptions} {template : String}

theorem emits_of_emit (hg : WellFormed g) (hkeys : (g.modules.map Module.key).Nodup)
    (hnames : (g.entries.map Prod.fst).Nodup) (hcg : s.chunkGraph g = .ok cg)
    (hemit : emit format g cg (Delivery.all o template g) = .ok e) :
    Emits format g cg (Delivery.all o template g)
      (contextOf format g (Delivery.all o template g)) e := by
  have hown := ownChunks_chunkGraph hcg
  have hbuilt := built_of_toChunkGraph invariant_draft hcg
  have hentries := entrypoints_eq_entries invariant_draft hbuilt hnames
  obtain ⟨hmanifest, hadds⟩ := emit_eq_ok hown rfl hemit
  refine ⟨hown, ?_, ?_, ?_, ?_, rfl, rfl, hmanifest, fun file content => ?_⟩
  · rw [hbuilt.chunks]
    exact names_chunksOf (named_draft s g)
  · rw [← hentries, List.map_map] at hnames
    exact hnames
  · have hroots : cg.asyncGroups.map (fun group => (g.get group.root).key) =
        g.dynamicTargets.map fun id => (g.get id).key := by
      rw [← hbuilt.async_roots, List.map_map]
      rfl
    rw [hroots]
    refine nodup_keys hkeys (nodup_dynamicTargets g) fun id hid => ?_
    obtain ⟨importer, himport⟩ := mem_dynamicTargets_iff.mp hid
    exact hg.import_lt himport
  · have hids := nodup_keys hkeys (nodup_deliveries o template g) fun id hid => by
      obtain ⟨⟨id, delivery⟩, hmem, rfl⟩ := List.mem_map.mp hid
      exact (mem_all.mp hmem).1
    rwa [List.map_map] at hids
  · have hempty : (∅ : OutputFiles).get? file ≠ some content := by
      intro h
      contradiction
    rw [hadds file content, or_iff_right hempty, List.mem_append, List.mem_append, List.mem_flatMap,
      or_assoc, manifestFile]
    simp [eq_comm]

/-- The output of every build agrees with its manifest. -/
theorem output_agrees (hg : WellFormed g) (hkeys : (g.modules.map Module.key).Nodup)
    (hnames : (g.entries.map Prod.fst).Nodup) (hcg : s.chunkGraph g = .ok cg)
    (hemit : emit format g cg (Delivery.all o template g) = .ok e) :
    Agrees format g cg (Delivery.all o template g) e :=
  (emits_of_emit hg hkeys hnames hcg hemit).agrees
    (entrypoints_eq_entries invariant_draft
      (built_of_toChunkGraph invariant_draft hcg) hnames)

/-- An entry with a stylesheet; a script that it imports on demand needs a file that is copied and an
image that is inlined. -/
def imagePage : ModuleGraph where
  modules := [
    { key := "./a.js", path := ⟨"/p/a.js"⟩, origin := .source
      dependencies := [⟨"./b.css", 1, .static⟩, ⟨"./c", 2, .dynamic⟩] },
    { key := "./b.css", path := ⟨"/p/b.css"⟩, origin := .source, type := .style
      artifact := ⟨.style, .empty⟩ },
    { key := "./c.js", path := ⟨"/p/c.js"⟩, origin := .source
      dependencies := [⟨"./d.bin", 3, .static⟩, ⟨"./e.svg", 4, .static⟩] },
    { key := "./d.bin", path := ⟨"/p/d.bin"⟩, origin := .source, type := .raw
      artifact := ⟨.binary, ⟨#[1, 2]⟩⟩ },
    { key := "./e.svg", path := ⟨"/p/e.svg"⟩, origin := .source, type := .asset .inlined "image"
      artifact := ⟨.binary, ⟨#[3]⟩⟩ }]
  entries := [("a", 0)]

def minimizedFormat : Format := { options := {}, filename := "[name].js", minimize := true }

def imageDeliveries : List (ModuleId × Delivery) := Delivery.all {} "[name][ext]" imagePage

def imageOutput : Except BuildError Emission :=
  (scriptSplitting.chunkGraph imagePage).bind fun cg =>
    emit minimizedFormat imagePage cg imageDeliveries

theorem exists_imageOutput : ∃ cg e, scriptSplitting.chunkGraph imagePage = .ok cg ∧
    emit minimizedFormat imagePage cg imageDeliveries = .ok e ∧
      e.files.keys = ["a.css", "a.js", "c.js", "d.bin", "manifest.json", "scripts~c.js"] := by
  have hfiles : imageOutput.toOption.map (·.files.keys) =
      some ["a.css", "a.js", "c.js", "d.bin", "manifest.json", "scripts~c.js"] := by
    decide +kernel
  obtain ⟨e, he, hkeys⟩ := Option.map_eq_some_iff.mp hfiles
  cases houtput : imageOutput with
  | error error =>
      rw [houtput] at he
      contradiction
  | ok e' =>
      rw [houtput] at he
      obtain rfl : e' = e := Option.some.inj he
      obtain ⟨cg, hcg, hemit⟩ := ok_of_bind houtput
      exact ⟨cg, e', hcg, hemit, hkeys⟩

theorem output_agrees_imagePage : WellFormed imagePage ∧
    (imagePage.modules.map Module.key).Nodup ∧ (imagePage.entries.map Prod.fst).Nodup ∧
    ∃ cg e, scriptSplitting.chunkGraph imagePage = .ok cg ∧
      emit minimizedFormat imagePage cg imageDeliveries = .ok e ∧
      e.files.keys = ["a.css", "a.js", "c.js", "d.bin", "manifest.json", "scripts~c.js"] ∧
      Agrees minimizedFormat imagePage cg imageDeliveries e := by
  have hg : WellFormed imagePage := ⟨by decide, by decide⟩
  have hkeys : (imagePage.modules.map Module.key).Nodup := by decide
  have hnames : (imagePage.entries.map Prod.fst).Nodup := by decide
  obtain ⟨cg, e, hcg, hemit, hfiles⟩ := exists_imageOutput
  exact ⟨hg, hkeys, hnames, cg, e, hcg, hemit, hfiles, output_agrees hg hkeys hnames hcg hemit⟩

end WebBundle.Proofs.OutputManifest

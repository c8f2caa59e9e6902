import WebBundle.Output.Emission
import WebBundle.Proofs.EntryChunks

namespace WebBundle.Proofs.EmittedFiles

open Output
open WebBundle.Proofs.EntryChunks

theorem ok_of_bind {ε α β : Type} {x : Except ε α} {f : α → Except ε β} {b : β}
    (h : (x >>= f) = .ok b) : ∃ a, x = .ok a ∧ f a = .ok b := by
  cases x with
  | error e => contradiction
  | ok a => exact ⟨a, rfl, h⟩

/-- Some files have been added to others. -/
def Adds (files : OutputFiles) (added : List (String × ByteArray)) (files' : OutputFiles) : Prop :=
  ∀ name content,
    files'.get? name = some content ↔ files.get? name = some content ∨ (name, content) ∈ added

variable {files files' files'' : OutputFiles} {added more : List (String × ByteArray)}

theorem adds_nil : Adds files [] files := by simp [Adds]

theorem Adds.append (h : Adds files added files') (h' : Adds files' more files'') :
    Adds files (added ++ more) files'' := by
  intro name content
  rw [h', h, List.mem_append, or_assoc]

theorem adds_of_add {name : String} {content : ByteArray} (h : files.add name content = .ok files') :
    Adds files [(name, content)] files' := by
  intro name' content'
  rw [List.mem_singleton, Prod.mk.injEq]
  rw [OutputFiles.add] at h
  split at h
  · next hnone =>
      obtain rfl := Except.ok.inj h
      rw [SortedMap.get?_insert]
      by_cases hname : name = name'
      · subst hname
        simp [hnone, eq_comm]
      · simp [hname, Ne.symm hname]
  · next present hpresent =>
      split at h
      · next hsame =>
          obtain rfl := Except.ok.inj h
          obtain rfl : present = content := ByteArray.ext hsame
          constructor
          · exact .inl
          · rintro (h | ⟨rfl, rfl⟩)
            · exact h
            · exact hpresent
      · contradiction

/-- The files of the assets that are emitted. -/
def assetFiles (g : ModuleGraph) (deliveries : List (ModuleId × Delivery)) :
    List (String × ByteArray) :=
  deliveries.filterMap fun entry => match entry.2 with
    | .inlined _ => none
    | .emitted file => some (file, (g.get entry.1).artifact.content)

theorem adds_addAssets {g : ModuleGraph} {deliveries : List (ModuleId × Delivery)}
    (h : addAssets g deliveries files = .ok files') :
    Adds files (assetFiles g deliveries) files' := by
  induction deliveries generalizing files with
  | nil =>
      obtain rfl := Except.ok.inj h
      exact adds_nil
  | cons entry rest ih =>
      obtain ⟨id, delivery⟩ := entry
      cases delivery with
      | inlined uri => exact ih h
      | emitted file =>
          obtain ⟨between, hadd, hrest⟩ := ok_of_bind h
          exact (adds_of_add hadd).append (ih hrest)

/-- A chunk as it is written, with what follows the modules in its script. -/
structure Rendering where
  id : ChunkId
  chunk : Chunk
  ending : String

/-- The name of the script of a chunk. -/
def Rendering.scriptName (r : Rendering) (c : Context) : String :=
  c.fileName c.format.filename r.id r.chunk (c.script r.chunk r.ending) ".js"

/-- The files of a chunk: its script, and its stylesheet if it has stylesheets. -/
def Rendering.written (r : Rendering) (c : Context) : List (String × ByteArray) :=
  (r.scriptName c, c.script r.chunk r.ending) :: (c.stylesheet? r.chunk).toList.map fun css =>
    (c.fileName c.format.options.cssFilename r.id r.chunk css ".css", css)

def Rendering.names (r : Rendering) (c : Context) : List String := (r.written c).map Prod.fst

/-- The names of the files of some chunks. -/
def namesOf (c : Context) (renderings : List Rendering) : ChunkFiles :=
  renderings.map fun r => (r.id, r.names c)

variable {c : Context} {id : ChunkId} {chunk : Chunk} {names : List String}
variable {named named' : ChunkFiles} {cg : ChunkGraph} {table : SortedMap (List String)}

theorem addChunk_eq_ok {ending : String}
    (h : c.addChunk id chunk ending files = .ok (files', names)) :
    names = Rendering.names ⟨id, chunk, ending⟩ c ∧
      Adds files (Rendering.written ⟨id, chunk, ending⟩ c) files' := by
  rw [Context.addChunk] at h
  obtain ⟨between, hscript, h⟩ := ok_of_bind h
  rw [Rendering.names, Rendering.written]
  split at h
  · next hnone =>
      obtain ⟨rfl, rfl⟩ := Prod.mk.inj (Except.ok.inj h)
      rw [hnone]
      exact ⟨rfl, adds_of_add hscript⟩
  · next css hcss =>
      obtain ⟨last, hstylesheet, h⟩ := ok_of_bind h
      obtain ⟨rfl, rfl⟩ := Prod.mk.inj (Except.ok.inj h)
      rw [hcss]
      exact ⟨rfl, (adds_of_add hscript).append (adds_of_add hstylesheet)⟩

/-- The chunks of the first pass: those that are not chunks of entries. -/
def sharedOf (chunks : List (ChunkId × Chunk)) : List Rendering :=
  (chunks.filter fun entry => !entry.2.isEntry).map fun entry => ⟨entry.1, entry.2, ""⟩

theorem addShared_eq_ok {chunks : List (ChunkId × Chunk)}
    (h : c.addShared chunks files named = .ok (files', named')) :
    named' = named ++ namesOf c (sharedOf chunks) ∧
      Adds files ((sharedOf chunks).flatMap (·.written c)) files' := by
  induction chunks generalizing files named with
  | nil =>
      obtain ⟨rfl, rfl⟩ := Prod.mk.inj (Except.ok.inj h)
      exact ⟨(List.append_nil named).symm, adds_nil⟩
  | cons entry rest ih =>
      obtain ⟨id, chunk⟩ := entry
      rw [Context.addShared] at h
      split at h
      · next hentry =>
          have hskip : sharedOf ((id, chunk) :: rest) = sharedOf rest := by simp [sharedOf, hentry]
          rw [hskip]
          exact ih h
      · next hentry =>
          have hnext : sharedOf ((id, chunk) :: rest) = ⟨id, chunk, ""⟩ :: sharedOf rest := by
            simp [sharedOf, hentry]
          obtain ⟨⟨between, names⟩, hchunk, h⟩ := ok_of_bind h
          obtain ⟨rfl, hadds⟩ := addChunk_eq_ok hchunk
          obtain ⟨hnamed, hrest⟩ := ih h
          rw [hnext, hnamed, List.append_assoc]
          exact ⟨rfl, hadds.append hrest⟩

theorem filesOf_append_of_ne {other : ChunkId} (h : id ≠ other) :
    filesOf (named ++ [(other, names)]) id = filesOf named id := by
  have hnone : [(other, names)].lookup id = none := by simpa using h
  rw [filesOf, filesOf, List.lookup_append, hnone, Option.or_none]

theorem filesOfAll_congr {ids : List ChunkId}
    (h : ∀ id ∈ ids, filesOf named id = filesOf named' id) :
    filesOfAll named ids = filesOfAll named' ids := by
  rw [filesOfAll, filesOfAll, List.flatMap_def, List.flatMap_def, List.map_congr_left h]

/-- What follows the modules in the script of an entry, once the shared chunks have files. -/
def endingOf (c : Context) (table : SortedMap (List String)) (shared : ChunkFiles)
    (group : ChunkGroup) : String :=
  Loader.bootstrap c.format.options.publicPath table.entries
    (filesOfAll shared group.chunks.dropLast) (c.graph.get group.root).key

/-- The chunks of the second pass: those with which entries start. -/
def startsOf (c : Context) (cg : ChunkGraph) (table : SortedMap (List String)) (shared : ChunkFiles)
    (entrypoints : List ChunkGroup) : List Rendering :=
  entrypoints.filterMap fun group => (startOf cg group).map fun start =>
    ⟨start.1, start.2, endingOf c table shared group⟩

/-- What the second pass relies on: entries start with different chunks, none of which has files yet or
is loaded before another one. -/
structure Ready (cg : ChunkGraph) (shared named : ChunkFiles) (entrypoints : List ChunkGroup) :
    Prop where
  distinct : entrypoints.Pairwise fun group other => ∀ start other',
    startOf cg group = some start → startOf cg other = some other' → start.1 ≠ other'.1
  without : ∀ group ∈ entrypoints, ∀ start, startOf cg group = some start →
    filesOf named start.1 = []
  before : ∀ group ∈ entrypoints, ∀ other ∈ entrypoints, ∀ start,
    startOf cg other = some start → start.1 ∉ group.chunks.dropLast
  present : ∀ group ∈ entrypoints,
    filesOfAll named group.chunks.dropLast = filesOfAll shared group.chunks.dropLast

theorem Ready.tail {shared : ChunkFiles} {group : ChunkGroup} {rest : List ChunkGroup}
    (h : Ready cg shared named (group :: rest)) : Ready cg shared named rest where
  distinct := h.distinct.of_cons
  without := fun other hother => h.without other (List.mem_cons_of_mem _ hother)
  before := fun group' hgroup other hother =>
    h.before group' (List.mem_cons_of_mem _ hgroup) other (List.mem_cons_of_mem _ hother)
  present := fun other hother => h.present other (List.mem_cons_of_mem _ hother)

theorem Ready.next {shared : ChunkFiles} {group : ChunkGroup} {rest : List ChunkGroup}
    (h : Ready cg shared named (group :: rest)) (hstart : startOf cg group = some (id, chunk)) :
    Ready cg shared (named ++ [(id, names)]) rest where
  distinct := h.tail.distinct
  without := by
    intro other hother start hstart'
    have hne := List.rel_of_pairwise_cons h.distinct hother (id, chunk) start hstart hstart'
    rw [filesOf_append_of_ne hne.symm]
    exact h.tail.without other hother start hstart'
  before := h.tail.before
  present := by
    intro other hother
    rw [← h.tail.present other hother]
    refine filesOfAll_congr fun earlier hearlier => filesOf_append_of_ne ?_
    rintro rfl
    exact h.before other (List.mem_cons_of_mem _ hother) group List.mem_cons_self _ hstart hearlier

theorem addEntries_eq_ok {shared : ChunkFiles} {entrypoints : List ChunkGroup}
    (hready : Ready cg shared named entrypoints)
    (h : c.addEntries cg table entrypoints files named = .ok (files', named')) :
    named' = named ++ namesOf c (startsOf c cg table shared entrypoints) ∧
      Adds files ((startsOf c cg table shared entrypoints).flatMap (·.written c)) files' := by
  -- By induction on the entries that are left, which stay ready when another one is written.
  induction entrypoints generalizing files named with
  | nil =>
      obtain ⟨rfl, rfl⟩ := Prod.mk.inj (Except.ok.inj h)
      exact ⟨(List.append_nil named).symm, adds_nil⟩
  | cons group rest ih =>
      rw [Context.addEntries] at h
      split at h
      · next hnone =>
          have hskip : startsOf c cg table shared (group :: rest) =
              startsOf c cg table shared rest := by simp [startsOf, hnone]
          rw [hskip]
          exact ih hready.tail h
      · next id chunk hstart =>
          have hnext : startsOf c cg table shared (group :: rest) =
              ⟨id, chunk, endingOf c table shared group⟩ :: startsOf c cg table shared rest := by
            simp [startsOf, hstart]
          have hnew := hready.without group List.mem_cons_self _ hstart
          rw [if_neg (by simp [hnew]), hready.present group List.mem_cons_self] at h
          obtain ⟨⟨between, names⟩, hchunk, h⟩ := ok_of_bind h
          obtain ⟨rfl, hadds⟩ := addChunk_eq_ok hchunk
          obtain ⟨hnamed, hrest⟩ := ih (hready.next hstart) h
          rw [hnext, hnamed, List.append_assoc]
          exact ⟨rfl, hadds.append hrest⟩

variable {format : Format} {g : ModuleGraph} {deliveries : List (ModuleId × Delivery)}
variable {r : Rendering}

/-- What all chunks of an emission have in common. -/
def contextOf (format : Format) (g : ModuleGraph) (deliveries : List (ModuleId × Delivery)) :
    Context where
  format := format
  graph := g
  addresses := deliveries.map fun (id, d) => (id, addressOf format.options.publicPath d)
  hash := compilationHash g

/-- The chunks of the first pass. -/
def shared (cg : ChunkGraph) : List Rendering :=
  sharedOf (cg.chunks.mapIdx fun id chunk => (id, chunk))

/-- The files of dynamic imports, which are known after the first pass. -/
def asyncTable (c : Context) (cg : ChunkGraph) : SortedMap (List String) :=
  asyncFiles c.graph cg (namesOf c (shared cg))

/-- The chunks of the second pass. -/
def starts (c : Context) (cg : ChunkGraph) : List Rendering :=
  startsOf c cg (asyncTable c cg) (namesOf c (shared cg)) cg.entrypoints

/-- All chunks as an emission writes them. -/
def renderings (c : Context) (cg : ChunkGraph) : List Rendering := shared cg ++ starts c cg

def manifestFile (format : Format) (m : Manifest) : List (String × ByteArray) :=
  format.options.manifest.toList.map fun name => (name, m.text.toUTF8)

theorem mem_shared_iff : r ∈ shared cg ↔
    cg.chunks[r.id]? = some r.chunk ∧ r.chunk.isEntry = false ∧ r.ending = "" := by
  rw [shared, sharedOf, List.mem_map]
  constructor
  · rintro ⟨⟨id, chunk⟩, hmem, rfl⟩
    obtain ⟨hmem, hentry⟩ := List.mem_filter.mp hmem
    obtain ⟨i, hi, heq⟩ := List.mem_mapIdx.mp hmem
    obtain ⟨rfl, rfl⟩ := Prod.mk.inj heq
    exact ⟨List.getElem?_eq_getElem hi, by simpa using hentry, rfl⟩
  · rintro ⟨hid, hentry, hending⟩
    obtain ⟨hlt, hchunk⟩ := List.getElem?_eq_some_iff.mp hid
    refine ⟨(r.id, r.chunk), List.mem_filter.mpr ⟨?_, by simpa using hentry⟩, ?_⟩
    · exact List.mem_mapIdx.mpr ⟨r.id, hlt, by rw [hchunk]⟩
    · rw [← hending]

theorem mem_starts_iff : r ∈ starts c cg ↔ ∃ group ∈ cg.entrypoints,
    startOf cg group = some (r.id, r.chunk) ∧
      r.ending = endingOf c (asyncTable c cg) (namesOf c (shared cg)) group := by
  rw [starts, startsOf, List.mem_filterMap]
  constructor
  · rintro ⟨group, hgroup, hr⟩
    obtain ⟨start, hstart, rfl⟩ := Option.map_eq_some_iff.mp hr
    exact ⟨group, hgroup, hstart, rfl⟩
  · rintro ⟨group, hgroup, hstart, hending⟩
    exact ⟨group, hgroup, by rw [hstart, Option.map_some, ← hending]⟩

theorem not_shared_of_start {group : ChunkGroup} {start : ChunkId × Chunk}
    (hstart : startOf cg group = some start) (hr : r ∈ shared cg) : r.id ≠ start.1 := by
  intro heq
  obtain ⟨hchunk, hshared, -⟩ := mem_shared_iff.mp hr
  obtain ⟨-, hchunk', hentry⟩ := startOf_eq_some.mp hstart
  rw [heq, hchunk', Option.some.injEq] at hchunk
  rw [← hchunk, hentry] at hshared
  contradiction

theorem chunk_of_mem (hr : r ∈ renderings c cg) : cg.chunks[r.id]? = some r.chunk := by
  rcases List.mem_append.mp hr with hr | hr
  · exact (mem_shared_iff.mp hr).1
  · obtain ⟨group, -, hstart, -⟩ := mem_starts_iff.mp hr
    exact (startOf_eq_some.mp hstart).2.1

theorem exists_rendering (hown : OwnChunks cg) (c : Context) (hid : cg.chunks[id]? = some chunk) :
    ∃ r ∈ renderings c cg, r.id = id ∧ r.chunk = chunk := by
  cases hentry : chunk.isEntry with
  | false =>
      exact ⟨⟨id, chunk, ""⟩, List.mem_append_left _ (mem_shared_iff.mpr ⟨hid, hentry, rfl⟩), rfl, rfl⟩
  | true =>
      obtain ⟨group, hgroup, hstart⟩ := hown.started id chunk hid hentry
      exact ⟨⟨id, chunk, _⟩,
        List.mem_append_right _ (mem_starts_iff.mpr ⟨group, hgroup, hstart, rfl⟩), rfl, rfl⟩

theorem nodup_shared (cg : ChunkGraph) : ((shared cg).map Rendering.id).Nodup := by
  have hids : (cg.chunks.mapIdx fun id chunk => (id, chunk)).map Prod.fst =
      List.range cg.chunks.length := by
    apply List.ext_getElem <;> simp
  rw [shared, sharedOf, List.map_map]
  refine List.Nodup.sublist (List.Sublist.map Prod.fst List.filter_sublist) ?_
  rw [hids]
  exact List.nodup_range

theorem nodup_starts (hown : OwnChunks cg) (c : Context) :
    ((starts c cg).map Rendering.id).Nodup := by
  rw [List.Nodup, List.pairwise_map, starts, startsOf, List.pairwise_filterMap]
  refine hown.distinct.imp fun hne r hr r' hr' => ?_
  obtain ⟨start, hstart, rfl⟩ := Option.map_eq_some_iff.mp hr
  obtain ⟨start', hstart', rfl⟩ := Option.map_eq_some_iff.mp hr'
  exact hne start start' hstart hstart'

theorem nodup_renderings (hown : OwnChunks cg) (c : Context) :
    ((renderings c cg).map Rendering.id).Nodup := by
  rw [renderings, List.map_append]
  refine List.nodup_append.mpr ⟨nodup_shared cg, nodup_starts hown c, ?_⟩
  intro id hid id' hid' heq
  obtain ⟨r, hr, rfl⟩ := List.mem_map.mp hid
  obtain ⟨r', hr', rfl⟩ := List.mem_map.mp hid'
  obtain ⟨group, -, hstart, -⟩ := mem_starts_iff.mp hr'
  exact not_shared_of_start hstart hr heq

theorem filesOf_namesOf {l : List Rendering} (h : (l.map Rendering.id).Nodup) (hr : r ∈ l) :
    filesOf (namesOf c l) r.id = r.names c := by
  obtain ⟨before, after, rfl⟩ := List.append_of_mem hr
  have hlookup : (namesOf c (before ++ r :: after)).lookup r.id = some (r.names c) := by
    rw [List.lookup_eq_some_iff]
    refine ⟨namesOf c before, namesOf c after, by simp [namesOf], ?_⟩
    intro named hnamed
    obtain ⟨earlier, hearlier, rfl⟩ := List.mem_map.mp hnamed
    rw [List.map_append, List.map_cons] at h
    have hne := (List.nodup_append.mp h).2.2 earlier.id (List.mem_map_of_mem hearlier) r.id
      List.mem_cons_self
    simpa using hne.symm
  rw [filesOf, hlookup, Option.getD_some]

theorem filesOf_eq_nil {l : List Rendering} (h : ∀ r ∈ l, r.id ≠ id) :
    filesOf (namesOf c l) id = [] := by
  have hlookup : (namesOf c l).lookup id = none := by
    rw [List.lookup_eq_none_iff]
    intro named hnamed
    obtain ⟨r, hr, rfl⟩ := List.mem_map.mp hnamed
    simpa using (h r hr).symm
  rw [filesOf, hlookup, Option.getD_none]

theorem ready (hown : OwnChunks cg) (c : Context) :
    Ready cg (namesOf c (shared cg)) (namesOf c (shared cg)) cg.entrypoints where
  distinct := hown.distinct
  without := by
    intro group _ start hstart
    exact filesOf_eq_nil fun r hr => not_shared_of_start hstart hr
  before := by
    intro group hgroup other hother start hstart hmem
    obtain ⟨-, hchunk, hentry⟩ := startOf_eq_some.mp hstart
    have hshared := hown.before group hgroup start.1 hmem start.2 hchunk
    rw [hentry] at hshared
    contradiction
  present := fun _ _ => rfl

/-- The end of an emission: the manifest is a file if it has a name. -/
def finished (format : Format) (m : Manifest) (files : OutputFiles) : Except BuildError Emission :=
  match format.options.manifest with
  | none => return { files, manifest := m }
  | some name => return { files := ← files.add name m.text.toUTF8, manifest := m }

theorem emit_eq (format : Format) (g : ModuleGraph) (cg : ChunkGraph)
    (deliveries : List (ModuleId × Delivery)) : emit format g cg deliveries =
      addAssets g deliveries ∅ >>= fun files =>
        (contextOf format g deliveries).addShared (cg.chunks.mapIdx fun id chunk => (id, chunk))
          files [] >>= fun first =>
            (contextOf format g deliveries).addEntries cg (asyncFiles g cg first.2) cg.entrypoints
              first.1 first.2 >>= fun second =>
                finished format (manifestOf g cg deliveries (asyncFiles g cg first.2) second.2)
                  second.1 :=
  rfl

theorem finished_eq_ok {m : Manifest} {e : Emission} (h : finished format m files = .ok e) :
    e.manifest = m ∧ Adds files (manifestFile format m) e.files := by
  rw [finished] at h
  rw [manifestFile]
  split at h
  · next hnone =>
      obtain rfl := Except.ok.inj h
      rw [hnone]
      exact ⟨rfl, adds_nil⟩
  · next name hname =>
      obtain ⟨files', hmanifest, h⟩ := ok_of_bind h
      obtain rfl := Except.ok.inj h
      rw [hname]
      exact ⟨rfl, adds_of_add hmanifest⟩

/-- An emission adds the files of emitted assets, those of all chunks and the manifest, and no
others. -/
theorem emit_eq_ok (hown : OwnChunks cg) {e : Emission} {c : Context}
    (hc : c = contextOf format g deliveries) (h : emit format g cg deliveries = .ok e) :
    e.manifest = manifestOf g cg deliveries (asyncTable c cg) (namesOf c (renderings c cg)) ∧
      Adds ∅ (assetFiles g deliveries ++ (renderings c cg).flatMap (·.written c) ++
        manifestFile format e.manifest) e.files := by
  rw [emit_eq, ← hc] at h
  obtain ⟨files, hassets, h⟩ := ok_of_bind h
  obtain ⟨⟨files', named⟩, hshared, h⟩ := ok_of_bind h
  obtain ⟨rfl, hadds⟩ := addShared_eq_ok hshared
  obtain ⟨⟨files'', named'⟩, hstarts, h⟩ := ok_of_bind h
  have htable : asyncFiles g cg ([] ++ namesOf c (shared cg)) = asyncTable c cg := by
    rw [asyncTable, hc]
    rfl
  rw [← shared, htable] at hstarts h
  rw [List.nil_append] at hstarts
  obtain ⟨rfl, hadds'⟩ := addEntries_eq_ok (ready hown c) hstarts
  obtain ⟨hmanifest, hadds''⟩ := finished_eq_ok h
  have hnames : namesOf c (shared cg) ++ namesOf c (starts c cg) = namesOf c (renderings c cg) :=
    List.map_append.symm
  have hall := ((adds_addAssets hassets).append (hadds.append hadds')).append hadds''
  rw [← List.flatMap_append, ← hmanifest] at hall
  refine ⟨?_, hall⟩
  rw [hmanifest, ← hnames]
  rfl

end WebBundle.Proofs.EmittedFiles

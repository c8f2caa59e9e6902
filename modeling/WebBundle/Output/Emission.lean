import WebBundle.Config.Options
import WebBundle.Output.Body
import WebBundle.Output.Files
import WebBundle.Output.Manifest

/-!
Emission of a build: the files of assets and chunks and the manifest, as contents by name. An entry's script
names the files of all dynamic imports, so the chunks of entries come last.
-/

namespace WebBundle

/-- The output of a build before it is written. -/
structure Emission where
  files : OutputFiles := ∅
  manifest : Manifest := {}

namespace Output

/-- How files are named and written. -/
structure Format where
  options : OutputOptions
  /-- The template of the names of scripts. -/
  filename : String
  minimize : Bool

/-- A hash of all modules and their contents. -/
def compilationHash (g : ModuleGraph) : String :=
  Digest.contentHash (String.join (g.modules.map fun m =>
    m.key ++ "\x00" ++ m.contentHash ++ "\n")).toUTF8

/-- The names of the files of chunks, as far as they are known. -/
abbrev ChunkFiles := List (ChunkId × List String)

/-- The files of a chunk; none while it has no names. -/
def filesOf (named : ChunkFiles) (chunk : ChunkId) : List String := (named.lookup chunk).getD []

def filesOfAll (named : ChunkFiles) (chunks : List ChunkId) : List String :=
  chunks.flatMap (filesOf named)

/-- The address of a module that is delivered as an asset. -/
def addressOf (publicPath : String) : Delivery → String
  | .inlined uri => uri
  | .emitted file => publicPath ++ file

def addAssets (g : ModuleGraph) :
    List (ModuleId × Delivery) → OutputFiles → Except BuildError OutputFiles
  | [], files => .ok files
  | (_, .inlined _) :: rest, files => addAssets g rest files
  | (id, .emitted file) :: rest, files => do
    addAssets g rest (← files.add file (g.get id).artifact.content)

/-- What the manifest says of the deliveries. -/
def assetRecords (g : ModuleGraph) (deliveries : List (ModuleId × Delivery)) :
    SortedMap ManifestAsset :=
  SortedMap.ofList (deliveries.map fun (id, delivery) =>
    ((g.get id).key, {
      file := match delivery with
        | .inlined _ => none
        | .emitted file => some file
      size := (g.get id).size }))

/-- What all chunks of an emission have in common. -/
structure Context where
  format : Format
  graph : ModuleGraph
  addresses : Addresses
  /-- The hash of the compilation. -/
  hash : String

/-- A text as a file; minimized output has no blank lines. -/
def Context.finish (c : Context) (text : String) : ByteArray :=
  (if c.format.minimize then withoutBlankLines text else text).toUTF8

def Context.fileName (c : Context) (template : String) (id : ChunkId) (chunk : Chunk)
    (content : ByteArray) (extension : String) : String :=
  Template.render template {
    name := chunk.name, id := some id, contentHash := Digest.contentHash content, hash := c.hash, extension }

/-- The script of a chunk, with what follows the modules in an entry's script. -/
def Context.script (c : Context) (chunk : Chunk) (ending : String) : ByteArray :=
  let statements := chunk.modules.toList.map (registration c.graph c.addresses (!c.format.minimize))
  c.finish (Loader.prelude ++ "\n" ++ String.join statements ++ ending)

/-- The stylesheet of a chunk, if it has stylesheets. -/
def Context.stylesheet? (c : Context) (chunk : Chunk) : Option ByteArray :=
  match styleOrder c.graph chunk.modules with
  | [] => none
  | sheets =>
    some (c.finish (String.intercalate "\n" (sheets.map (stylesheet c.graph c.addresses))))

/-- Adds the files of a chunk, its script and then its stylesheet, and returns their names. -/
def Context.addChunk (c : Context) (id : ChunkId) (chunk : Chunk) (ending : String)
    (files : OutputFiles) : Except BuildError (OutputFiles × List String) := do
  let script := c.script chunk ending
  let name := c.fileName c.format.filename id chunk script ".js"
  let files ← files.add name script
  match c.stylesheet? chunk with
  | none => return (files, [name])
  | some css =>
    let cssName := c.fileName c.format.options.cssFilename id chunk css ".css"
    return (← files.add cssName css, [name, cssName])

/-- Adds the files of the chunks that no entry starts with. -/
def Context.addShared (c : Context) :
    List (ChunkId × Chunk) → OutputFiles → ChunkFiles → Except BuildError (OutputFiles × ChunkFiles)
  | [], files, named => .ok (files, named)
  | (id, chunk) :: rest, files, named =>
    if chunk.isEntry then c.addShared rest files named
    else do
      let (files, names) ← c.addChunk id chunk "" files
      c.addShared rest files (named ++ [(id, names)])

/-- The files of each dynamic import, by the key of its target. -/
def asyncFiles (g : ModuleGraph) (chunks : ChunkGraph) (named : ChunkFiles) :
    SortedMap (List String) :=
  SortedMap.ofList (chunks.asyncGroups.map fun group =>
    ((g.get group.root).key, filesOfAll named group.chunks))

/-- The chunk with which an entry starts: the last one that it loads. -/
def startOf (chunks : ChunkGraph) (group : ChunkGroup) : Option (ChunkId × Chunk) := do
  let id ← group.chunks.getLast?
  let chunk ← chunks.chunks[id]?
  if chunk.isEntry then return (id, chunk) else none

/-- Adds the files of the chunks with which entries start. Each carries the loader and runs its entry. -/
def Context.addEntries (c : Context) (chunks : ChunkGraph) (table : SortedMap (List String)) :
    List ChunkGroup → OutputFiles → ChunkFiles → Except BuildError (OutputFiles × ChunkFiles)
  | [], files, named => .ok (files, named)
  | group :: rest, files, named =>
    match startOf chunks group with
    | none => c.addEntries chunks table rest files named
    | some (id, chunk) =>
      if !(filesOf named id).isEmpty then c.addEntries chunks table rest files named
      else do
        let ending := Loader.bootstrap c.format.options.publicPath table.entries
          (filesOfAll named group.chunks.dropLast) (c.graph.get group.root).key
        let (files, names) ← c.addChunk id chunk ending files
        c.addEntries chunks table rest files (named ++ [(id, names)])

def chunkRecord (g : ModuleGraph) (chunks : ChunkGraph) (named : ChunkFiles) (id : ChunkId)
    (chunk : Chunk) : ManifestChunk where
  id := id
  initial := chunk.initial
  files := filesOf named id
  modules := chunk.modules.toList.map fun m => (g.get m).key
  dependencies := chunks.namesOf chunk.dependencies
  size := chunk.size

/-- The names of the chunks that hold each module. -/
def homes (g : ModuleGraph) (chunks : List Chunk) : SortedMap (List String) :=
  chunks.foldl (fun homes chunk =>
    chunk.modules.toList.foldl (fun homes id => Manifest.addHome homes (g.get id).key chunk.name) homes) ∅

def manifestOf (g : ModuleGraph) (chunks : ChunkGraph) (deliveries : List (ModuleId × Delivery))
    (table : SortedMap (List String)) (named : ChunkFiles) : Manifest where
  entrypoints := SortedMap.ofList (chunks.entrypoints.map fun group =>
    (group.name, filesOfAll named group.chunks))
  chunks := SortedMap.ofList (chunks.chunks.mapIdx fun id chunk =>
    (chunk.name, chunkRecord g chunks named id chunk))
  modules := homes g chunks.chunks
  asyncChunks := table
  assets := assetRecords g deliveries

/-- The output of a build. Two files of one name must not differ. -/
def emit (format : Format) (g : ModuleGraph) (chunks : ChunkGraph)
    (deliveries : List (ModuleId × Delivery)) : Except BuildError Emission := do
  let c : Context := {
    format, graph := g, hash := compilationHash g
    addresses := deliveries.map fun (id, d) => (id, addressOf format.options.publicPath d) }
  let files ← addAssets g deliveries ∅
  let (files, named) ← c.addShared (chunks.chunks.mapIdx fun id chunk => (id, chunk)) files []
  let table := asyncFiles g chunks named
  let (files, named) ← c.addEntries chunks table chunks.entrypoints files named
  let manifest := manifestOf g chunks deliveries table named
  match format.options.manifest with
  | none => return { files, manifest }
  | some name => return { files := ← files.add name manifest.text.toUTF8, manifest }

end Output

end WebBundle

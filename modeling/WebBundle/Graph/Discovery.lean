import WebBundle.Build.Error
import WebBundle.Graph.ModuleGraph
import WebBundle.Resolution.Lookup
import WebBundle.Rules.RuleSet
import WebBundle.Text.Quotation
import WebBundle.Transform.Cache

/-!
Discovery of the modules that the entries of a project lead to. It goes in waves: all files that the wave
before found are read and transformed, and then, one after another, their imports are resolved. A failure
ends the discovery, but outputs computed before it stay in the cache.
-/

namespace WebBundle

/-- The settled options by which modules are discovered. -/
structure Project where
  resolver : Resolver
  rules : RuleSet
  /-- Patterns of the paths whose modules are not scanned. -/
  noParse : List Pattern

/-- How far a discovery has come. -/
structure Discovery where
  graph : ModuleGraph := {}
  /-- The files that were found but not read yet. -/
  pending : List ModuleId := []
  warnings : List Warning := []
  /-- How many chains the cache spared. -/
  cacheHits : Nat := 0

/-- What the transforms made of a file. -/
structure Processed where
  id : ModuleId
  type : ModuleType
  outcome : Outcome

namespace Discovery

variable {m : Type → Type} [Monad m]

def modify (d : Discovery) (change : ModuleGraph → ModuleGraph) : Discovery :=
  { d with graph := change d.graph }

/-- Adds a module that is not pending. -/
def addModule (d : Discovery) (m : Module) : Discovery × ModuleId :=
  let (graph, id) := d.graph.insert m
  ({ d with graph }, id)

/-- Adds the module of a file; a new one is pending. -/
def addSource (d : Discovery) (context path : Path) (query : Option String) : Discovery × ModuleId :=
  let key := path.moduleKey context query
  let (graph, id) := d.graph.insert { key, path, query, origin := .source }
  let isNew := d.graph.size < graph.size
  ({ d with graph, pending := if isNew then d.pending ++ [id] else d.pending }, id)

/-- The module that stands for an external specifier. -/
def externalModule (specifier global : String) : Module :=
  let key := "external " ++ Text.quoted specifier
  { key, path := ⟨specifier⟩, origin := .external global
    contentHash := Digest.contentHash key.toUTF8 }

/-- The module that stands for an ignored specifier. -/
def ignoredModule (specifier : String) (directory : Path) : Module :=
  let key := "ignored " ++ directory.slashed ++ "|" ++ specifier
  { key, path := directory.join ⟨specifier⟩, origin := .ignored
    contentHash := Digest.contentHash key.toUTF8 }

/-- Adds the module for which a specifier stands. -/
def addTarget (d : Discovery) (context directory : Path) (specifier : String) :
    Resolution → Discovery × ModuleId
  | .file path query => d.addSource context path query
  | .external global => d.addModule (externalModule specifier global)
  | .ignored => d.addModule (ignoredModule specifier directory)

/-- Resolves the imports of a module one after another. -/
def linkImports (p : Project) (view : FileView m) (importer : ModuleId) (directory : Path) :
    List Import → Discovery → ExceptT BuildError m Discovery
  | [], d => pure d
  | i :: rest, d => do
    match ← (p.resolver.resolve view i.specifier directory : m _) with
    | .error e => throw (.ofResolution (d.graph.get importer).key i.specifier e)
    | .ok resolution =>
      let (d, target) := d.addTarget p.resolver.context directory i.specifier resolution
      let d := d.modify (·.addDependency importer ⟨i.specifier, target, i.kind⟩)
      linkImports p view importer directory rest d

def withArtifact (artifact : Artifact) (m : Module) : Module :=
  { m with artifact, contentHash := Digest.contentHash artifact.content }

/-- The query of the module that holds a side artifact. -/
def sideQuery (query : Option String) (index : Nat) : String :=
  match query with
  | some query => query ++ "&side=" ++ toString index
  | none => "side=" ++ toString index

/-- The module that holds a side artifact of another module. -/
def sideModule (context : Path) (owner : ModuleId) (path : Path) (query : String) (artifact : Artifact) :
    Module :=
  withArtifact artifact
    { key := path.moduleKey context (some query), path, query := some query, origin := .side owner
      type := .ofSide artifact.kind }

/-- Adds the modules of side artifacts, of which the first has the given number, with their imports if
these count. -/
def linkSides (p : Project) (view : FileView m) (owner : ModuleId) (path : Path) (query : Option String)
    (parse : Bool) : (index : Nat) → List Artifact → Discovery → ExceptT BuildError m Discovery
  | _, [], d => pure d
  | index, artifact :: rest, d => do
    let query' := sideQuery query index
    let (d, id) := d.addModule (sideModule p.resolver.context owner path query' artifact)
    let d := d.modify (·.addDependency owner ⟨"?" ++ query', id, .static⟩)
    let directory := path.parent.getD p.resolver.context
    let d ← if parse then linkImports p view id directory artifact.imports d else pure d
    linkSides p view owner path query parse (index + 1) rest d

/-- Enters what the transforms made of a file, and resolves the imports in it. -/
def link (p : Project) (view : FileView m) (item : Processed) (d : Discovery) :
    ExceptT BuildError m Discovery := do
  let output := item.outcome.output
  let d := d.modify (·.modify item.id fun source =>
    withArtifact output.primary { source with type := item.type })
  let source := d.graph.get item.id
  let d := { d with
    warnings := d.warnings ++ output.skipped.map (Warning.skipped source.key)
    cacheHits := if item.outcome.cacheHit then d.cacheHits + 1 else d.cacheHits }
  let parse := !item.type.isResource && !p.noParse.any (·.matchesPath source.path)
  let d ← linkSides p view item.id source.path source.query parse 0 output.side d
  if parse then
    linkImports p view item.id (source.directory p.resolver.context) output.primary.imports d
  else pure d

def linkAll (p : Project) (view : FileView m) :
    List Processed → Discovery → ExceptT BuildError m Discovery
  | [], d => pure d
  | item :: rest, d => do linkAll p view rest (← link p view item d)

end Discovery

/-- A computation of a build: it may fail, and it may use and fill a cache. -/
abbrev BuildM (m : Type → Type) := ExceptT BuildError (StateT (Option Cache) m)

namespace Discovery

variable {m : Type → Type} [Monad m]

def runChain (chain : Chain) (input : Artifact) (path : Path) : BuildM m Outcome := do
  let (result, cache) := chain.run input false (← get) path
  set cache
  match result with
  | .ok outcome => return outcome
  | .error e => throw (.ofChain path e)

/-- Reads and transforms the file of a module. -/
def process (p : Project) (view : FileView m) (id : ModuleId) (path : Path) : BuildM m Processed := do
  match ← view.read path with
  | .error e => throw (.store e)
  | .ok content =>
    match p.rules.matchPath? path with
    | none => throw (.unknownType path)
    | some found =>
      let outcome ← runChain found.chain ⟨found.type.sourceKind, content⟩ path
      return ⟨id, found.type, outcome⟩

/-- Reads and transforms files one after another. -/
def processAll (p : Project) (view : FileView m) (g : ModuleGraph) :
    List ModuleId → BuildM m (List Processed)
  | [] => pure []
  | id :: rest => do
    let item ← process p view id (g.get id).path
    return item :: (← processAll p view g rest)

/-- Fails where a computation without a cache fails. -/
def withoutCache {α : Type} (x : ExceptT BuildError m α) : BuildM m α := do
  match ← (x.run : m (Except BuildError α)) with
  | .ok a => return a
  | .error e => throw e

def wave (p : Project) (view : FileView m) (d : Discovery) : BuildM m Discovery := do
  let items ← processAll p view d.graph d.pending
  withoutCache (linkAll p view items { d with pending := [] })

/-- Goes on in waves until no file is pending. Every wave but the first was found by the one before it. -/
def waves (p : Project) (view : FileView m) : (limit : Nat) → Discovery → BuildM m Discovery
  | 0, d => if d.pending.isEmpty then pure d else throw .tooManyModules
  | limit + 1, d => do
    if d.pending.isEmpty then pure d else waves p view limit (← wave p view d)

/-- The request of an entry; its path is seen from the project's directory. -/
def entryRequest (path : String) : String :=
  if path.toList.head? == some '.' || (Path.mk path).isAbsolute then path else "./" ++ path

/-- Adds the modules of entries, each a name and a path. -/
def addEntries (p : Project) (view : FileView m) :
    List (String × String) → Discovery → ExceptT BuildError m Discovery
  | [], d => pure d
  | (name, path) :: rest, d => do
    let request := entryRequest path
    let importer := "entry '" ++ name ++ "'"
    match ← (p.resolver.resolve view request p.resolver.context : m _) with
    | .ok (.file path query) =>
      let (d, id) := d.addSource p.resolver.context path query
      addEntries p view rest (d.modify (·.addEntry name id))
    | .ok _ => throw (.unresolved importer request [])
    | .error e => throw (.ofResolution importer request e)

def warnOfCycles (d : Discovery) : Discovery :=
  { d with warnings := d.warnings ++ d.graph.importCycles.map fun cycle =>
      .importCycle (cycle.map fun id => (d.graph.get id).key) }

/-- The waves after which a discovery gives up. The limit and its error are of this definition alone: without
them a search that finds ever new files would not end. -/
def waveLimit : Nat := Nat.pow 2 32

/-- Discovers all modules that entries lead to. -/
def run (p : Project) (view : FileView m) (entries : List (String × String)) : BuildM m Discovery := do
  let d ← withoutCache (addEntries p view entries {})
  return (← waves p view waveLimit d).warnOfCycles

end Discovery

end WebBundle

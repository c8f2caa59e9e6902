import WebBundle.Chunk.Basic
import WebBundle.Chunk.Boundary
import WebBundle.Chunk.Policy

/-!
Drafts of chunks. At first every boundary has one base chunk with all it has to load; extractions then move
modules from base chunks to chunks that several boundaries load.
-/

namespace WebBundle

/-- The draft of a chunk. One without modules is no chunk. -/
structure DraftChunk where
  name : String
  origin : ChunkOrigin
  modules : IdSet
  dependencies : List Nat := []
  deriving DecidableEq

/-- The state of chunk splitting. -/
structure Draft where
  boundaries : List Boundary
  chunks : List DraftChunk
  /-- The modules that a policy has taken. -/
  claimed : IdSet := ∅
  /-- The names of boundaries and chunks. -/
  names : List String := []

/-- A module that a policy may take, and the boundaries whose base chunks hold it. -/
structure Candidate where
  id : ModuleId
  users : IdSet
  deriving DecidableEq

/-- Modules that are taken together. -/
abbrev Bucket := List Candidate

namespace Bucket

def modules (bucket : Bucket) : IdSet := IdSet.ofList (bucket.map Candidate.id)

/-- The boundaries from which modules are taken. -/
def users (bucket : Bucket) : IdSet := IdSet.ofList (bucket.flatMap fun c => c.users.toList)

/-- The modules that are taken from a boundary. -/
def takenFrom (bucket : Bucket) (boundary : Nat) : List ModuleId :=
  (bucket.filter fun c => c.users.contains boundary).map Candidate.id

def size (g : ModuleGraph) (bucket : Bucket) : Nat := g.sizeOf (bucket.map Candidate.id)

end Bucket

namespace Draft

/-- Gives each boundary that has to load something a base chunk. -/
def baseChunks : List (Boundary × IdSet) → List DraftChunk → List Boundary × List DraftChunk
  | [], chunks => ([], chunks)
  | (b, modules) :: rest, chunks =>
    if modules.isEmpty then
      let (boundaries, chunks) := baseChunks rest chunks
      (b :: boundaries, chunks)
    else
      let origin : ChunkOrigin := if b.initial then .entry b.name else .async b.root
      let (boundaries, done) := baseChunks rest (chunks ++ [{ name := b.name, origin, modules }])
      ({ b with base := some chunks.length } :: boundaries, done)

/-- The draft before any extraction. -/
def ofGraph (g : ModuleGraph) : Draft :=
  let boundaries := Boundary.ofGraph g
  let (boundaries, chunks) := baseChunks (boundaries.zip (Boundary.members g boundaries)) []
  { boundaries, chunks, names := boundaries.map (·.name) }

def boundary? (d : Draft) (b : Nat) : Option Boundary := d.boundaries[b]?

def modulesOf (d : Draft) (chunk : Nat) : IdSet := (d.chunks[chunk]?.map DraftChunk.modules).getD ∅

def baseOf (d : Draft) (b : Nat) : Option Nat := d.boundaries[b]?.bind Boundary.base

/-- The chunk among the base chunks of some boundaries that has just the given modules. -/
def reusable? (d : Draft) (users modules : IdSet) : Option Nat :=
  (users.toList.filterMap d.baseOf).find? fun base => d.modulesOf base = modules

/-- The chunk with a name that an extraction made. -/
def extracted? (d : Draft) (name : String) : Option Nat :=
  d.chunks.findIdx? fun c => c.name == name && match c.origin with
    | .split _ => true
    | _ => false

/-- The wanted name of a new chunk: that of the policy, or the policy's key and the names of the
boundaries. -/
def wantedName (p : Policy) (d : Draft) (users : IdSet) : String :=
  p.name.getD (p.key ++ "~" ++ String.intercalate "~"
    (users.toList.filterMap fun b => d.boundaries[b]?.map (·.name)))

def addChunk (d : Draft) (p : Policy) (users : IdSet) : Draft × Nat :=
  let name := Boundary.freshName d.names (wantedName p d users)
  ({ d with chunks := d.chunks ++ [{ name, origin := .split p.key, modules := ∅ }]
            names := d.names ++ [name] }, d.chunks.length)

/-- The chunk that takes modules: a base chunk that has just these, or the chunk of the policy's name, or a
new one. -/
def target (d : Draft) (p : Policy) (users modules : IdSet) : Draft × Nat :=
  match if p.reuse then d.reusable? users modules else none with
  | some base => (d, base)
  | none =>
    match p.name.bind d.extracted? with
    | some chunk => (d, chunk)
    | none => d.addChunk p users

def basesOf (d : Draft) (users : IdSet) : IdSet :=
  IdSet.ofList (d.boundaries.zipIdx.filterMap fun (boundary, b) =>
    if users.contains b then boundary.base else none)

/-- The modules of a bucket, each with the base chunks of its users. -/
def homesOf (d : Draft) (bucket : Bucket) : List (ModuleId × IdSet) :=
  bucket.map fun c => (c.id, d.basesOf c.users)

/-- The modules that are taken from a chunk: those of the boundaries whose base it is. -/
def takenFromChunk (homes : List (ModuleId × IdSet)) (chunk : Nat) : IdSet :=
  IdSet.ofList ((homes.filter fun home => home.2.contains chunk).map (·.1))

def moveModules (d : Draft) (bucket : Bucket) (target : Nat) : Draft :=
  let homes := d.homesOf bucket
  { d with chunks := d.chunks.mapIdx fun chunk c =>
      if chunk = target then { c with modules := c.modules.union bucket.modules }
      else { c with modules := c.modules.diff (takenFromChunk homes chunk) } }

/-- Makes the base chunk of a boundary one that is loaded like others: it needs what its boundary loads. -/
def releaseBase (d : Draft) (target : Nat) : Draft :=
  match d.boundaries.find? fun b => b.base == some target with
  | none => d
  | some owner =>
    { d with
      chunks := d.chunks.modify target fun c => { c with dependencies := owner.loads }
      boundaries := d.boundaries.map fun b =>
        if b.base = some target then { b with base := none, loads := b.loads ++ [target] } else b }

/-- Adds a chunk behind its dependencies to what is loaded. A dependency lies no deeper than there are
chunks. -/
def addLoad (chunks : List DraftChunk) (base : Option Nat) :
    (depth : Nat) → (loads : List Nat) → Nat → List Nat
  | 0, loads, _ => loads
  | depth + 1, loads, chunk =>
    if loads.contains chunk || base == some chunk then loads
    else
      let dependencies := (chunks[chunk]?.map DraftChunk.dependencies).getD []
      dependencies.foldl (addLoad chunks base depth) loads ++ [chunk]

def load (d : Draft) (users : IdSet) (target : Nat) : Draft :=
  { d with boundaries := d.boundaries.mapIdx fun b boundary =>
      if users.contains b then
        { boundary with loads := addLoad d.chunks boundary.base d.chunks.length boundary.loads target }
      else boundary }

/-- Drops the base chunks of boundaries that have lost all their modules. -/
def dropEmptyBases (d : Draft) (users : IdSet) : Draft :=
  { d with boundaries := d.boundaries.mapIdx fun b boundary =>
      if users.contains b && boundary.base.any fun base => (d.modulesOf base).isEmpty then
        { boundary with base := none }
      else boundary }

/-- Extracts modules: moves them into one chunk, and lets the boundaries from which they were taken load
it. -/
def extract (d : Draft) (p : Policy) (bucket : Bucket) : Draft :=
  let users := bucket.users
  let (d, target) := d.target p users bucket.modules
  let d := (d.moveModules bucket target).releaseBase target
  let d := (d.load users target).dropEmptyBases users
  { d with claimed := d.claimed.union bucket.modules }

end Draft

end WebBundle

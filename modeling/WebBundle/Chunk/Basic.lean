import WebBundle.Graph.Module
import WebBundle.IdSet

namespace WebBundle

/-- The place of a chunk in its graph. -/
abbrev ChunkId := Nat

/-- Why a chunk exists. -/
inductive ChunkOrigin where
  /-- It holds what an entry needs. -/
  | entry (name : String)
  /-- It holds what the target of a dynamic import needs. -/
  | async (root : ModuleId)
  /-- A splitting policy took its modules out of other chunks. -/
  | split (policy : String)
  deriving DecidableEq, Repr

/-- A set of modules that are loaded together. -/
structure Chunk where
  name : String
  /-- Whether some entry loads the chunk at once. -/
  initial : Bool
  origin : ChunkOrigin
  modules : IdSet
  size : Nat
  /-- The chunks that are loaded before this one. -/
  dependencies : List ChunkId
  deriving DecidableEq

/-- Whether a chunk holds what an entry needs. -/
def Chunk.isEntry (c : Chunk) : Bool :=
  match c.origin with
  | .entry _ => true
  | _ => false

/-- What a boundary loads, in order. -/
structure ChunkGroup where
  name : String
  root : ModuleId
  initial : Bool
  chunks : List ChunkId
  deriving DecidableEq, Repr

/-- The chunks of a build. -/
structure ChunkGraph where
  chunks : List Chunk := []
  /-- What the entries load. -/
  entrypoints : List ChunkGroup := []
  /-- What the targets of dynamic imports load. -/
  asyncGroups : List ChunkGroup := []
  /-- All chunks, each behind those that it depends on. -/
  loadOrder : List ChunkId := []

namespace ChunkGraph

def nameOf (g : ChunkGraph) (id : ChunkId) : String := (g.chunks[id]?.map Chunk.name).getD ""

def namesOf (g : ChunkGraph) (ids : List ChunkId) : List String := ids.map g.nameOf

def byName (g : ChunkGraph) (name : String) : Option ChunkId :=
  g.chunks.findIdx? fun c => c.name == name

def holding (g : ChunkGraph) (id : ModuleId) : List ChunkId :=
  (List.range g.chunks.length).filter fun chunk =>
    g.chunks[chunk]?.any fun c => c.modules.contains id

/-- What an entry loads. -/
def entrypoint (g : ChunkGraph) (name : String) : Option ChunkGroup :=
  g.entrypoints.find? fun group => group.name == name

/-- What the target of a dynamic import loads. -/
def asyncGroup (g : ChunkGraph) (root : ModuleId) : Option ChunkGroup :=
  g.asyncGroups.find? fun group => group.root == root

end ChunkGraph

end WebBundle

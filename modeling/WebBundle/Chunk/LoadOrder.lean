import WebBundle.Build.Error
import WebBundle.Chunk.Basic
import WebBundle.Graph.Digraph

namespace WebBundle.Chunk

/-- The graph that leads from each chunk to those that depend on it. -/
def dependents (chunks : List Chunk) : Digraph where
  size := chunks.length
  next id := chunks.zipIdx.filterMap fun (c, other) =>
    if c.dependencies.contains id then some other else none

/-- The first chunk of an order that comes before one of its dependencies. -/
def misplaced? (chunks : List Chunk) : (before : List ChunkId) → List ChunkId → Option ChunkId
  | _, [] => none
  | before, id :: rest =>
    if chunks[id]?.all fun c => c.dependencies.all before.contains then
      misplaced? chunks (id :: before) rest
    else some id

/-- The chunks that wait for a chunk while it waits for them. -/
def waitingWith (chunks : List Chunk) (id : ChunkId) : List ChunkId :=
  let g := dependents chunks
  (List.range chunks.length).filter fun other =>
    (g.reach id).contains other && (g.reach other).contains id

/-- All chunks, each behind those that it depends on: a depth-first walk toward the dependents leaves a
chunk before those that it depends on. -/
def loadOrder (chunks : List Chunk) : Except BuildError (List ChunkId) :=
  let order := ((dependents chunks).walk (List.range chunks.length)).left
  match misplaced? chunks [] order with
  | none => .ok order
  | some id =>
    .error (.chunkCycle ((waitingWith chunks id).filterMap fun other => chunks[other]?.map Chunk.name))

end WebBundle.Chunk

import WebBundle.Json.Printer
import WebBundle.SortedMap

namespace WebBundle

/-- What the manifest says of a chunk. -/
structure ManifestChunk where
  id : Nat
  /-- Whether some entry loads the chunk at once. -/
  initial : Bool
  files : List String
  /-- The keys of its modules. -/
  modules : List String
  /-- The names of the chunks that are loaded before it. -/
  dependencies : List String
  size : Nat
  deriving DecidableEq, Repr

/-- What the manifest says of an asset: its file, unless it is inlined. -/
structure ManifestAsset where
  file : Option String
  size : Nat
  deriving DecidableEq, Repr

/-- The manifest of a build. -/
structure Manifest where
  /-- The files of each entry in load order. -/
  entrypoints : SortedMap (List String) := ∅
  chunks : SortedMap ManifestChunk := ∅
  /-- The names of the chunks that hold each module. -/
  modules : SortedMap (List String) := ∅
  /-- The files of each dynamic import in load order, by the key of its target. -/
  asyncChunks : SortedMap (List String) := ∅
  assets : SortedMap ManifestAsset := ∅

namespace Manifest

def texts (values : List String) : Json := .array (values.map Json.string)

def number (n : Nat) : Json := .integer n

def chunkJson (c : ManifestChunk) : Json := .object [
  ("id", number c.id),
  ("kind", .string (if c.initial then "initial" else "async")),
  ("files", texts c.files),
  ("modules", texts c.modules),
  ("dependencies", texts c.dependencies),
  ("size", number c.size)]

def assetJson (a : ManifestAsset) : Json := .object (
  (a.file.map fun file => ("file", Json.string file)).toList ++
    [("inline", .bool a.file.isNone), ("size", number a.size)])

/-- An object with a field for each entry of a map. -/
def mapJson {α : Type} (f : α → Json) (m : SortedMap α) : Json := .object (m.map fun _ => f).entries

def toJson (m : Manifest) : Json := .object [
  ("entrypoints", mapJson texts m.entrypoints),
  ("chunks", mapJson chunkJson m.chunks),
  ("modules", mapJson texts m.modules),
  ("asyncChunks", mapJson texts m.asyncChunks),
  ("assets", mapJson assetJson m.assets)]

def text (m : Manifest) : String := m.toJson.pretty ++ "\n"

def filesFor (m : Manifest) (entry : String) : List String := (m.entrypoints.get? entry).getD []

def addHome (modules : SortedMap (List String)) (key chunk : String) : SortedMap (List String) :=
  modules.insert key ((modules.get? key).getD [] ++ [chunk])

end Manifest

end WebBundle

import WebBundle.SortedMap
import WebBundle.Store.FileSystem

/-!
Files in memory, by path. Directories are implicit: one exists as long as a file lies below it.
-/

namespace WebBundle

/-- Files by their normal paths. -/
structure MemoryStore where
  files : SortedMap ByteArray := ∅

namespace MemoryStore

/-- The key of a path: separators forward, none at the end. -/
def keyOf (p : Path) : String :=
  let text := p.slashed.toList
  match (text.reverse.dropWhile (· == '/')).reverse with
  | [] => if text.head? == some '/' then "/" else ""
  | trimmed => String.ofList trimmed

/-- What the keys of the files below a directory begin with. -/
def prefixOf (key : String) : String :=
  if key.toList.getLast? == some '/' then key else key ++ "/"

def hasPrefix (key start : String) : Bool := start.toList.isPrefixOf key.toList

/-- What follows the start of a key. -/
def behind (key start : String) : List Char := key.toList.drop start.toList.length

/-- The files below a directory. Keys with one start stand together in ascending order, so the scan begins
at the first key that is not smaller and ends at the first without that start. -/
def below (store : MemoryStore) (start : String) : List (String × ByteArray) :=
  (store.files.entries.dropWhile fun e => decide (e.1 < start)).takeWhile fun e =>
    hasPrefix e.1 start

def paths (store : MemoryStore) : List String := store.files.keys

def read (store : MemoryStore) (p : Path) : Except StoreError ByteArray :=
  match store.files.get? (keyOf p) with
  | some content => .ok content
  | none => .error (.notFound (keyOf p))

def write (store : MemoryStore) (p : Path) (content : ByteArray) : MemoryStore :=
  ⟨store.files.insert (keyOf p) content⟩

def isFile (store : MemoryStore) (p : Path) : Bool := store.files.contains (keyOf p)

def isDir (store : MemoryStore) (p : Path) : Bool := !(store.below (prefixOf (keyOf p))).isEmpty

def doesExist (store : MemoryStore) (p : Path) : Bool := store.isFile p || store.isDir p

/-- The direct child of a directory under which a key lies. -/
def childOf (start key : String) : String :=
  start ++ String.ofList ((behind key start).takeWhile (· != '/'))

/-- The direct children of a directory, in ascending order. -/
def list (store : MemoryStore) (p : Path) : Except StoreError (List Path) :=
  let key := keyOf p
  let start := prefixOf key
  match store.below start with
  | [] =>
    if store.files.contains key then .error (.notADirectory key) else .error (.notFound key)
  | inside =>
    .ok ((SortedMap.ofList (inside.map fun e => (childOf start e.1, ()))).keys.map Path.mk)

def remove (store : MemoryStore) (p : Path) : Except StoreError MemoryStore :=
  let key := keyOf p
  if store.files.contains key then .ok ⟨store.files.erase key⟩ else .error (.notFound key)

def removeDir (store : MemoryStore) (p : Path) : MemoryStore :=
  let start := prefixOf (keyOf p)
  ⟨store.files.filter fun key _ => !hasPrefix key start⟩

def moveFile (files : SortedMap ByteArray) (source target : String) : SortedMap ByteArray :=
  match files.get? source with
  | none => files
  | some content => (files.erase source).insert target content

/-- Moves a file, or all files below a directory one by one. -/
def rename (store : MemoryStore) (source target : Path) : Except StoreError MemoryStore :=
  let source := keyOf source
  let target := keyOf target
  if store.files.contains source then .ok ⟨moveFile store.files source target⟩
  else
    let start := prefixOf source
    match store.below start with
    | [] => .error (.notFound source)
    | inside =>
      .ok ⟨inside.foldl (fun files e =>
        moveFile files e.1 (prefixOf target ++ String.ofList (behind e.1 start))) store.files⟩

/-- The store of some files; of files with one normal path the last counts. -/
def ofFiles (files : List (Path × ByteArray)) : MemoryStore :=
  files.foldl (fun store file => store.write file.1 file.2) {}

end MemoryStore

end WebBundle

import WebBundle.Store.Memory

namespace WebBundle

/-- A store and the path endings whose files cannot be read or written. -/
structure FaultyStore where
  store : MemoryStore := {}
  failReads : List Path := []
  failWrites : List Path := []

namespace FaultyStore

def read (s : FaultyStore) (p : Path) : Except StoreError ByteArray :=
  if s.failReads.any p.endsWith then .error (.medium "bad sector") else s.store.read p

def view (s : FaultyStore) : FileView Id where
  read := s.read
  isFile := s.store.isFile
  isDir := s.store.isDir

/-- Puts a changed store in the place of the old one. -/
def update (s : FaultyStore) : Except StoreError MemoryStore → Except StoreError Unit × FaultyStore
  | .ok store => (.ok (), { s with store })
  | .error e => (.error e, s)

def write (s : FaultyStore) (p : Path) (content : ByteArray) :
    Except StoreError Unit × FaultyStore :=
  if s.failWrites.any p.endsWith then (.error (.medium "disk full"), s)
  else s.update (.ok (s.store.write p content))

/-- The operations, on the store as a state. -/
def fileSystem : FileSystem (StateM FaultyStore) where
  read p := fun s => (s.read p, s)
  isFile p := fun s => (s.store.isFile p, s)
  isDir p := fun s => (s.store.isDir p, s)
  write p content := fun s => s.write p content
  list p := fun s => (s.store.list p, s)
  remove p := fun s => s.update (s.store.remove p)
  removeDir p := fun s => s.update (.ok (s.store.removeDir p))
  rename source target := fun s => s.update (s.store.rename source target)

end FaultyStore

end WebBundle

import WebBundle.CommandLine.Execution

namespace WebBundle.Machine

def place (p : Path) := (IO.FS.DirEntry.mk p.text "").root

def failureOf (p : Path) : IO.Error → StoreError
  | .noFileOrDirectory .. => .notFound p.text
  | .permissionDenied .. => .permissionDenied p.text
  | e => .system p.text (toString e)

def attempt {α : Type} (p : Path) (action : IO α) : IO (Except StoreError α) := do
  match ← action.toBaseIO with
  | .ok a => return .ok a
  | .error e => return .error (failureOf p e)

def isFile (p : Path) : IO Bool := do
  match ← (place p).metadata.toBaseIO with
  | .ok data => return data.type == .file
  | .error _ => return false

def makeParents (p : Path) : IO (Except StoreError Unit) :=
  match p.parent with
  | none => return .ok ()
  | some parent =>
    if parent.text.isEmpty then return .ok () else attempt parent (IO.FS.createDirAll parent.text)

/-- Does something behind the directories above a path. -/
def behindParents (p : Path) (action : IO (Except StoreError Unit)) : IO (Except StoreError Unit) := do
  match ← makeParents p with
  | .ok () => action
  | .error e => return .error e

def children (p : Path) : IO (List Path) := do
  let entries ← (place p).readDir
  let names := entries.toList.map fun entry => p.join ⟨entry.fileName⟩
  return names.mergeSort fun a b => a.text ≤ b.text

def fileSystem : FileSystem IO where
  read p := attempt p (IO.FS.readBinFile p.text)
  isFile p := isFile p
  isDir p := (place p).isDir
  write p content := behindParents p (attempt p (IO.FS.writeBinFile p.text content))
  list p := do
    if ← isFile p then return .error (.notADirectory p.text) else attempt p (children p)
  remove p := attempt p (IO.FS.removeFile p.text)
  removeDir p := do
    match ← attempt p (IO.FS.removeDirAll p.text) with
    | .error (.notFound _) => return .ok ()
    | result => return result
  rename source target := behindParents target (attempt source (IO.FS.rename source.text target.text))

end WebBundle.Machine

def main (arguments : List String) : IO UInt32 := do
  let cwd ← IO.currentDir
  let reply ← WebBundle.CommandLine.execute WebBundle.Machine.fileSystem ⟨cwd.toString⟩ arguments
  (← IO.getStdout).putStr reply.stdout
  (← IO.getStderr).putStr reply.stderr
  return reply.exit.toUInt32

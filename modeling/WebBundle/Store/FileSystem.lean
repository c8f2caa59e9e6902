import WebBundle.Path

/-!
What a build asks of a file system. The operations live in a monad of the file system's own: reading a
stored map needs no effect, writing to it changes a state, and a disk needs input and output.
-/

namespace WebBundle

/-- Why an operation on files failed. -/
inductive StoreError where
  | notFound (path : String)
  | permissionDenied (path : String)
  | notADirectory (path : String)
  /-- Any other failure of the system, in its own words. -/
  | system (path reason : String)
  /-- A failure of the medium. -/
  | medium (reason : String)
  deriving DecidableEq, Repr

def StoreError.message : StoreError → String
  | .notFound path => "Path not found: " ++ path
  | .permissionDenied path => "Permission denied: " ++ path
  | .notADirectory path => "Not a directory: " ++ path
  | .system path reason => "IO error on '" ++ path ++ "': " ++ reason
  | .medium reason => reason

/-- The operations that look at files. -/
structure FileView (m : Type → Type) where
  read : Path → m (Except StoreError ByteArray)
  isFile : Path → m Bool
  isDir : Path → m Bool

/-- The operations on files. -/
structure FileSystem (m : Type → Type) extends FileView m where
  /-- Writes a file, with the directories above it. -/
  write : Path → ByteArray → m (Except StoreError Unit)
  /-- The direct children of a directory, in ascending order. -/
  list : Path → m (Except StoreError (List Path))
  remove : Path → m (Except StoreError Unit)
  /-- Removes a directory and all below it. A missing one is no error. -/
  removeDir : Path → m (Except StoreError Unit)
  /-- Moves a file or directory, with the directories above its new place. -/
  rename : Path → Path → m (Except StoreError Unit)

end WebBundle

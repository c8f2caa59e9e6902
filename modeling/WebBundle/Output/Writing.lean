import WebBundle.Output.Files
import WebBundle.Store.FileSystem

/-!
Writing of output. All files are first written to a directory beside the output directory, which is left
alone until every write has succeeded.
-/

namespace WebBundle.Output

variable {m : Type → Type} [Monad m]

/-- The directory beside an output directory in which files are prepared. -/
def stagingDir (dir : Path) : Path :=
  let name := (dir.fileName.map String.ofList).getD "output"
  dir.withFileName ("." ++ name ++ ".staging")

/-- Writes files into a directory until one write fails. -/
def writeAll (fs : FileSystem m) (dir : Path) :
    List (String × ByteArray) → m (Except StoreError Unit)
  | [] => return .ok ()
  | (name, content) :: rest => do
    match ← fs.write (dir.join ⟨name⟩) content with
    | .error e => return .error e
    | .ok () => writeAll fs dir rest

/-- Moves files from one directory to another until one move fails. -/
def moveAll (fs : FileSystem m) (source target : Path) : List String → m (Except StoreError Unit)
  | [] => return .ok ()
  | name :: rest => do
    match ← fs.rename (source.join ⟨name⟩) (target.join ⟨name⟩) with
    | .error e => return .error e
    | .ok () => moveAll fs source target rest

/-- Puts the prepared files in the place of the output directory. -/
def replaceDir (fs : FileSystem m) (staging dir : Path) (files : OutputFiles) :
    m (Except StoreError Unit) := do
  match ← fs.removeDir dir with
  | .error e => return .error e
  | .ok () => if files.isEmpty then return .ok () else fs.rename staging dir

/-- Moves the prepared files into the output directory. -/
def mergeDir (fs : FileSystem m) (staging dir : Path) (files : OutputFiles) :
    m (Except StoreError Unit) := do
  match ← moveAll fs staging dir files.keys with
  | .error e => return .error e
  | .ok () => fs.removeDir staging

/-- Writes files into an output directory, whose earlier content is removed if it is to be cleaned. -/
def write (fs : FileSystem m) (dir : Path) (clean : Bool) (files : OutputFiles) :
    m (Except StoreError Unit) := do
  let staging := stagingDir dir
  match ← fs.removeDir staging with
  | .error e => return .error e
  | .ok () =>
    match ← writeAll fs staging files.entries with
    | .error e =>
      let _ ← fs.removeDir staging
      return .error e
    | .ok () => if clean then replaceDir fs staging dir files else mergeDir fs staging dir files

end WebBundle.Output

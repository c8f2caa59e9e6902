import WebBundle.Json.Reader
import WebBundle.Resolution.Basic
import WebBundle.Store.FileSystem
import WebBundle.Text.Utf8

namespace WebBundle.Resolver

variable {m : Type → Type} [Monad m]

/-- The result of some probes: the file that was found, or the paths that are none. -/
inductive Probed where
  | found (path : Path)
  | missed (tried : List Path)

def probe (view : FileView m) : (tried : List Path) → List Path → m Probed
  | tried, [] => pure (.missed tried)
  | tried, path :: rest => do
    if ← view.isFile path then return .found path
    else probe view (tried ++ [path]) rest

/-- A path, and the path with each extension. -/
def fileProbes (r : Resolver) (base : Path) : List Path :=
  base :: r.extensions.map fun e => ⟨base.text ++ e⟩

def indexProbes (r : Resolver) (dir : Path) : List Path :=
  r.extensions.map fun e => dir.join ⟨"index" ++ e⟩

/-- The main files that a package description names. -/
def mainFiles (r : Resolver) (description : Json) : List String :=
  r.mainFields.filterMap fun field => (description.get? field).bind Json.string?

/-- The description of the package in a directory, if there is one. -/
def description (view : FileView m) (dir : Path) : m (Except ResolutionError (Option Json)) := do
  let path := dir.join ⟨"package.json"⟩
  if ← view.isFile path then
    match ← view.read path with
    | .error e => return .error (.invalidPackage ⟨path, some e⟩)
    | .ok bytes =>
      match (Text.text? bytes).bind Json.parse? with
      | some value => return .ok (some value)
      | none => return .error (.invalidPackage ⟨path, none⟩)
  else return .ok none

/-- The probes behind a directory: the main files of its package, each as a file and as a directory, and its
own index files. -/
def directoryProbes (r : Resolver) (view : FileView m) (dir : Path) :
    m (Except ResolutionError (List Path)) := do
  match ← description view dir with
  | .error e => return .error e
  | .ok none => return .ok (r.indexProbes dir)
  | .ok (some value) =>
    let mains := (r.mainFiles value).flatMap fun main =>
      let target := (dir.join ⟨main⟩).normalize
      r.fileProbes target ++ r.indexProbes target
    return .ok (mains ++ r.indexProbes dir)

/-- Looks a path up as a file, and then as a directory. -/
def lookupPath (r : Resolver) (view : FileView m) (tried : List Path) (base : Path) :
    m (Except ResolutionError Probed) := do
  match ← probe view tried (r.fileProbes base) with
  | .found path => return .ok (.found path)
  | .missed tried =>
    if ← view.isDir base then
      match ← r.directoryProbes view base with
      | .error e => return .error e
      | .ok probes => return .ok (← probe view tried probes)
    else return .ok (.missed tried)

def lookupPaths (r : Resolver) (view : FileView m) :
    (tried : List Path) → List Path → m (Except ResolutionError Probed)
  | tried, [] => return .ok (.missed tried)
  | tried, base :: rest => do
    match ← r.lookupPath view tried base with
    | .ok (.missed tried) => lookupPaths r view tried rest
    | result => return result

/-- What a specifier stands for in a directory. -/
def resolve (r : Resolver) (view : FileView m) (specifier : String) (directory : Path) :
    m (Except ResolutionError Resolution) := do
  match r.externals.get? specifier with
  | some global => return .ok (.external global)
  | none =>
    if r.ignore.any (·.holds specifier directory) then return .ok .ignored
    else
      let (request, query) := splitQuery specifier
      match ← r.lookupPaths view [] (r.candidates (r.applyAlias request) directory) with
      | .error e => return .error e
      | .ok (.found path) => return .ok (.file path query)
      | .ok (.missed tried) => return .error (.notFound specifier tried)

end WebBundle.Resolver

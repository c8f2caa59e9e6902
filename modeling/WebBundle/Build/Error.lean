import WebBundle.Config.Error
import WebBundle.Resolution.Basic
import WebBundle.Store.FileSystem
import WebBundle.Transform.Chain

namespace WebBundle

/-- Why a build stopped. -/
inductive BuildError where
  | config (error : ConfigError)
  /-- A specifier that leads to no file, who imports it, and the paths that were tried. -/
  | unresolved (importer specifier : String) (tried : List Path)
  | invalidPackage (package : InvalidPackage)
  | transform (path : Path) (stage : String) (error : TransformError)
  | unknownType (path : Path)
  /-- Chunks that wait for each other. -/
  | chunkCycle (chunks : List String)
  /-- Two outputs of one name. -/
  | outputConflict (file : String)
  | store (error : StoreError)
  | cancelled
  /-- A discovery gave up. -/
  | tooManyModules
  deriving DecidableEq, Repr

namespace BuildError

def message : BuildError → String
  | .config error => "configuration error: " ++ error.message
  | .unresolved importer specifier _ =>
    "cannot resolve '" ++ specifier ++ "' imported from " ++ importer
  | .invalidPackage package => package.message
  | .transform path stage error =>
    "transform '" ++ stage ++ "' failed on " ++ path.text ++ ": " ++ error.message
  | .unknownType path =>
    "unresolvable module type for " ++ path.text ++
      ": no rule matches and the file type is unknown"
  | .chunkCycle chunks =>
    "chunk dependency graph contains a cycle: " ++ String.intercalate " -> " chunks
  | .outputConflict file => "output file '" ++ file ++ "' would be written twice with different content"
  | .store error => "file system error: " ++ error.message
  | .cancelled => "build cancelled after an earlier failure"
  | .tooManyModules => "too many modules"

/-- The error of an importer whose specifier cannot be resolved. -/
def ofResolution (importer specifier : String) : ResolutionError → BuildError
  | .notFound _ tried => .unresolved importer specifier tried
  | .invalidPackage package => .invalidPackage package

/-- The error of a chain that ran on a file. -/
def ofChain (path : Path) : ChainError → BuildError
  | .cancelled => .cancelled
  | .stage name error => .transform path name error

end BuildError

/-- What a build warns of. -/
inductive Warning where
  /-- Modules that import each other. -/
  | importCycle (modules : List String)
  /-- A configuration key that no option claims. -/
  | unknownOption (path : String)
  /-- An optional stage that failed. -/
  | skipped (key : String) (stage : Skipped)
  deriving DecidableEq, Repr

def Warning.message : Warning → String
  | .importCycle modules => "import cycle: " ++ String.intercalate " -> " modules
  | .unknownOption path => "unrecognised configuration option '" ++ path ++ "' ignored"
  | .skipped key stage =>
    "optional transform '" ++ stage.stage ++ "' skipped for " ++ key ++ ": " ++ stage.message

end WebBundle

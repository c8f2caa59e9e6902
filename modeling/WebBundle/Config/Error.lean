import WebBundle.Path

namespace WebBundle

/-- Why a configuration was refused. -/
inductive ConfigError where
  | noEntry
  | emptyEntry (name : String)
  /-- A limit that must be positive. -/
  | zeroLimit (option : String)
  | invalidPattern (option : String)
  | unknownTransform (id option : String)
  | duplicateCacheGroup (key : String)
  /-- The output directory holds something that must not be removed with it. -/
  | outputOverSources (output source : Path)
  /-- A template of file names that cannot tell files apart. -/
  | ambiguousTemplate (option template expected : String)
  deriving DecidableEq, Repr

def ConfigError.message : ConfigError → String
  | .noEntry => "no entry points configured"
  | .emptyEntry name => "entry '" ++ name ++ "' has an empty path"
  | .zeroLimit option => option ++ " must be greater than zero"
  | .invalidPattern option => "invalid pattern in " ++ option
  | .unknownTransform id option => "unknown transform '" ++ id ++ "' in " ++ option
  | .duplicateCacheGroup key => "duplicate cache group key '" ++ key ++ "'"
  | .outputOverSources output source =>
    "output directory " ++ output.text ++ " would be cleaned over project sources at " ++ source.text
  | .ambiguousTemplate option template expected =>
    option ++ " template '" ++ template ++ "' must contain one of " ++ expected

end WebBundle

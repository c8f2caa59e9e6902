import WebBundle.Config.Options
import WebBundle.Pattern.Option
import WebBundle.Store.FileSystem

namespace WebBundle

/-- What a specifier stands for. -/
inductive Resolution where
  | file (path : Path) (query : Option String)
  /-- Provided at run time by a global. -/
  | external (global : String)
  /-- Left out and replaced by an empty module. -/
  | ignored
  deriving DecidableEq, Repr

/-- A package description that cannot be read, or is no JSON document if there is no fault. -/
structure InvalidPackage where
  path : Path
  fault : Option StoreError := none
  deriving DecidableEq, Repr

def InvalidPackage.message (package : InvalidPackage) : String :=
  "invalid package.json at " ++ package.path.text ++
    package.fault.elim "" fun fault => ": " ++ fault.message

/-- Why a specifier leads nowhere. -/
inductive ResolutionError where
  /-- None of the paths that were tried is a file. -/
  | notFound (specifier : String) (tried : List Path)
  | invalidPackage (package : InvalidPackage)
  deriving DecidableEq, Repr

def ResolutionError.message : ResolutionError → String
  | .notFound specifier tried =>
    "cannot resolve '" ++ specifier ++ "' (" ++ toString tried.length ++ " candidates tried)"
  | .invalidPackage package => package.message

/-- Another name for the start of a request. -/
structure Alias where
  key : String
  /-- Whether the key stands for its one request only. -/
  exact : Bool
  target : String
  deriving DecidableEq, Repr

/-- Leaves out the specifiers that match, in directories that match. -/
structure Ignore where
  resource : Pattern
  context : Option Pattern

/-- The rules by which specifiers are resolved. -/
structure Resolver where
  context : Path
  /-- Aliases in the order in which they are tried. -/
  aliases : List Alias
  extensions : List String
  modulePaths : List Path
  mainFields : List String
  ignore : List Ignore
  externals : SortedMap String

namespace Alias

/-- Longer keys come first, and of equally long ones the smaller. -/
def precedes (a b : Alias) : Bool :=
  b.key.utf8ByteSize < a.key.utf8ByteSize ||
    (a.key.utf8ByteSize == b.key.utf8ByteSize && a.key ≤ b.key)

/-- The alias that a key and its target write. A target that starts with a dot lies in the project. -/
def ofOption (context : Path) (key : String) (target : Path) : Alias :=
  let written := target.slashed
  let target :=
    if written.toList.head? == some '.' then (context.join ⟨written⟩).normalize.slashed else written
  match key.toList.getLast? with
  | some '$' => ⟨String.ofList key.toList.dropLast, true, target⟩
  | _ => ⟨key, false, target⟩

/-- The request that an alias makes of a request. -/
def requestFor? (a : Alias) (request : List Char) : Option String :=
  let key := a.key.toList
  if request = key then some a.target
  else if a.exact then none
  else if key.isPrefixOf request && (request.drop key.length).head? == some '/' then
    some (a.target ++ String.ofList (request.drop key.length))
  else none

end Alias

namespace Ignore

def ofOption (index : Nat) (o : IgnoreOptions) : Except ConfigError Ignore := do
  let option := "resolve.ignore[" ++ toString index ++ "]."
  let resource ← Pattern.ofOption (option ++ "resource") o.resource
  let context ← o.context.mapM (Pattern.ofOption (option ++ "context"))
  return { resource, context }

def ofOptions : (index : Nat) → List IgnoreOptions → Except ConfigError (List Ignore)
  | _, [] => .ok []
  | index, o :: rest => do return (← ofOption index o) :: (← ofOptions (index + 1) rest)

/-- Whether a specifier is left out in a directory. -/
def holds (i : Ignore) (specifier : String) (directory : Path) : Bool :=
  i.resource.isMatch specifier && i.context.all (·.matchesPath directory)

end Ignore

namespace Resolver

/-- Extensions with `...` written out, each once. -/
def expandExtensions (extensions : List String) : List String :=
  (extensions.flatMap fun e => if e = "..." then ResolveOptions.usualExtensions else [e]).eraseDups

/-- A directory of packages. One that starts at `.` lies in the project; other relative ones are sought
upward from the importer. -/
def settleModulePath (context dir : Path) : Path :=
  if dir.isAbsolute then dir.normalize
  else if dir.startsWith ⟨"."⟩ then (context.join dir).normalize
  else dir

def ofConfig (c : Config) : Except ConfigError Resolver := do
  let context := c.context.normalize
  let ignore ← Ignore.ofOptions 0 c.resolve.ignore
  return {
    context
    aliases := (c.resolve.aliases.entries.map fun (key, target) =>
      Alias.ofOption context key target).mergeSort Alias.precedes
    extensions := expandExtensions c.resolve.extensions
    modulePaths := c.resolve.modulePaths.map (settleModulePath context)
    mainFields := c.resolve.mainFields
    ignore
    externals := c.externals }

/-- The request that the first fitting alias makes of a request. -/
def applyAlias (r : Resolver) (request : String) : String :=
  (r.aliases.findSome? fun a => a.requestFor? request.toList).getD request

/-- Whether a request is a path seen from its importer. -/
def isRelative (request : String) : Bool :=
  request == "." || request == ".." || "./".toList.isPrefixOf request.toList ||
    "../".toList.isPrefixOf request.toList

/-- The paths that a request may stand for, in the order in which they are tried. None stands right behind
itself. -/
def candidates (r : Resolver) (request : String) (directory : Path) : List Path :=
  if isRelative request then [(directory.join ⟨request⟩).normalize]
  else if (Path.mk request).isAbsolute then [(Path.mk request).normalize]
  else
    (r.modulePaths.flatMap fun dir =>
      if dir.isAbsolute then [(dir.join ⟨request⟩).normalize]
      else directory.ancestors.map fun above => ((above.join dir).join ⟨request⟩).normalize).eraseReps

/-- A specifier before and behind its first question mark. -/
def splitQuery (specifier : String) : String × Option String :=
  let request := specifier.toList.takeWhile (· != '?')
  match specifier.toList.drop request.length with
  | [] => (specifier, none)
  | _ :: query => (String.ofList request, some (String.ofList query))

end Resolver

end WebBundle

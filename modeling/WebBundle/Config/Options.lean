import WebBundle.Json.Value
import WebBundle.Path
import WebBundle.SortedMap

/-!
The options of a build, their defaults, and what follows from them. Every group of options keeps the keys
that no option claimed, so that they can be reported.
-/

namespace WebBundle

/-- Keys that no option claimed, with their values. -/
abbrev UnclaimedKeys := SortedMap Json

/-- What a build is for. -/
inductive Mode where
  /-- Fast rebuilds and readable output. -/
  | development
  /-- Small output. -/
  | production
  deriving DecidableEq, Repr

namespace Mode

def name : Mode → String
  | .development => "development"
  | .production => "production"

/-- The template of chunk file names unless one is configured. -/
def filename : Mode → String
  | .development => "[name].bundle.js"
  | .production => "[name].[contenthash:8].js"

/-- Whether output is minimized unless configured. -/
def minimize : Mode → Bool
  | .development => false
  | .production => true

/-- The least size of a split chunk unless one is configured. -/
def minSize : Mode → Nat
  | .development => 10000
  | .production => 20000

end Mode

/-- The entries of a build: one path, or paths by name. -/
inductive EntryOption where
  | single (path : String)
  | named (paths : SortedMap String)

namespace EntryOption

/-- Names and paths, in ascending order of the names. A single path is named `main`. -/
def entries : EntryOption → List (String × String)
  | .single path => [("main", path)]
  | .named paths => paths.entries

end EntryOption

/-- Where output goes and how files are named. -/
structure OutputOptions where
  path : Path := ⟨"dist"⟩
  /-- The template of chunk file names; the mode decides if there is none. -/
  filename : Option String := none
  cssFilename : String := "[name].css"
  assetFilename : String := "[name].[hash:8][ext]"
  publicPath : String := "/"
  /-- Whether earlier output is removed. -/
  clean : Bool := true
  /-- The name of the manifest, if one is written. -/
  manifest : Option String := some "manifest.json"
  unclaimed : UnclaimedKeys := ∅

/-- The declared type of a file. -/
inductive ResourceType where
  | javascript
  | style
  /-- Inlined or emitted, depending on its size. -/
  | asset
  | assetInline
  | assetResource
  | raw
  deriving DecidableEq, Repr

namespace ResourceType

def all : List ResourceType := [.javascript, .style, .asset, .assetInline, .assetResource, .raw]

def name : ResourceType → String
  | .javascript => "javascript"
  | .style => "style"
  | .asset => "asset"
  | .assetInline => "asset/inline"
  | .assetResource => "asset/resource"
  | .raw => "raw"

end ResourceType

/-- The mention of a transform, as a name or with details. -/
inductive TransformRef where
  | plain (id : String)
  | detailed (id : String) (optional : Bool)
  deriving DecidableEq, Repr

namespace TransformRef

def id : TransformRef → String
  | .plain id => id
  | .detailed id _ => id

def optional : TransformRef → Bool
  | .plain _ => false
  | .detailed _ optional => optional

end TransformRef

/-- What happens to the files whose paths match a pattern. -/
structure RuleOptions where
  test : String := ""
  /-- Transforms in declared order; the last one runs first. -/
  transforms : List TransformRef := []
  type : Option ResourceType := none
  /-- The kind under which the size limit of an asset is looked up. -/
  assetKind : Option String := none
  /-- Whether no later rule is tried. -/
  exclusive : Bool := true
  inlineThreshold : Option Nat := none
  unclaimed : UnclaimedKeys := ∅

structure ModuleOptions where
  rules : List RuleOptions := []
  /-- Patterns of paths whose modules are not scanned. -/
  noParse : List String := []
  /-- Whether files of unknown type are copied. -/
  fallbackRawCopy : Bool := false
  unclaimed : UnclaimedKeys := ∅

/-- Excludes specifiers that match a pattern, in directories that match another. -/
structure IgnoreOptions where
  resource : String
  context : Option String := none
  deriving DecidableEq, Repr

structure ResolveOptions where
  /-- Targets by key; a key that ends in `$` stands for its one request only. -/
  aliases : SortedMap Path := ∅
  /-- Extensions in the order in which they are tried; `...` stands for the usual ones. -/
  extensions : List String := ["..."]
  /-- Directories in which packages are sought. -/
  modulePaths : List Path := [⟨"node_modules"⟩]
  /-- The fields of a package description that name its main file. -/
  mainFields : List String := ["browser", "module", "main"]
  ignore : List IgnoreOptions := []
  unclaimed : UnclaimedKeys := ∅

def ResolveOptions.usualExtensions : List String := [".js", ".json", ".wasm"]

/-- The chunks that a splitting policy looks at. -/
inductive ChunkSelection where
  | async
  | initial
  | all
  deriving DecidableEq, Repr

namespace ChunkSelection

def every : List ChunkSelection := [.async, .initial, .all]

def name : ChunkSelection → String
  | .async => "async"
  | .initial => "initial"
  | .all => "all"

end ChunkSelection

/-- A policy that claims matching modules for chunks of their own. -/
structure CacheGroup where
  key : String := ""
  /-- A fixed chunk name. -/
  name : Option String := none
  test : Option String := none
  type : Option ResourceType := none
  chunks : Option ChunkSelection := none
  minChunks : Option Nat := none
  minSize : Option Nat := none
  maxAsyncRequests : Option Nat := none
  maxInitialRequests : Option Nat := none
  priority : Int := 0
  /-- Whether size limits and request budgets do not count. -/
  enforce : Bool := false
  reuseExistingChunk : Bool := false
  unclaimed : UnclaimedKeys := ∅

structure SplitOptions where
  chunks : ChunkSelection := .all
  minSize : Option Nat := none
  minRemainingSize : Option Nat := none
  minChunks : Nat := 2
  maxAsyncRequests : Nat := 30
  maxInitialRequests : Nat := 30
  /-- From this size on request budgets and remaining sizes do not count. -/
  enforceSizeThreshold : Nat := 50000
  defaultVendors : Bool := true
  defaultGroup : Bool := true
  cacheGroups : List CacheGroup := []
  unclaimed : UnclaimedKeys := ∅

namespace SplitOptions

def minSizeFor (o : SplitOptions) (mode : Mode) : Nat := o.minSize.getD mode.minSize

/-- The least size that may remain of a chunk: in production as much as a chunk must have. -/
def minRemainingSizeFor (o : SplitOptions) (mode : Mode) : Nat :=
  o.minRemainingSize.getD (match mode with
    | .development => 0
    | .production => o.minSizeFor mode)

def vendors : CacheGroup :=
  { key := "defaultVendors", test := some "[\\\\/]node_modules[\\\\/]", minChunks := some 1,
    priority := -10, reuseExistingChunk := true }

end SplitOptions

structure OptimizationOptions where
  minimize : Option Bool := none
  splitChunks : SplitOptions := {}
  unclaimed : UnclaimedKeys := ∅

structure AssetOptions where
  /-- Size limits of inlined assets by kind. -/
  inlineThresholds : SortedMap Nat := ∅
  defaultInlineThreshold : Nat := 8192
  /-- How many assets one module may inline. -/
  maxInlinePerModule : Option Nat := none
  unclaimed : UnclaimedKeys := ∅

def AssetOptions.thresholdFor (o : AssetOptions) (kind : String) : Nat :=
  (o.inlineThresholds.get? kind).getD o.defaultInlineThreshold

/-- All options of a build. -/
structure Config where
  mode : Mode := .production
  /-- The directory of the project. -/
  context : Path := ⟨"."⟩
  entry : EntryOption := .single "./src/index.js"
  output : OutputOptions := {}
  module : ModuleOptions := {}
  resolve : ResolveOptions := {}
  /-- Specifiers that a global provides, with its name. -/
  externals : SortedMap String := ∅
  optimization : OptimizationOptions := {}
  asset : AssetOptions := {}
  parallelism : Nat := 0
  cache : Bool := true
  unclaimed : UnclaimedKeys := ∅

namespace Config

def minimize (c : Config) : Bool := c.optimization.minimize.getD c.mode.minimize

def filename (c : Config) : String := c.output.filename.getD c.mode.filename

/-- Where the output goes. -/
def outputDir (c : Config) : Path := (c.context.join c.output.path).normalize

/-- The unclaimed keys of a group of options as dotted paths. -/
def dotted (group : String) (unclaimed : UnclaimedKeys) : List String :=
  unclaimed.keys.map (group ++ ·)

/-- The unclaimed keys of the rules, each under its number. -/
def dottedRules : (index : Nat) → List RuleOptions → List String
  | _, [] => []
  | index, rule :: rest =>
    dotted ("module.rules[" ++ toString index ++ "].") rule.unclaimed ++ dottedRules (index + 1) rest

/-- The dotted paths of all keys that no option claimed. -/
def unclaimedPaths (c : Config) : List String :=
  dotted "" c.unclaimed ++
  dotted "output." c.output.unclaimed ++
  dotted "module." c.module.unclaimed ++
  dottedRules 0 c.module.rules ++
  dotted "resolve." c.resolve.unclaimed ++
  dotted "optimization." c.optimization.unclaimed ++
  dotted "optimization.splitChunks." c.optimization.splitChunks.unclaimed ++
  (c.optimization.splitChunks.cacheGroups.flatMap fun group =>
    dotted ("optimization.splitChunks.cacheGroups." ++ group.key ++ ".") group.unclaimed) ++
  dotted "asset." c.asset.unclaimed

end Config

end WebBundle

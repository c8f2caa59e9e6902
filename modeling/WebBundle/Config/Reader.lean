import WebBundle.Config.Options
import WebBundle.Json.Reader

/-!
Reading of configurations from JSON. A key that names an option may stand once only, also under its second
name; other keys are kept as unclaimed. `null` stands for a missing value only where a value may be
missing.
-/

namespace WebBundle.Config

/-- The fields of an object, in the order and number in which they were written. -/
abbrev Fields := List (String × Json)

def fields? : Json → Option Fields
  | .object fields => some fields
  | _ => none

/-- Reads the option with the given names, or takes its default if no field has one of them. -/
def option {α : Type} (fields : Fields) (names : List String) (read : Json → Option α)
    (default : α) : Option α :=
  match fields.filter fun field => names.contains field.1 with
  | [] => some default
  | [field] => read field.2
  | _ => none

def required {α : Type} (fields : Fields) (names : List String) (read : Json → Option α) : Option α :=
  match fields.filter fun field => names.contains field.1 with
  | [field] => read field.2
  | _ => none

/-- The fields that have none of the given names. -/
def unclaimedOf (fields : Fields) (names : List String) : UnclaimedKeys :=
  SortedMap.ofList ((fields.filter fun field => !names.contains field.1).map fun field =>
    (field.1, field.2.sorted))

def readString : Json → Option String
  | .string text => some text
  | _ => none

def readPath (value : Json) : Option Path := (readString value).map Path.mk

def readBool : Json → Option Bool
  | .bool b => some b
  | _ => none

/-- Reads a number that fits into 64 bits. -/
def readNat : Json → Option Nat
  | .integer n => if 0 ≤ n && n < 18446744073709551616 then some n.toNat else none
  | _ => none

/-- Reads a number that fits into 32 bits with its sign. -/
def readPriority : Json → Option Int
  | .integer n => if -2147483648 ≤ n && n < 2147483648 then some n else none
  | _ => none

def readOptional {α : Type} (read : Json → Option α) : Json → Option (Option α)
  | .null => some none
  | value => (read value).map some

def readItems {α : Type} (read : Json → Option α) : List Json → Option (List α)
  | [] => some []
  | item :: rest =>
    (read item).bind fun value => (readItems read rest).map (value :: ·)

def readList {α : Type} (read : Json → Option α) : Json → Option (List α)
  | .array items => readItems read items
  | _ => none

def readValues {α : Type} (read : Json → Option α) : Fields → Option (List (String × α))
  | [] => some []
  | (key, item) :: rest =>
    (read item).bind fun value => (readValues read rest).map ((key, value) :: ·)

/-- Reads an object as a map; of fields with one key the last counts. -/
def readMap {α : Type} (read : Json → Option α) : Json → Option (SortedMap α)
  | .object fields => (readValues read fields).map SortedMap.ofList
  | _ => none

/-- Reads one of several words, which may also be the only key of an object, with the value `null`. -/
def readWord {α : Type} (values : List α) (name : α → String) : Json → Option α
  | .string text => values.find? fun value => name value == text
  | .object [(text, .null)] => values.find? fun value => name value == text
  | _ => none

def readMode : Json → Option Mode := readWord [.development, .production] Mode.name

def readResourceType : Json → Option ResourceType := readWord ResourceType.all ResourceType.name

def readSelection : Json → Option ChunkSelection := readWord ChunkSelection.every ChunkSelection.name

def readEntry : Json → Option EntryOption
  | .string path => some (.single path)
  | value => (readMap readString value).map .named

def readTransformRef : Json → Option TransformRef
  | .string id => some (.plain id)
  | value => do
    let fields ← fields? value
    let id ← required fields ["id", "loader"] readString
    let optional ← option fields ["optional"] readBool false
    return .detailed id optional

/-- Reads one mention of a transform or a list of them. -/
def readTransforms : Json → Option (List TransformRef)
  | .array items => readItems readTransformRef items
  | value => (readTransformRef value).map ([·])

/-- The names of the options of an ignore rule. -/
def ignoreNames : List String := ["resource", "context"]

def readIgnore : Json → Option IgnoreOptions
  | .array [resource] => (readString resource).map (⟨·, none⟩)
  | .array [resource, context] => do
    return ⟨← readString resource, ← readOptional readString context⟩
  | value => do
    let fields ← fields? value
    return ⟨← required fields ["resource"] readString,
      ← option fields ["context"] (readOptional readString) none⟩

/-- Leaves out the unclaimed keys of ignore rules. They are not kept, so their values need not be readable. -/
def withoutUnread : Json.Written → Json.Written :=
  .mapField "resolve" (.mapField "ignore" (.mapItems (.keepFields ignoreNames)))

def outputNames : List String :=
  ["path", "filename", "cssFilename", "assetFilename", "publicPath", "clean", "manifest"]

def readOutput (value : Json) : Option OutputOptions := do
  let fields ← fields? value
  let usual : OutputOptions := {}
  return {
    path := ← option fields ["path"] readPath usual.path
    filename := ← option fields ["filename"] (readOptional readString) usual.filename
    cssFilename := ← option fields ["cssFilename"] readString usual.cssFilename
    assetFilename := ← option fields ["assetFilename"] readString usual.assetFilename
    publicPath := ← option fields ["publicPath"] readString usual.publicPath
    clean := ← option fields ["clean"] readBool usual.clean
    manifest := ← option fields ["manifest"] (readOptional readString) usual.manifest
    unclaimed := unclaimedOf fields outputNames }

def ruleNames : List String :=
  ["test", "transforms", "use", "type", "assetKind", "exclusive", "inlineThreshold"]

def readRule (value : Json) : Option RuleOptions := do
  let fields ← fields? value
  let usual : RuleOptions := {}
  return {
    test := ← option fields ["test"] readString usual.test
    transforms := ← option fields ["transforms", "use"] readTransforms usual.transforms
    type := ← option fields ["type"] (readOptional readResourceType) usual.type
    assetKind := ← option fields ["assetKind"] (readOptional readString) usual.assetKind
    exclusive := ← option fields ["exclusive"] readBool usual.exclusive
    inlineThreshold := ← option fields ["inlineThreshold"] (readOptional readNat) usual.inlineThreshold
    unclaimed := unclaimedOf fields ruleNames }

def moduleNames : List String := ["rules", "noParse", "fallbackRawCopy"]

def readModule (value : Json) : Option ModuleOptions := do
  let fields ← fields? value
  let usual : ModuleOptions := {}
  return {
    rules := ← option fields ["rules"] (readList readRule) usual.rules
    noParse := ← option fields ["noParse"] (readList readString) usual.noParse
    fallbackRawCopy := ← option fields ["fallbackRawCopy"] readBool usual.fallbackRawCopy
    unclaimed := unclaimedOf fields moduleNames }

def resolveNames : List String :=
  ["alias", "extensions", "modulePaths", "modules", "mainFields", "ignore"]

def readResolve (value : Json) : Option ResolveOptions := do
  let fields ← fields? value
  let usual : ResolveOptions := {}
  return {
    aliases := ← option fields ["alias"] (readMap readPath) usual.aliases
    extensions := ← option fields ["extensions"] (readList readString) usual.extensions
    modulePaths := ← option fields ["modulePaths", "modules"] (readList readPath) usual.modulePaths
    mainFields := ← option fields ["mainFields"] (readList readString) usual.mainFields
    ignore := ← option fields ["ignore"] (readList readIgnore) usual.ignore
    unclaimed := unclaimedOf fields resolveNames }

/-- The names of the options of a cache group. -/
def groupNames : List String :=
  ["key", "name", "test", "type", "chunks", "minChunks", "minSize", "maxAsyncRequests",
    "maxInitialRequests", "priority", "enforce", "reuseExistingChunk"]

def readGroup (value : Json) : Option CacheGroup := do
  let fields ← fields? value
  let usual : CacheGroup := {}
  return {
    key := ← option fields ["key"] readString usual.key
    name := ← option fields ["name"] (readOptional readString) usual.name
    test := ← option fields ["test"] (readOptional readString) usual.test
    type := ← option fields ["type"] (readOptional readResourceType) usual.type
    chunks := ← option fields ["chunks"] (readOptional readSelection) usual.chunks
    minChunks := ← option fields ["minChunks"] (readOptional readNat) usual.minChunks
    minSize := ← option fields ["minSize"] (readOptional readNat) usual.minSize
    maxAsyncRequests :=
      ← option fields ["maxAsyncRequests"] (readOptional readNat) usual.maxAsyncRequests
    maxInitialRequests :=
      ← option fields ["maxInitialRequests"] (readOptional readNat) usual.maxInitialRequests
    priority := ← option fields ["priority"] readPriority usual.priority
    enforce := ← option fields ["enforce"] readBool usual.enforce
    reuseExistingChunk := ← option fields ["reuseExistingChunk"] readBool usual.reuseExistingChunk
    unclaimed := unclaimedOf fields groupNames }

def splitNames : List String :=
  ["chunks", "minSize", "minRemainingSize", "minChunks", "maxAsyncRequests", "maxInitialRequests",
    "enforceSizeThreshold", "defaultVendors", "defaultGroup", "cacheGroups"]

def readSplit (value : Json) : Option SplitOptions := do
  let fields ← fields? value
  let usual : SplitOptions := {}
  return {
    chunks := ← option fields ["chunks"] readSelection usual.chunks
    minSize := ← option fields ["minSize"] (readOptional readNat) usual.minSize
    minRemainingSize :=
      ← option fields ["minRemainingSize"] (readOptional readNat) usual.minRemainingSize
    minChunks := ← option fields ["minChunks"] readNat usual.minChunks
    maxAsyncRequests := ← option fields ["maxAsyncRequests"] readNat usual.maxAsyncRequests
    maxInitialRequests := ← option fields ["maxInitialRequests"] readNat usual.maxInitialRequests
    enforceSizeThreshold :=
      ← option fields ["enforceSizeThreshold"] readNat usual.enforceSizeThreshold
    defaultVendors := ← option fields ["defaultVendors"] readBool usual.defaultVendors
    defaultGroup := ← option fields ["defaultGroup"] readBool usual.defaultGroup
    cacheGroups := ← option fields ["cacheGroups"] (readList readGroup) usual.cacheGroups
    unclaimed := unclaimedOf fields splitNames }

/-- The names of the options of optimization. -/
def optimizationNames : List String := ["minimize", "splitChunks"]

def readOptimization (value : Json) : Option OptimizationOptions := do
  let fields ← fields? value
  let usual : OptimizationOptions := {}
  return {
    minimize := ← option fields ["minimize"] (readOptional readBool) usual.minimize
    splitChunks := ← option fields ["splitChunks"] readSplit usual.splitChunks
    unclaimed := unclaimedOf fields optimizationNames }

def assetNames : List String :=
  ["inlineThresholds", "defaultInlineThreshold", "maxInlinePerModule"]

def readAsset (value : Json) : Option AssetOptions := do
  let fields ← fields? value
  let usual : AssetOptions := {}
  return {
    inlineThresholds := ← option fields ["inlineThresholds"] (readMap readNat) usual.inlineThresholds
    defaultInlineThreshold :=
      ← option fields ["defaultInlineThreshold"] readNat usual.defaultInlineThreshold
    maxInlinePerModule :=
      ← option fields ["maxInlinePerModule"] (readOptional readNat) usual.maxInlinePerModule
    unclaimed := unclaimedOf fields assetNames }

def configNames : List String :=
  ["mode", "context", "entry", "output", "module", "resolve", "externals", "optimization", "asset",
    "parallelism", "cache"]

/-- The configuration that a JSON value writes. -/
def ofJson? (value : Json) : Option Config := do
  let fields ← fields? value
  let usual : Config := {}
  return {
    mode := ← option fields ["mode"] readMode usual.mode
    context := ← option fields ["context"] readPath usual.context
    entry := ← option fields ["entry"] readEntry usual.entry
    output := ← option fields ["output"] readOutput usual.output
    module := ← option fields ["module"] readModule usual.module
    resolve := ← option fields ["resolve"] readResolve usual.resolve
    externals := ← option fields ["externals"] (readMap readString) usual.externals
    optimization := ← option fields ["optimization"] readOptimization usual.optimization
    asset := ← option fields ["asset"] readAsset usual.asset
    parallelism := ← option fields ["parallelism"] readNat usual.parallelism
    cache := ← option fields ["cache"] readBool usual.cache
    unclaimed := unclaimedOf fields configNames }

/-- The configuration that a JSON text writes. -/
def parse? (text : String) : Option Config := do
  let written ← Json.written? text
  ofJson? (← (withoutUnread written).value? Json.nestingLimit)

end WebBundle.Config

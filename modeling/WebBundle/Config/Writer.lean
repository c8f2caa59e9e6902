import WebBundle.Config.Options

namespace WebBundle

namespace Config

def writeOptional {α : Type} (write : α → Json) : Option α → Json
  | none => .null
  | some value => write value

def writeNat (n : Nat) : Json := .integer n

def writePath (p : Path) : Json := .string p.text

def writeStrings (texts : List String) : Json := .array (texts.map .string)

def writeMap {α : Type} (write : α → Json) (m : SortedMap α) : Json :=
  .object (m.entries.map fun entry => (entry.1, write entry.2))

end Config

open Config

def Mode.toJson (m : Mode) : Json := .string m.name

def ResourceType.toJson (t : ResourceType) : Json := .string t.name

def ChunkSelection.toJson (s : ChunkSelection) : Json := .string s.name

def EntryOption.toJson : EntryOption → Json
  | .single path => .string path
  | .named paths => writeMap .string paths

def TransformRef.toJson : TransformRef → Json
  | .plain id => .string id
  | .detailed id optional => .object [("id", .string id), ("optional", .bool optional)]

def OutputOptions.toJson (o : OutputOptions) : Json := .object [
  ("path", writePath o.path),
  ("filename", writeOptional .string o.filename),
  ("cssFilename", .string o.cssFilename),
  ("assetFilename", .string o.assetFilename),
  ("publicPath", .string o.publicPath),
  ("clean", .bool o.clean),
  ("manifest", writeOptional .string o.manifest)]

def RuleOptions.toJson (r : RuleOptions) : Json := .object [
  ("test", .string r.test),
  ("transforms", .array (r.transforms.map TransformRef.toJson)),
  ("type", writeOptional ResourceType.toJson r.type),
  ("assetKind", writeOptional .string r.assetKind),
  ("exclusive", .bool r.exclusive),
  ("inlineThreshold", writeOptional writeNat r.inlineThreshold)]

def ModuleOptions.toJson (o : ModuleOptions) : Json := .object [
  ("rules", .array (o.rules.map RuleOptions.toJson)),
  ("noParse", writeStrings o.noParse),
  ("fallbackRawCopy", .bool o.fallbackRawCopy)]

def IgnoreOptions.toJson (o : IgnoreOptions) : Json := .object [
  ("resource", .string o.resource),
  ("context", writeOptional .string o.context)]

def ResolveOptions.toJson (o : ResolveOptions) : Json := .object [
  ("alias", writeMap writePath o.aliases),
  ("extensions", writeStrings o.extensions),
  ("modulePaths", .array (o.modulePaths.map writePath)),
  ("mainFields", writeStrings o.mainFields),
  ("ignore", .array (o.ignore.map IgnoreOptions.toJson))]

def CacheGroup.toJson (g : CacheGroup) : Json := .object [
  ("key", .string g.key),
  ("name", writeOptional .string g.name),
  ("test", writeOptional .string g.test),
  ("type", writeOptional ResourceType.toJson g.type),
  ("chunks", writeOptional ChunkSelection.toJson g.chunks),
  ("minChunks", writeOptional writeNat g.minChunks),
  ("minSize", writeOptional writeNat g.minSize),
  ("maxAsyncRequests", writeOptional writeNat g.maxAsyncRequests),
  ("maxInitialRequests", writeOptional writeNat g.maxInitialRequests),
  ("priority", .integer g.priority),
  ("enforce", .bool g.enforce),
  ("reuseExistingChunk", .bool g.reuseExistingChunk)]

def SplitOptions.toJson (o : SplitOptions) : Json := .object [
  ("chunks", o.chunks.toJson),
  ("minSize", writeOptional writeNat o.minSize),
  ("minRemainingSize", writeOptional writeNat o.minRemainingSize),
  ("minChunks", writeNat o.minChunks),
  ("maxAsyncRequests", writeNat o.maxAsyncRequests),
  ("maxInitialRequests", writeNat o.maxInitialRequests),
  ("enforceSizeThreshold", writeNat o.enforceSizeThreshold),
  ("defaultVendors", .bool o.defaultVendors),
  ("defaultGroup", .bool o.defaultGroup),
  ("cacheGroups", .array (o.cacheGroups.map CacheGroup.toJson))]

def OptimizationOptions.toJson (o : OptimizationOptions) : Json := .object [
  ("minimize", writeOptional .bool o.minimize),
  ("splitChunks", o.splitChunks.toJson)]

def AssetOptions.toJson (o : AssetOptions) : Json := .object [
  ("inlineThresholds", writeMap writeNat o.inlineThresholds),
  ("defaultInlineThreshold", writeNat o.defaultInlineThreshold),
  ("maxInlinePerModule", writeOptional writeNat o.maxInlinePerModule)]

def Config.toJson (c : Config) : Json := .object [
  ("mode", c.mode.toJson),
  ("context", writePath c.context),
  ("entry", c.entry.toJson),
  ("output", c.output.toJson),
  ("module", c.module.toJson),
  ("resolve", c.resolve.toJson),
  ("externals", writeMap .string c.externals),
  ("optimization", c.optimization.toJson),
  ("asset", c.asset.toJson),
  ("parallelism", writeNat c.parallelism),
  ("cache", .bool c.cache)]

end WebBundle

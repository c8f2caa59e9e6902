import WebBundle.Asset.Delivery
import WebBundle.Build.Plan
import WebBundle.Chunk.Split
import WebBundle.Output.Emission
import WebBundle.Output.Writing

namespace WebBundle

/-- The numbers of a build. -/
structure BuildStats where
  modules : Nat
  chunks : Nat
  files : Nat
  cacheHits : Nat
  cacheMisses : Nat
  deriving DecidableEq, Repr

/-- What a build makes. -/
structure BuildResult where
  files : OutputFiles
  manifest : Manifest
  warnings : List Warning
  stats : BuildStats

namespace Build

variable {m : Type → Type} [Monad m]

/-- The outputs that had to be computed so far. -/
def misses (cache : Option Cache) : Nat := (cache.map Cache.misses).getD 0

def output (c : Config) (splitting : Splitting) (g : ModuleGraph) :
    Except BuildError (ChunkGraph × Emission) := do
  let deliveries := Delivery.all c.asset c.output.assetFilename g
  let chunks ← splitting.chunkGraph g
  let format : Output.Format := { options := c.output, filename := c.filename, minimize := c.minimize }
  return (chunks, ← Output.emit format g chunks deliveries)

def orFail {α : Type} : Except BuildError α → BuildM m α
  | .ok a => pure a
  | .error e => throw e

/-- Builds a configuration with the given transforms. -/
def build (c : Config) (registry : Registry) (view : FileView m) : BuildM m BuildResult := do
  let plan ← orFail ((BuildPlan.ofConfig c registry).mapError BuildError.config)
  let before := misses (← get)
  let found ← Discovery.run plan.project view plan.entries
  let (chunks, emission) ← orFail (output c plan.splitting found.graph)
  return {
    files := emission.files
    manifest := emission.manifest
    warnings := c.unclaimedPaths.map Warning.unknownOption ++ found.warnings
    stats := {
      modules := found.graph.size
      chunks := chunks.chunks.length
      files := emission.files.size
      cacheHits := found.cacheHits
      cacheMisses := misses (← get) - before } }

def run (c : Config) (registry : Registry) (fs : FileSystem m) : BuildM m BuildResult := do
  let result ← build c registry fs.toFileView
  match ← (Output.write fs c.outputDir c.output.clean result.files : m _) with
  | .error e => throw (.store e)
  | .ok () => return result

/-- The cache with which a build of a configuration starts, if it is to use one. -/
def freshCache (c : Config) : Option Cache := if c.cache then some {} else none

end Build

end WebBundle

import WebBundle.Digest
import WebBundle.Transform.Chain

/-!
The transform cache. Outputs are kept by the identity of the chain, the kind of the input and the hash of
its bytes; failed runs leave no trace. `Chain.run` is the same with and without a cache, except that a
cache may spare it the work.
-/

namespace WebBundle

/-- What an output is kept by. -/
structure CacheKey where
  chain : String
  kind : ArtifactKind
  contentHash : String
  deriving DecidableEq, Repr

def CacheKey.of (chain : Chain) (input : Artifact) : CacheKey :=
  ⟨chain.identity, input.kind, Digest.contentHash input.content⟩

/-- Computed outputs, and how often one was found or had to be computed. -/
structure Cache where
  entries : List (CacheKey × ChainOutput) := []
  hits : Nat := 0
  misses : Nat := 0

namespace Cache

def get? (c : Cache) (key : CacheKey) : Option ChainOutput := c.entries.lookup key

def size (c : Cache) : Nat := c.entries.length

/-- Forgets the outputs; the counters go on. -/
def clear (c : Cache) : Cache := { c with entries := [] }

def hit (c : Cache) : Cache := { c with hits := c.hits + 1 }

/-- The cache after an output was computed for a key that had none. -/
def keep (c : Cache) (key : CacheKey) (output : ChainOutput) : Cache :=
  { c with entries := (key, output) :: c.entries, misses := c.misses + 1 }

end Cache

/-- The output of a run and whether it came from the cache. -/
structure Outcome where
  output : ChainOutput
  cacheHit : Bool

namespace Chain

def runCached (chain : Chain) (input : Artifact) (path : Path) (cancelled : Bool) (cache : Cache) :
    Except ChainError Outcome × Cache :=
  let key := CacheKey.of chain input
  match cache.get? key with
  | some output => (.ok ⟨output, true⟩, cache.hit)
  | none =>
    match chain.execute input path cancelled with
    | .ok output => (.ok ⟨output, false⟩, cache.keep key output)
    | .error error => (.error error, cache)

/-- Runs a chain, through a cache if there is one. Empty chains have nothing to cache. -/
def run (chain : Chain) (input : Artifact) (cancelled : Bool) (cache : Option Cache)
    (path : Path := ⟨""⟩) : Except ChainError Outcome × Option Cache :=
  match cache, chain.declared with
  | some c, _ :: _ =>
    let (result, c) := chain.runCached input path cancelled c
    (result, some c)
  | _, _ => ((chain.execute input path cancelled).map (⟨·, false⟩), cache)

end Chain

end WebBundle

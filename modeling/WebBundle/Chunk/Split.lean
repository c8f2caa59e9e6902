import WebBundle.Chunk.Draft
import WebBundle.Chunk.LoadOrder

/-!
Chunk splitting. The policies are applied one after another. Each collects the modules that it may take,
puts those with the same users into one bucket, and extracts the buckets that meet its conditions.
-/

namespace WebBundle.Splitting

/-- What a policy may take from each boundary: the modules of its base chunk, if the policy looks at such
chunks. -/
def offered (p : Policy) (d : Draft) : List IdSet :=
  d.boundaries.map fun boundary =>
    if p.selects boundary.initial then (boundary.base.map d.modulesOf).getD ∅ else ∅

def usersOf (offered : List IdSet) (id : ModuleId) : IdSet :=
  IdSet.ofList (offered.zipIdx.filterMap fun (modules, b) =>
    if modules.contains id then some b else none)

/-- A module as a candidate of a policy. Entry modules stay where they are. -/
def candidate? (g : ModuleGraph) (p : Policy) (d : Draft) (offered : List IdSet) (id : ModuleId) :
    Option Candidate :=
  if g.isEntry id || d.claimed.contains id || !p.accepts (g.get id) then none
  else
    let users := usersOf offered id
    if p.minChunks ≤ users.size then some ⟨id, users⟩ else none

/-- The candidates of a policy in the order of the modules. -/
def candidates (g : ModuleGraph) (p : Policy) (d : Draft) : Bucket :=
  (List.range g.size).filterMap (candidate? g p d (offered p d))

/-- Whether a bucket with its users is tried before another: it has more users, or as many and is larger;
otherwise the order of the boundaries decides. -/
def precedes (g : ModuleGraph) (a b : IdSet × Bucket) : Bool :=
  if a.1.size ≠ b.1.size then b.1.size < a.1.size
  else if a.2.size g ≠ b.2.size g then b.2.size g < a.2.size g
  else IdSet.lexLe a.1.toList b.1.toList

/-- Candidates with the same users together. -/
def groupByUsers (bucket : Bucket) : List (IdSet × Bucket) :=
  (bucket.map Candidate.users).eraseDups.map fun users =>
    (users, bucket.filter fun c => c.users = users)

/-- The buckets of a policy. A policy with a name has one. -/
def buckets (g : ModuleGraph) (p : Policy) (d : Draft) : List Bucket :=
  match candidates g p d with
  | [] => []
  | found =>
    if p.name.isSome then [found]
    else ((groupByUsers found).mergeSort (precedes g)).map (·.2)

/-- The boundaries of a bucket that may load one more chunk. -/
def allowedUsers (p : Policy) (d : Draft) (users : IdSet) : IdSet :=
  users.filter fun b =>
    (d.boundary? b).any fun boundary => boundary.requests < p.requestLimit boundary.initial

/-- A bucket that leaves some boundaries their modules. -/
def restrict (p : Policy) (allowed : IdSet) (bucket : Bucket) : Bucket :=
  bucket.filterMap fun c =>
    let users := c.users.inter allowed
    if p.minChunks ≤ users.size then some ⟨c.id, users⟩ else none

/-- A bucket without the boundaries that load as many chunks as they may. Nothing is left if what remains is
too small. -/
def withinRequests (g : ModuleGraph) (p : Policy) (d : Draft) (bucket : Bucket) : Option Bucket :=
  let allowed := allowedUsers p d bucket.users
  if allowed = bucket.users then some bucket
  else
    let rest := restrict p allowed bucket
    if rest.isEmpty || rest.size g < p.minSize then none else some rest

/-- What would be left of the base chunk of a boundary. -/
def residual (g : ModuleGraph) (d : Draft) (bucket : Bucket) (base boundary : Nat) : Nat :=
  g.sizeOf (d.modulesOf base).toList - g.sizeOf (bucket.takenFrom boundary)

/-- Whether every base chunk is left empty or large enough. -/
def leavesEnough (s : Splitting) (g : ModuleGraph) (d : Draft) (bucket : Bucket) : Bool :=
  bucket.users.toList.all fun b =>
    (d.baseOf b).all fun base =>
      let rest := residual g d bucket base b
      rest == 0 || s.minRemainingSize ≤ rest

/-- The part of a bucket that a policy may extract, if there is one. -/
def admitted? (s : Splitting) (g : ModuleGraph) (p : Policy) (d : Draft) (bucket : Bucket) :
    Option Bucket :=
  let size := bucket.size g
  if !p.enforce && size < p.minSize then none
  else if p.enforce || s.enforceSizeThreshold ≤ size then some bucket
  else (withinRequests g p d bucket).filter (s.leavesEnough g d)

/-- Extracts what a policy may extract of a bucket. -/
def applyBucket (s : Splitting) (g : ModuleGraph) (p : Policy) (d : Draft) (bucket : Bucket) : Draft :=
  match s.admitted? g p d bucket with
  | some bucket => d.extract p bucket
  | none => d

def applyPolicy (s : Splitting) (g : ModuleGraph) (d : Draft) (p : Policy) : Draft :=
  (buckets g p d).foldl (s.applyBucket g p) d

def draft (s : Splitting) (g : ModuleGraph) : Draft :=
  s.policies.foldl (s.applyPolicy g) (Draft.ofGraph g)

end WebBundle.Splitting

namespace WebBundle.Draft

/-- The drafts that have modules. -/
def kept (d : Draft) : List Nat :=
  d.chunks.zipIdx.filterMap fun (c, chunk) => if c.modules.isEmpty then none else some chunk

/-- The id of a draft: its place among those that are kept. -/
def idIn? (kept : List Nat) (chunk : Nat) : Option ChunkId := kept.findIdx? (· == chunk)

/-- What a boundary loads: the chunks before its base chunk, and then that. -/
def groupOf (kept : List Nat) (b : Boundary) : ChunkGroup where
  name := b.name
  root := b.root
  initial := b.initial
  chunks := (b.loads ++ b.base.toList).filterMap (idIn? kept)

/-- The drafts that are loaded before a draft; a base chunk needs what its boundary loads. -/
def dependenciesOf (d : Draft) (chunk : Nat) : List Nat :=
  match d.boundaries.find? fun b => b.base == some chunk with
  | some b => b.loads
  | none => (d.chunks[chunk]?.map DraftChunk.dependencies).getD []

def chunkOf (g : ModuleGraph) (d : Draft) (kept : List Nat) (initial : List ChunkId) (chunk : Nat) :
    Option Chunk :=
  d.chunks[chunk]?.map fun c => {
    name := c.name
    initial := (idIn? kept chunk).any initial.contains
    origin := c.origin
    modules := c.modules
    size := g.sizeOf c.modules.toList
    dependencies := (d.dependenciesOf chunk).filterMap (idIn? kept) }

def toChunkGraph (g : ModuleGraph) (d : Draft) : Except BuildError ChunkGraph := do
  let kept := d.kept
  let groups := d.boundaries.map (groupOf kept)
  let initial := (groups.filter (·.initial)).flatMap (·.chunks)
  let chunks := kept.filterMap (chunkOf g d kept initial)
  let loadOrder ← Chunk.loadOrder chunks
  return {
    chunks
    entrypoints := groups.filter (·.initial)
    asyncGroups := groups.filter fun group => !group.initial
    loadOrder }

end WebBundle.Draft

namespace WebBundle.Splitting

def chunkGraph (s : Splitting) (g : ModuleGraph) : Except BuildError ChunkGraph :=
  (s.draft g).toChunkGraph g

end WebBundle.Splitting

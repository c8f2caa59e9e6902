import WebBundle.Graph.ModuleGraph

/-!
Boundaries, where loading starts: entries and the targets of dynamic imports. What a boundary needs is the
static closure of its root; what it has to load itself is the part that some way to it has not loaded yet.
-/

namespace WebBundle

/-- Where loading starts. -/
structure Boundary where
  name : String
  root : ModuleId
  /-- Whether it is an entry. -/
  initial : Bool
  /-- The draft of the chunk that holds what the boundary needs. -/
  base : Option Nat := none
  /-- The drafts of the chunks that are loaded before it. -/
  loads : List Nat := []
  deriving DecidableEq, Repr

namespace Boundary

/-- The number of chunks that a boundary loads. -/
def requests (b : Boundary) : Nat := b.loads.length + if b.base.isSome then 1 else 0

/-- A name with the first number behind it that makes it new. -/
def freshName (taken : List String) (name : String) : String :=
  let variant (n : Nat) : String := if n = 0 then name else name ++ "-" ++ toString n
  ((List.range (taken.length + 1)).find? fun n => !taken.contains (variant n)).elim name variant

/-- The name of the boundary at a module that is imported on demand, before it is made new. -/
def asyncName (m : Module) : String := (m.path.fileStem.map String.ofList).getD "async"

/-- Adds boundaries, given by wanted names and roots, under new names. -/
def addAll (initial : Bool) : List (String × ModuleId) → List Boundary → List Boundary
  | [], done => done
  | (name, root) :: rest, done =>
    addAll initial rest (done ++ [{ name := freshName (done.map (·.name)) name, root, initial }])

/-- The boundaries of a graph: its entries and then the targets of its dynamic imports. -/
def ofGraph (g : ModuleGraph) : List Boundary :=
  addAll false (g.dynamicTargets.map fun root => (asyncName (g.get root), root))
    (addAll true g.entries [])

/-- The static closures of boundaries, and for each the boundaries from which a dynamic import leads to
it. An entry has none of these, because nothing is loaded before it. -/
structure Reach where
  closures : Array IdSet
  parents : Array (List Nat)

namespace Reach

/-- The places of the closures from which a dynamic import leads to a root. -/
def leadingTo (targets : List IdSet) (root : ModuleId) : List Nat :=
  targets.zipIdx.filterMap fun (reached, p) => if reached.contains root then some p else none

def of (g : ModuleGraph) (boundaries : List Boundary) : Reach :=
  let closures := boundaries.map fun b => g.staticClosure b.root
  let targets := closures.map fun closure =>
    IdSet.ofList (closure.toList.flatMap (g.ofKind .dynamic).next)
  { closures := closures.toArray
    parents := (boundaries.map fun b =>
      if b.initial then [] else leadingTo targets b.root).toArray }

def closure (r : Reach) (b : Nat) : IdSet := r.closures.getD b ∅

end Reach

/-- The modules that are known to be loaded before each boundary. As long as nothing is known of a
boundary, it has no set. -/
abbrev Known := Array (Option IdSet)

/-- Before an entry nothing is loaded. -/
def Known.start (boundaries : List Boundary) : Known :=
  (boundaries.map fun b => if b.initial then some ∅ else none).toArray

/-- What some sets have in common. Of no sets this is not known. -/
def common : List IdSet → Option IdSet
  | [] => none
  | s :: rest => some (rest.foldl IdSet.inter s)

namespace Reach

/-- What is loaded once a boundary is loaded. -/
def loadedBehind (r : Reach) (known : Known) (p : Nat) : Option IdSet :=
  (known.getD p none).map fun before => before.union (r.closure p)

/-- What is loaded before a boundary, whichever of the known ways leads to it. -/
def loadedBefore (r : Reach) (known : Known) (b : Nat) : Option IdSet :=
  common ((r.parents.getD b []).filterMap (r.loadedBehind known))

def learn (r : Reach) (known : Known) (b : Nat) : Known :=
  match r.loadedBefore known b with
  | some loaded => known.setIfInBounds b (some loaded)
  | none => known

/-- Learns of every boundary in order, each time from what was learned last. -/
def pass (r : Reach) (known : Known) : Known := (List.range known.size).foldl r.learn known

/-- Passes until nothing changes. -/
def settle (r : Reach) : (rounds : Nat) → Known → Known
  | 0, known => known
  | rounds + 1, known =>
    let next := r.pass known
    if next = known then known else settle r rounds next

/-- All modules that any boundary needs. -/
def needed (r : Reach) : IdSet := r.closures.foldl IdSet.union ∅

/-- Every pass but the last makes some set smaller or known for the first time, so there are no more passes
than this. -/
def rounds (r : Reach) : Nat := r.closures.size * (r.needed.size + 1)

end Reach

/-- What is loaded before each boundary on every way to it. -/
def available (g : ModuleGraph) (boundaries : List Boundary) : Known :=
  let r := Reach.of g boundaries
  r.settle r.rounds (Known.start boundaries)

/-- The modules that each boundary has to load itself: those of its closure that are not loaded before it on
every way from an entry. A boundary to which no way leads has to load its whole closure, and so has an
entry. -/
def members (g : ModuleGraph) (boundaries : List Boundary) : List IdSet :=
  let known := available g boundaries
  boundaries.zipIdx.map fun (boundary, b) =>
    let closure := g.staticClosure boundary.root
    (known.getD b none).elim closure closure.diff

end Boundary

end WebBundle

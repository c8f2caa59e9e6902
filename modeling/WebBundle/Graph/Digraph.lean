import WebBundle.IdSet

namespace WebBundle

/-- A directed graph on the nodes below `size`. -/
structure Digraph where
  size : Nat
  next : Nat → List Nat

namespace Digraph

/-- Goes from the nodes of the frontier to all their successors that were not reached before, and on from
those. -/
def spread (next : Nat → List Nat) : (rounds : Nat) → (frontier reached : IdSet) → IdSet
  | 0, _, reached => reached
  | rounds + 1, frontier, reached =>
    let fresh := (IdSet.ofList (frontier.toList.flatMap next)).diff reached
    if fresh.isEmpty then reached else spread next rounds fresh (reached.union fresh)

/-- The nodes that can be reached from a set of nodes in any number of steps. Every round but the last
reaches a new node, so there are no more rounds than nodes. -/
def reachFrom (g : Digraph) (start : IdSet) : IdSet := spread g.next g.size start start

/-- The nodes that can be reached from a node, the node itself included. -/
def reach (g : Digraph) (node : Nat) : IdSet := g.reachFrom (IdSet.ofList [node])

/-- The nodes that can be reached in one step or more. -/
def reachOnward (g : Digraph) (node : Nat) : IdSet := g.reachFrom (IdSet.ofList (g.next node))

/-- The nodes that lie on cycles, in lists of those that reach each other. Each list ascends, and the lists
stand in the order of their first nodes. -/
def cycles (g : Digraph) : List (List Nat) :=
  let onward := ((List.range g.size).map g.reachOnward).toArray
  let reaches (a b : Nat) : Bool := (onward.getD a ∅).contains b
  (List.range g.size).filterMap fun node =>
    let cycle := (List.range g.size).filter fun other => reaches node other && reaches other node
    if cycle.head? = some node then some cycle else none

/-- How far a depth-first search has come: the nodes that it entered, and those that it left, the last one
first. -/
structure Walk where
  entered : List Nat := []
  left : List Nat := []

/-- Visits a node, and before leaving it all its successors in order. A node that was entered before is not
visited again, so a visit is never deeper than there are nodes. -/
def visit (next : Nat → List Nat) : (depth : Nat) → Walk → Nat → Walk
  | 0, walk, _ => walk
  | depth + 1, walk, node =>
    if node ∈ walk.entered then walk
    else
      let walk := (next node).foldl (visit next depth) { walk with entered := node :: walk.entered }
      { walk with left := node :: walk.left }

/-- The walk that visits several nodes in order. -/
def walk (g : Digraph) (nodes : List Nat) : Walk := nodes.foldl (visit g.next (g.size + 1)) {}

/-- The nodes in the order in which the walk leaves them. -/
def finished (g : Digraph) (nodes : List Nat) : List Nat := (g.walk nodes).left.reverse

end Digraph

end WebBundle

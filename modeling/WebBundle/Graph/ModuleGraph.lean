import WebBundle.Graph.Digraph
import WebBundle.Graph.Module

namespace WebBundle

/-- The modules of a build, and the modules at which it starts, by entry name. -/
structure ModuleGraph where
  modules : List Module := []
  entries : List (String × ModuleId) := []

namespace ModuleGraph

def size (g : ModuleGraph) : Nat := g.modules.length

def get (g : ModuleGraph) (id : ModuleId) : Module := g.modules.getD id default

def lookup (g : ModuleGraph) (key : String) : Option ModuleId :=
  g.modules.findIdx? fun m => m.key == key

def isEntry (g : ModuleGraph) (id : ModuleId) : Bool := g.entries.any fun e => e.2 == id

/-- Adds a module unless there is one with its key. -/
def insert (g : ModuleGraph) (m : Module) : ModuleGraph × ModuleId :=
  match g.lookup m.key with
  | some id => (g, id)
  | none => ({ g with modules := g.modules ++ [m] }, g.size)

def modify (g : ModuleGraph) (id : ModuleId) (change : Module → Module) : ModuleGraph :=
  { g with modules := g.modules.modify id change }

def addEntry (g : ModuleGraph) (name : String) (id : ModuleId) : ModuleGraph :=
  { g with entries := g.entries ++ [(name, id)] }

/-- Adds a dependency to a module that does not have it. -/
def addDependency (g : ModuleGraph) (importer : ModuleId) (d : Dependency) : ModuleGraph :=
  g.modify importer fun m =>
    if d ∈ m.dependencies then m else { m with dependencies := m.dependencies ++ [d] }

def sizeOf (g : ModuleGraph) (ids : List ModuleId) : Nat :=
  ids.foldr (fun id size => (g.get id).size + size) 0

/-- The graph of the dependencies of one kind. -/
def ofKind (g : ModuleGraph) (kind : ImportKind) : Digraph :=
  let targets := (g.modules.map fun m => m.targets kind).toArray
  ⟨g.size, fun id => targets.getD id []⟩

def imports (g : ModuleGraph) : Digraph :=
  let targets := (g.modules.map fun m => m.dependencies.map (·.target)).toArray
  ⟨g.size, fun id => targets.getD id []⟩

/-- The modules that are evaluated with a module. -/
def staticClosure (g : ModuleGraph) (root : ModuleId) : IdSet := (g.ofKind .static).reach root

/-- The modules that are imported on demand, in the order in which they are first seen. -/
def dynamicTargets (g : ModuleGraph) : List ModuleId :=
  (g.modules.flatMap fun m => m.targets .dynamic).eraseDups

/-- The modules that import each other, cycle by cycle. -/
def importCycles (g : ModuleGraph) : List (List ModuleId) := g.imports.cycles

end ModuleGraph

end WebBundle

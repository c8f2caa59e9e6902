import WebBundle.Import
import WebBundle.Path
import WebBundle.Rules.ModuleType

namespace WebBundle

/-- The place of a module in its graph. -/
abbrev ModuleId := Nat

/-- A dependency: the specifier as written, and the module for which it stands. -/
structure Dependency where
  specifier : String
  target : ModuleId
  kind : ImportKind
  deriving DecidableEq, Repr

/-- Where the content of a module comes from. -/
inductive ModuleOrigin where
  /-- A file. -/
  | source
  /-- A side artifact of the transforms of another module. -/
  | side (owner : ModuleId)
  /-- A global at run time. -/
  | external (global : String)
  /-- Nowhere: the module is empty. -/
  | ignored
  deriving DecidableEq, Repr

/-- A module. -/
structure Module where
  /-- The name of the module in the output: its path in the project, and its query. -/
  key : String
  path : Path
  query : Option String := none
  origin : ModuleOrigin
  type : ModuleType := .javascript
  /-- What the transforms made of the content. -/
  artifact : Artifact := ⟨.script, ByteArray.empty⟩
  contentHash : String := ""
  dependencies : List Dependency := []
  deriving DecidableEq

namespace Module

instance : Inhabited Module := ⟨{ key := "", path := ⟨""⟩, origin := .ignored }⟩

/-- The size in bytes behind all transforms. -/
def size (m : Module) : Nat := m.artifact.content.size

/-- Whether the module belongs into a stylesheet. -/
def isStyle (m : Module) : Bool := m.artifact.kind == .style

/-- The targets of the dependencies of a kind. -/
def targets (m : Module) (kind : ImportKind) : List ModuleId :=
  (m.dependencies.filter fun d => d.kind == kind).map (·.target)

/-- The directory in which the specifiers of the module are resolved. -/
def directory (m : Module) (context : Path) : Path := m.path.parent.getD context

end Module

end WebBundle

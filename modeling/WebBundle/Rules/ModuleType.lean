import WebBundle.Artifact

namespace WebBundle

/-- How an asset reaches the page. -/
inductive AssetPolicy where
  /-- Inlined below a size limit. The limit of a rule takes the place of the configured one. -/
  | auto (threshold : Option Nat)
  | inlined
  | emitted
  deriving DecidableEq, Repr

/-- What a module is. -/
inductive ModuleType where
  | javascript
  | style
  /-- An asset, of a kind that has a size limit of its own. -/
  | asset (policy : AssetPolicy) (kind : String)
  /-- A file that is copied as it is. -/
  | raw
  deriving DecidableEq, Repr

namespace ModuleType

/-- What the bytes of a file of this type are before any transform. -/
def sourceKind : ModuleType → ArtifactKind
  | .javascript => .script
  | .style => .style
  | .asset .. => .binary
  | .raw => .binary

/-- Whether modules of this type have no imports. -/
def isResource : ModuleType → Bool
  | .javascript => false
  | .style => false
  | .asset .. => true
  | .raw => true

/-- The type of a module that holds a side artifact. -/
def ofSide : ArtifactKind → ModuleType
  | .script => .javascript
  | .style => .style
  | .binary => .raw

end ModuleType

end WebBundle

import WebBundle.Asset.DataUri
import WebBundle.Config.Options
import WebBundle.Graph.ModuleGraph
import WebBundle.Template

/-!
Delivery of assets: each asset and each raw module is inlined as a data URI or emitted as a file of its
own. An asset below its size limit is inlined, unless one of its importers has too many smaller ones.
-/

namespace WebBundle

/-- How a module without code reaches the page. -/
inductive Delivery where
  | inlined (uri : String)
  | emitted (file : String)
  deriving DecidableEq, Repr

namespace Delivery

/-- The size limit of a module, if its size decides. -/
def limit? (o : AssetOptions) (m : Module) : Option Nat :=
  match m.type with
  | .asset (.auto threshold) kind => some (threshold.getD (o.thresholdFor kind))
  | _ => none

/-- Whether a module is inlined if no budget forbids it. -/
def isCandidate (o : AssetOptions) (g : ModuleGraph) (id : ModuleId) : Bool :=
  let m := g.get id
  (limit? o m).any fun limit => m.size < limit

/-- Whether an asset comes before another when few can be inlined: it is smaller, or of equal size and
found earlier. -/
def precedes (g : ModuleGraph) (a b : ModuleId) : Bool :=
  (g.get a).size < (g.get b).size || ((g.get a).size == (g.get b).size && a ≤ b)

/-- The candidates that a module imports, each once, in the order in which they use up its budget. -/
def ranked (o : AssetOptions) (g : ModuleGraph) (importer : ModuleId) : List ModuleId :=
  let targets := IdSet.ofList ((g.get importer).dependencies.map (·.target))
  (targets.filter (isCandidate o g)).toList.mergeSort (precedes g)

/-- The candidates for which a module that imports them has no budget left. -/
def overBudget (o : AssetOptions) (g : ModuleGraph) : List ModuleId :=
  match o.maxInlinePerModule with
  | none => []
  | some budget => (List.range g.size).flatMap fun importer => (ranked o g importer).drop budget

def fileName (template : String) (m : Module) : String :=
  Template.render template {
    name := (m.path.fileStem.map String.ofList).getD "asset"
    contentHash := m.contentHash
    hash := m.contentHash
    extension := (m.path.extension.map fun e => String.ofList ('.' :: e)).getD "" }

/-- How a module is delivered, given the candidates that are over budget; nothing for a module with
code. -/
def of? (o : AssetOptions) (template : String) (g : ModuleGraph) (demoted : List ModuleId)
    (id : ModuleId) : Option Delivery :=
  let m := g.get id
  let inlined : Delivery := .inlined (Asset.dataUri m.path m.artifact.content)
  let emitted : Delivery := .emitted (fileName template m)
  match m.type with
  | .javascript => none
  | .style => none
  | .raw => some emitted
  | .asset .inlined _ => some inlined
  | .asset _ _ => some (if isCandidate o g id && !demoted.contains id then inlined else emitted)

/-- The deliveries of all modules that have one, in the order of the modules. -/
def all (o : AssetOptions) (template : String) (g : ModuleGraph) : List (ModuleId × Delivery) :=
  let demoted := overBudget o g
  (List.range g.size).filterMap fun id => (of? o template g demoted id).map (id, ·)

end Delivery

end WebBundle

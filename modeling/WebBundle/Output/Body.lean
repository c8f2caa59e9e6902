import WebBundle.Asset.Delivery
import WebBundle.Chunk.Basic
import WebBundle.Graph.ModuleGraph
import WebBundle.Loader

namespace WebBundle

/-- The addresses of the modules that are delivered as assets. -/
abbrev Addresses := List (ModuleId × String)

namespace Output

/-- A statement that exports an expression. -/
def exporting (expression : String) : String := "module.exports = " ++ expression ++ ";"

/-- The body of a module in its chunk's script. Stylesheets and ignored modules are empty, and assets
export their address. -/
def body (g : ModuleGraph) (addresses : Addresses) (id : ModuleId) : String :=
  let m := g.get id
  match m.origin with
  | .external global => exporting global
  | .ignored => ""
  | _ =>
    if m.isStyle then ""
    else
      match addresses.lookup id with
      | some address => exporting (Json.quote address)
      | none => Script.loadOnDemand (Text.lossyText m.artifact.content)

/-- The keys of a module's dependencies by specifier; of those with one specifier the last counts. -/
def dependencyKeys (g : ModuleGraph) (m : Module) : List (String × String) :=
  (SortedMap.ofList (m.dependencies.map fun d => (d.specifier, (g.get d.target).key))).entries

def registration (g : ModuleGraph) (addresses : Addresses) (banner : Bool) (id : ModuleId) : String :=
  let m := g.get id
  Loader.registration m.key (dependencyKeys g m) (body g addresses id) banner

def inside (g : ModuleGraph) (chunk : IdSet) : Digraph where
  size := g.size
  next id := ((g.get id).targets .static).filter chunk.contains

/-- The stylesheets of a chunk, in the order in which a walk along the static imports leaves them. -/
def styleOrder (g : ModuleGraph) (chunk : IdSet) : List ModuleId :=
  ((inside g chunk).finished chunk.toList).filter fun id => (g.get id).isStyle

def targetOf (m : Module) (specifier : String) : Option ModuleId :=
  (m.dependencies.find? fun d => d.specifier == specifier).map (·.target)

/-- The text of a stylesheet, without the imports of bundled sheets and with the addresses of its
assets. -/
def stylesheet (g : ModuleGraph) (addresses : Addresses) (id : ModuleId) : String :=
  let m := g.get id
  let isBundled (request : String) : Bool := (targetOf m request).any fun target => (g.get target).isStyle
  let address (request : String) : Option String := (targetOf m request).bind fun target => addresses.lookup target
  Style.replaceUrls address (Style.removeImports isBundled (Text.lossyText m.artifact.content))

/-- The lines of a text. A carriage return before a line break belongs to the break. -/
def lines : List Char → List (List Char)
  | [] => []
  | c :: rest =>
    if c = '\n' then [] :: lines rest
    else if c = '\r' ∧ rest.head? = some '\n' then lines rest
    else
      match lines rest with
      | [] => [[c]]
      | line :: others => (c :: line) :: others

/-- A text without its blank lines. -/
def withoutBlankLines (text : String) : String :=
  String.ofList ((lines text.toList).flatMap fun line =>
    if line.all Text.isSpace then [] else line ++ ['\n'])

end Output

end WebBundle

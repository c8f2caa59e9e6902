import WebBundle.Chunk.Policy
import WebBundle.Graph.Discovery
import WebBundle.Template

namespace WebBundle

/-- A checked configuration. -/
structure BuildPlan where
  /-- Entry names and paths. -/
  entries : List (String × String)
  project : Project
  splitting : Splitting

namespace BuildPlan

/-- Whether a text says nothing. -/
def isBlank (text : String) : Bool := text.toList.all Text.isSpace

/-- Checks that there is an entry, and that each has a name and a path. -/
def checkEntries (entries : List (String × String)) : Except ConfigError Unit :=
  if entries.isEmpty then .error .noEntry
  else
    match entries.find? fun (name, path) => name.isEmpty || isBlank path with
    | some (name, _) => .error (.emptyEntry name)
    | none => .ok ()

/-- The paths that must not be removed with the output directory: the project and its entries. -/
def sources (c : Config) (entries : List (String × String)) : List Path :=
  let context := c.context.normalize
  context :: entries.map fun (_, path) => (context.join ⟨path⟩).normalize

/-- Checks that the output directory holds no source. -/
def checkOutputDir (c : Config) (entries : List (String × String)) : Except ConfigError Unit :=
  match (sources c entries).find? fun source => source.startsWith c.outputDir with
  | some source => .error (.outputOverSources c.outputDir source)
  | none => .ok ()

/-- Checks that a template of file names has one of some placeholders. -/
def checkTemplate (option template : String) (words : List String) (expected : String) :
    Except ConfigError Unit :=
  if Template.hasPlaceholder template words then .ok ()
  else .error (.ambiguousTemplate option template expected)

def checkTemplates (c : Config) : Except ConfigError Unit := do
  let words := ["name", "id", "contenthash"]
  let expected := "[name], [id] or [contenthash]"
  checkTemplate "output.filename" c.filename words expected
  checkTemplate "output.cssFilename" c.output.cssFilename words expected
  checkTemplate "output.assetFilename" c.output.assetFilename ["name", "hash", "contenthash"]
    "[name], [hash] or [contenthash]"

/-- The patterns of the paths whose modules are not scanned. -/
def noParsePatterns : (index : Nat) → List String → Except ConfigError (List Pattern)
  | _, [] => .ok []
  | index, text :: rest => do
    let pattern ← Pattern.ofOption ("module.noParse[" ++ toString index ++ "]") text
    return pattern :: (← noParsePatterns (index + 1) rest)

def ofConfig (c : Config) (registry : Registry) : Except ConfigError BuildPlan := do
  let entries := c.entry.entries
  checkEntries entries
  checkOutputDir c entries
  checkTemplates c
  let noParse ← noParsePatterns 0 c.module.noParse
  let resolver ← Resolver.ofConfig c
  let rules ← RuleSet.ofOptions registry c.module
  let splitting ← Splitting.ofOptions c.optimization.splitChunks c.mode
  return { entries, project := { resolver, rules, noParse }, splitting }

end BuildPlan

end WebBundle

import WebBundle.Asset.DataUri
import WebBundle.Config.Options
import WebBundle.Pattern.Option
import WebBundle.Rules.ModuleType
import WebBundle.Transform.Chain
import WebBundle.Transform.Registry

/-!
Rules say by which transforms a file passes and what it becomes. They are tried from first to last; each
that matches adds its transforms, and the first exclusive one ends the search.
-/

namespace WebBundle

/-- A rule with its pattern and transforms settled. -/
structure Rule where
  test : Pattern
  stages : List Stage
  type : Option ResourceType
  assetKind : Option String
  exclusive : Bool
  threshold : Option Nat

/-- The rules of a project. -/
structure RuleSet where
  rules : List Rule
  /-- The transform of JSON files that no rule matches. -/
  json : Option Transform
  /-- Whether files of unknown type are copied. -/
  copyUnknown : Bool

/-- What rules say about a path. -/
structure RuleMatch where
  chain : Chain
  type : ModuleType
  /-- The numbers of the rules that matched. -/
  rules : List Nat

namespace Rule

/-- The stage that a mention of a transform stands for. -/
def stage (registry : Registry) (option : String) (ref : TransformRef) : Except ConfigError Stage :=
  match registry.get? ref.id with
  | some transform => .ok { transform, optional := ref.optional }
  | none => .error (.unknownTransform ref.id option)

def ofOptions (registry : Registry) (index : Nat) (o : RuleOptions) : Except ConfigError Rule := do
  let option := "module.rules[" ++ toString index ++ "]"
  let test ← Pattern.ofOption (option ++ ".test") o.test
  let stages ← o.transforms.mapM (stage registry option)
  return { test, stages, type := o.type, assetKind := o.assetKind, exclusive := o.exclusive,
           threshold := o.inlineThreshold }

/-- The kind of the assets with an extension, if it is known. -/
def assetKind? (extension : String) : Option String :=
  if ["png", "jpg", "jpeg", "gif", "svg", "webp", "avif", "ico", "bmp"].contains extension then
    some "image"
  else if ["woff", "woff2", "ttf", "otf", "eot"].contains extension then some "font"
  else if ["mp4", "webm", "ogg", "mp3", "wav", "flac", "aac"].contains extension then some "media"
  else none

/-- The kind of an asset at a path under a rule. -/
def kindAt (rule : Rule) (path : Path) : String :=
  (rule.assetKind.or (assetKind? (Asset.lowerExtension path))).getD "asset"

/-- The type that a rule declares for a path. -/
def declaredType (rule : Rule) (path : Path) : ResourceType → ModuleType
  | .javascript => .javascript
  | .style => .style
  | .asset => .asset (.auto rule.threshold) (rule.kindAt path)
  | .assetInline => .asset .inlined (rule.kindAt path)
  | .assetResource => .asset .emitted (rule.kindAt path)
  | .raw => .raw

end Rule

namespace RuleSet

def rulesOf (registry : Registry) : (index : Nat) → List RuleOptions → Except ConfigError (List Rule)
  | _, [] => .ok []
  | index, o :: rest => do
    return (← Rule.ofOptions registry index o) :: (← rulesOf registry (index + 1) rest)

def ofOptions (registry : Registry) (o : ModuleOptions) : Except ConfigError RuleSet := do
  let rules ← rulesOf registry 0 o.rules
  return { rules, json := registry.get? "json", copyUnknown := o.fallbackRawCopy }

/-- The rules that match a path up to the first exclusive one, with their numbers. -/
def matching (path : Path) : (index : Nat) → List Rule → List (Nat × Rule)
  | _, [] => []
  | index, rule :: rest =>
    if rule.test.matchesPath path then
      (index, rule) :: if rule.exclusive then [] else matching path (index + 1) rest
    else matching path (index + 1) rest

/-- The type of a file that its extension tells, and the stages that such a file passes unless a rule
matches it. -/
def knownType (s : RuleSet) (path : Path) : Option (ModuleType × List Stage) :=
  let extension := Asset.lowerExtension path
  if ["js", "mjs", "cjs", "jsx"].contains extension then some (.javascript, [])
  else if extension = "css" then some (.style, [])
  else if extension = "json" then
    match s.json with
    | some json => some (.javascript, [{ transform := json }])
    | none => some (.raw, [])
  else (Rule.assetKind? extension).map fun kind => (.asset (.auto none) kind, [])

/-- What the rules say about a path; nothing if no type can be told. Of several declared types the first
counts. A file that has only transforms becomes a script. -/
def matchPath? (s : RuleSet) (path : Path) : Option RuleMatch :=
  let matched := matching path 0 s.rules
  let stages := matched.flatMap fun (_, rule) => rule.stages
  let result (type : ModuleType) (stages : List Stage) : RuleMatch :=
    { chain := ⟨stages⟩, type, rules := matched.map (·.1) }
  match matched.findSome? fun (_, rule) => rule.type.map (rule.declaredType path) with
  | some type => some (result type stages)
  | none =>
    match s.knownType path with
    | some (type, implied) => some (result type (if matched.isEmpty then implied else stages))
    | none =>
      if !stages.isEmpty then some (result .javascript stages)
      else if s.copyUnknown then some (result .raw stages)
      else none

end RuleSet

end WebBundle

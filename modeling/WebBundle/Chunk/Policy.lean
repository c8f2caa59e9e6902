import WebBundle.Config.Options
import WebBundle.Graph.Module
import WebBundle.Pattern.Option

namespace WebBundle

/-- A splitting policy. -/
structure Policy where
  key : String
  /-- The name of the one chunk that takes all modules. -/
  name : Option String := none
  test : Option Pattern := none
  type : Option ResourceType := none
  selection : ChunkSelection
  /-- In how many chunks a module must be. -/
  minChunks : Nat
  /-- How large the modules must be together. -/
  minSize : Nat
  maxAsyncRequests : Nat
  maxInitialRequests : Nat
  priority : Int := 0
  /-- Whether sizes and request limits do not count. -/
  enforce : Bool := false
  /-- Whether a chunk that has just the right modules is used instead of a new one. -/
  reuse : Bool := false

namespace Policy

/-- Whether a policy looks at the chunks of boundaries of a kind. -/
def selects (p : Policy) (initial : Bool) : Bool :=
  match p.selection with
  | .all => true
  | .initial => initial
  | .async => !initial

def isOfType (m : Module) : ResourceType → Bool
  | .style => m.isStyle
  | .javascript => m.artifact.kind == .script && !m.type.isResource
  | .raw => m.type == .raw
  | .asset | .assetInline | .assetResource =>
    match m.type with
    | .asset .. => true
    | _ => false

/-- Whether a policy is meant for a module. -/
def accepts (p : Policy) (m : Module) : Bool :=
  p.test.all (·.matchesPath m.path) && p.type.all (isOfType m)

/-- How many chunks a boundary may load. -/
def requestLimit (p : Policy) (initial : Bool) : Nat :=
  if initial then p.maxInitialRequests else p.maxAsyncRequests

end Policy

/-- The settled options of chunk splitting. -/
structure Splitting where
  /-- Policies in the order in which they are applied. -/
  policies : List Policy
  minRemainingSize : Nat
  /-- From this size on neither request limits nor remaining sizes count. -/
  enforceSizeThreshold : Nat

namespace Splitting

def option (name : String) : String := "optimization.splitChunks." ++ name

/-- A limit, which must be positive. -/
def positive (name : String) (value : Nat) : Except ConfigError Nat :=
  if value = 0 then .error (.zeroLimit (option name)) else .ok value

/-- The policy of a cache group, which takes from the general options what it does not say. -/
def groupPolicy (o : SplitOptions) (mode : Mode) (group : CacheGroup) : Except ConfigError Policy := do
  let name := "cacheGroups." ++ group.key ++ "."
  let test ← group.test.mapM (Pattern.ofOption (option (name ++ "test")))
  let minChunks ← positive (name ++ "minChunks") (group.minChunks.getD o.minChunks)
  let maxAsyncRequests ← positive (name ++ "maxAsyncRequests")
    (group.maxAsyncRequests.getD o.maxAsyncRequests)
  let maxInitialRequests ← positive (name ++ "maxInitialRequests")
    (group.maxInitialRequests.getD o.maxInitialRequests)
  return {
    key := group.key
    name := group.name
    test
    type := group.type
    selection := group.chunks.getD o.chunks
    minChunks
    minSize := group.minSize.getD (o.minSizeFor mode)
    maxAsyncRequests
    maxInitialRequests
    priority := group.priority
    enforce := group.enforce
    reuse := group.reuseExistingChunk }

/-- The policies of cache groups, no two of which may have one key. -/
def groupPolicies (o : SplitOptions) (mode : Mode) :
    (seen : List String) → List CacheGroup → Except ConfigError (List Policy)
  | _, [] => .ok []
  | seen, group :: rest => do
    if seen.contains group.key then throw (.duplicateCacheGroup group.key)
    else return (← groupPolicy o mode group) :: (← groupPolicies o mode (group.key :: seen) rest)

/-- The cache groups, with the usual one of packages behind them unless there is one of its key. -/
def groups (o : SplitOptions) : List CacheGroup :=
  if o.defaultVendors && !o.cacheGroups.any (·.key == SplitOptions.vendors.key) then
    o.cacheGroups ++ [SplitOptions.vendors]
  else o.cacheGroups

/-- The policy for all shared modules, which comes last. -/
def sharedPolicy (o : SplitOptions) (mode : Mode) : Policy where
  key := "default"
  selection := o.chunks
  minChunks := o.minChunks
  minSize := o.minSizeFor mode
  maxAsyncRequests := o.maxAsyncRequests
  maxInitialRequests := o.maxInitialRequests
  reuse := true

/-- The splitting that options ask for. Policies of higher priority come first, and those of one priority
in declared order. -/
def ofOptions (o : SplitOptions) (mode : Mode) : Except ConfigError Splitting := do
  let _ ← positive "minChunks" o.minChunks
  let _ ← positive "maxAsyncRequests" o.maxAsyncRequests
  let _ ← positive "maxInitialRequests" o.maxInitialRequests
  let policies ← groupPolicies o mode [] (groups o)
  let ordered := policies.mergeSort fun a b => b.priority ≤ a.priority
  return {
    policies := if o.defaultGroup then ordered ++ [sharedPolicy o mode] else ordered
    minRemainingSize := o.minRemainingSizeFor mode
    enforceSizeThreshold := o.enforceSizeThreshold }

end Splitting

end WebBundle

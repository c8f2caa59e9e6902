import WebBundle.Transform.Basic

/-!
Chains of transforms. The last declared stage sees the input first, and each stage works on what the
stage declared after it made. A stage that fails stops the chain unless it is optional, in which case it
is skipped.
-/

namespace WebBundle

/-- A stage of a chain. -/
structure Stage where
  transform : Transform
  optional : Bool := false

/-- The name by which a cache knows a stage. -/
def Stage.identity (s : Stage) : String :=
  if s.optional then s.transform.identity ++ "?" else s.transform.identity

/-- Stages in declared order. -/
structure Chain where
  declared : List Stage := []

/-- An optional stage that failed. -/
structure Skipped where
  stage : String
  message : String
  deriving DecidableEq, Repr

/-- What a chain makes of an artifact: the last primary artifact, and the side artifacts and skipped stages
in the order in which they came about. -/
structure ChainOutput where
  primary : Artifact
  side : List Artifact := []
  skipped : List Skipped := []
  deriving DecidableEq

/-- Why a chain stopped. -/
inductive ChainError where
  | cancelled
  | stage (name : String) (error : TransformError)
  deriving DecidableEq, Repr

namespace Chain

def executionOrder (chain : Chain) : List Stage := chain.declared.reverse

/-- The stages in the order in which they run, as one text. -/
def identity (chain : Chain) : String :=
  String.intercalate ">" (chain.executionOrder.map Stage.identity)

/-- Runs one stage on the output of those before it. -/
def runStage (path : Path) (cancelled : Bool) (done : ChainOutput) (stage : Stage) :
    Except ChainError ChainOutput :=
  if cancelled then .error .cancelled
  else
    match @Transform.apply stage.transform path done.primary with
    | .ok out => .ok { done with primary := out.primary, side := done.side ++ out.side }
    | .error error =>
      if stage.optional then
        .ok { done with skipped := done.skipped ++ [⟨stage.transform.name, error.message⟩] }
      else .error (.stage stage.transform.name error)

def runStages (path : Path) (cancelled : Bool) :
    List Stage → ChainOutput → Except ChainError ChainOutput
  | [], done => .ok done
  | stage :: rest, done =>
    match runStage path cancelled done stage with
    | .ok done => runStages path cancelled rest done
    | .error error => .error error

/-- Runs a chain on what the file at a path holds. A cancelled run stops before its first stage. -/
def execute (chain : Chain) (input : Artifact) (path : Path) (cancelled : Bool := false) :
    Except ChainError ChainOutput :=
  runStages path cancelled chain.executionOrder { primary := input }

end Chain

end WebBundle

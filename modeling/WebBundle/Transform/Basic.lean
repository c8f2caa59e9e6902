import WebBundle.Artifact
import WebBundle.Json.Printer
import WebBundle.Json.Reader
import WebBundle.Path

namespace WebBundle

/-- Why a transform refused its input. -/
inductive TransformError where
  | notText
  | unexpectedKind (expected actual : ArtifactKind)
  | notJson
  /-- A reason of the transform's own. -/
  | failed (reason : String)
  deriving DecidableEq, Repr

def TransformError.message : TransformError → String
  | .notText => "input is not valid UTF-8"
  | .unexpectedKind expected actual =>
    "expected " ++ expected.name ++ " input, got " ++ actual.name
  | .notJson => "parse error"
  | .failed reason => reason

/-- What a transform makes of an artifact. -/
structure TransformOutput where
  primary : Artifact
  /-- Artifacts that become modules of their own. -/
  side : List Artifact := []
  deriving DecidableEq

/-- A named transform. A new version stands for new output of the same input. The path of the file is there
for diagnostics: caches go by content, and are right only if the output does not depend on it. -/
structure Transform where
  name : String
  version : String
  apply : {_path : Path} → Artifact → Except TransformError TransformOutput

namespace Transform

/-- Name and version, by which caches know a transform. -/
def identity (t : Transform) : String := t.name ++ "@" ++ t.version

/-- The text of an artifact, for transforms that need one. -/
def textOf (input : Artifact) : Except TransformError String :=
  match input.text? with
  | some text => .ok text
  | none => .error .notText

def exporting (expression : String) : Artifact :=
  .ofText .script ("module.exports = " ++ expression ++ ";")

def unchanged : Transform where
  name := "identity"
  version := "1.0.0"
  apply input := .ok { primary := input }

def raw : Transform where
  name := "raw"
  version := "1.0.0"
  apply input := (textOf input).map fun text => { primary := exporting (Json.quote text) }

/-- The value of a JSON document, each key of an object once and in order. -/
def documentOf (input : Artifact) : Except TransformError Json :=
  match input.text?.bind Json.parse? with
  | some value => .ok value.sorted
  | none => .error .notJson

def json : Transform where
  name := "json"
  version := "1.0.0"
  apply input := (documentOf input).map fun value => { primary := exporting value.compact }

/-- Sets a stylesheet apart and leaves an empty script. -/
def extractCss : Transform where
  name := "extract-css"
  version := "1.0.0"
  apply input :=
    if input.kind = .style then .ok { primary := .ofText .script "", side := [input] }
    else .error (.unexpectedKind .style input.kind)

/-- The transforms that every registry starts with. -/
def builtins : List Transform := [unchanged, raw, json, extractCss]

end Transform

end WebBundle

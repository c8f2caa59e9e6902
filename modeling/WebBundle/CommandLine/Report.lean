import WebBundle.Build.Basic

namespace WebBundle.CommandLine

/-- What a command leaves behind: its exit code and its output. -/
structure Reply where
  exit : UInt8
  stdout : String := ""
  stderr : String := ""
  deriving DecidableEq, Repr

/-- A reply that reports a failure and its causes. -/
def Reply.failure (causes : List String) : Reply :=
  { exit := 1, stderr := "❌ " ++ String.intercalate ": " causes ++ "\n" }

/-- The error of a build and what caused it. -/
def causes (e : BuildError) : List String :=
  e.message :: match e with
    | .config error => [error.message]
    | .transform _ _ error => [error.message]
    | .store error => [error.message]
    | _ => []

/-- A quotient rounded to the nearest number; halves go to the even neighbour. -/
def roundDiv (n d : Nat) : Nat :=
  let q := n / d
  let rest := n % d
  if d < 2 * rest ∨ (2 * rest = d ∧ q % 2 = 1) then q + 1 else q

/-- A size in bytes, or from 1024 on in units of that with one decimal. -/
def sizeText (bytes : Nat) : String :=
  if bytes < 1024 then toString bytes ++ " B"
  else
    let tenths := roundDiv (bytes * 10) 1024
    toString (tenths / 10) ++ "." ++ toString (tenths % 10) ++ " KiB"

/-- Blanks that bring a text to a width. -/
def blanks (width : Nat) (text : String) : String :=
  String.ofList (List.replicate (width - text.toList.length) ' ')

def fileLine (width : Nat) (name : String) (content : ByteArray) : String :=
  let size := sizeText content.size
  "  " ++ name ++ blanks width name ++ "  " ++ blanks 10 size ++ size ++ "\n"

/-- The lines of the files; the longest name sets the width. -/
def fileLines (files : OutputFiles) : String :=
  let width := (files.keys.map String.utf8ByteSize).foldl max 0
  String.join (files.entries.map fun (name, content) => fileLine width name content)

def statsLine (s : BuildStats) : String :=
  toString s.modules ++ " modules, " ++ toString s.chunks ++ " chunks, " ++ toString s.files ++
    " files (cache: " ++ toString s.cacheHits ++ " hits, " ++ toString s.cacheMisses ++ " misses)\n"

/-- The line that says what became of the output. -/
def outcomeLine (outputDir : Path) (written : Bool) : String :=
  if written then "✅ Output written to " ++ outputDir.text ++ "\n"
  else "✅ Build succeeded (dry run, nothing written)\n"

/-- A reply that reports a successful build. -/
def Reply.success (r : BuildResult) (outputDir : Path) (written : Bool) : Reply where
  exit := 0
  stdout := fileLines r.files ++ statsLine r.stats ++ outcomeLine outputDir written
  stderr := String.join (r.warnings.map fun w => "⚠️  " ++ w.message ++ "\n")

end WebBundle.CommandLine

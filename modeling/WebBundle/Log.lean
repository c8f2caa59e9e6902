import WebBundle.Text.Classes

namespace WebBundle.Log

/-- Log levels, from the fewest messages to the most. -/
inductive Level where
  | error
  | warn
  | info
  | debug
  | trace
  deriving DecidableEq, Repr

namespace Level

def all : List Level := [.error, .warn, .info, .debug, .trace]

def name : Level → String
  | .error => "ERROR"
  | .warn => "WARN"
  | .info => "INFO"
  | .debug => "DEBUG"
  | .trace => "TRACE"

/-- The number of a level; a greater number lets more messages pass. -/
def rank : Level → Nat
  | .error => 1
  | .warn => 2
  | .info => 3
  | .debug => 4
  | .trace => 5

def upperAscii (c : Char) : Char :=
  if 'a' ≤ c && c ≤ 'z' then Char.ofNat (c.toNat - 32) else c

/-- The number that a text writes in ASCII digits, which a plus sign may precede. -/
def number? (text : List Char) : Option Nat :=
  let digits := match text with
    | '+' :: rest => rest
    | _ => text
  if digits ≠ [] && digits.all Text.isAsciiDigit then
    some (digits.foldl (fun n c => n * 10 + (c.toNat - 48)) 0)
  else none

/-- The level that a text names, by its name in letters of any case or by its number. -/
def parse? (text : String) : Option Level :=
  match (number? text.toList).bind fun n => all.find? fun level => level.rank == n with
  | some level => some level
  | none => all.find? fun level => level.name == String.ofList (text.toList.map upperAscii)

end Level

/-- The phases of a build. -/
inductive Phase where
  | resolve
  | transform
  | graph
  | split
  | emit
  deriving DecidableEq, Repr

namespace Phase

def all : List Phase := [.resolve, .transform, .graph, .split, .emit]

def name : Phase → String
  | .resolve => "resolve"
  | .transform => "transform"
  | .graph => "graph"
  | .split => "split"
  | .emit => "emit"

/-- The name under which the messages of a phase are logged. -/
def target (p : Phase) : String := "sheaf::" ++ p.name

end Phase

/-- The name under which the messages of the command line are logged. -/
def commandTarget : String := "sheaf::cli"

/-- Why a setting of a phase's level was refused. -/
inductive SettingError where
  | noEquals (text : String)
  | unknownPhase (name : String)
  | unknownLevel (name : String)
  deriving DecidableEq, Repr

def SettingError.message : SettingError → String
  | .noEquals text => "expected PHASE=LEVEL, got '" ++ text ++ "'"
  | .unknownPhase name =>
    "unknown phase '" ++ name ++ "' (expected one of " ++
      String.intercalate ", " (Phase.all.map Phase.name) ++ ")"
  | .unknownLevel name => "invalid log level '" ++ name ++ "'"

def trim (text : List Char) : List Char :=
  ((text.dropWhile Text.isSpace).reverse.dropWhile Text.isSpace).reverse

/-- Reads a setting such as `split=debug`; blanks around the two names do not matter. -/
def parseSetting (text : String) : Except SettingError (Phase × Level) :=
  let chars := text.toList
  match chars.dropWhile (· != '=') with
  | [] => .error (.noEquals text)
  | _ :: level =>
    let phase := chars.takeWhile (· != '=')
    match Phase.all.find? fun p => p.name == String.ofList (trim phase) with
    | none => .error (.unknownPhase (String.ofList phase))
    | some p =>
      match Level.parse? (String.ofList (trim level)) with
      | none => .error (.unknownLevel (String.ofList level))
      | some l => .ok (p, l)

/-- The level of the program and those of the phases that have one of their own, the latest setting
first. -/
structure Levels where
  general : Level := .info
  own : List (Phase × Level) := []
  deriving DecidableEq, Repr

namespace Levels

def set (levels : Levels) (setting : Phase × Level) : Levels :=
  { levels with own := setting :: levels.own }

def levelFor (levels : Levels) (p : Phase) : Level := (levels.own.lookup p).getD levels.general

def targets (levels : Levels) : List (String × Level) :=
  (Phase.all.map fun p => (p.target, levels.levelFor p)) ++ [(commandTarget, levels.general)]

def longer (a b : String × Level) : String × Level := if a.1.length < b.1.length then b else a

/-- The level of a target: of the known targets that begin it the longest decides. -/
def levelOf (levels : Levels) (target : String) : Level :=
  match levels.targets.filter fun t => t.1.toList.isPrefixOf target.toList with
  | [] => levels.general
  | first :: rest => (rest.foldl longer first).2

def enables (levels : Levels) (target : String) (level : Level) : Bool :=
  level.rank ≤ (levels.levelOf target).rank

end Levels

end WebBundle.Log

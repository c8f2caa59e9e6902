import WebBundle.Config.Options
import WebBundle.Log

/-!
The arguments of the command line: at most one configuration file, and options. An option and its value are
two arguments or one with `=` between them; behind `--` all arguments are files.
-/

namespace WebBundle.CommandLine

/-- How log messages look. -/
inductive LogFormat where
  | pretty
  | compact
  | json
  deriving DecidableEq, Repr

def LogFormat.all : List LogFormat := [.pretty, .compact, .json]

def LogFormat.name : LogFormat → String
  | .pretty => "pretty"
  | .compact => "compact"
  | .json => "json"

/-- What a build is asked for. -/
structure Request where
  /-- The configuration file, unless it is the usual one. -/
  config : Option Path := none
  mode : Option Mode := none
  logLevel : Log.Level := .warn
  /-- The levels of single phases, the latest first. -/
  phaseLevels : List (Log.Phase × Log.Level) := []
  logFormat : LogFormat := .compact
  logFile : Option Path := none
  /-- Whether nothing is written. -/
  dryRun : Bool := false
  /-- The options that were given, which may not be given again. -/
  given : List String := []

def Request.configPath (r : Request) : Path := r.config.getD ⟨"sheaf.json"⟩

/-- What the program is asked for. -/
inductive Command where
  | version
  | help
  | build (request : Request)

/-- Why arguments were refused. -/
inductive UsageError where
  | unexpected (argument : String)
  | repeated (option : String)
  | noValue (option : String)
  | invalidValue (option value : String)
  deriving DecidableEq, Repr

def UsageError.message : UsageError → String
  | .unexpected argument => "error: unexpected argument '" ++ argument ++ "' found"
  | .repeated option => "error: the argument '" ++ option ++ "' cannot be used multiple times"
  | .noValue option => "error: a value is required for '" ++ option ++ "' but none was supplied"
  | .invalidValue option value => "error: invalid value '" ++ value ++ "' for '" ++ option ++ "'"

namespace Request

def once (r : Request) (option : String) : Except UsageError Request :=
  if r.given.contains option then .error (.repeated option)
  else .ok { r with given := option :: r.given }

def valueOf {α : Type} (option text : String) : Option α → Except UsageError α
  | some value => .ok value
  | none => .error (.invalidValue option text)

/-- A path, which may not be empty. -/
def path? (text : String) : Option Path := if text.isEmpty then none else some ⟨text⟩

def set (r : Request) (option text : String) : Except UsageError Request :=
  match option with
  | "--mode" => do
    let mode ← valueOf option text ([Mode.development, .production].find? fun mode => mode.name == text)
    return { ← r.once option with mode := some mode }
  | "--log-level" => do
    let level ← valueOf option text (Log.Level.parse? text)
    return { ← r.once option with logLevel := level }
  | "--log" =>
    match Log.parseSetting text with
    | .ok setting => .ok { r with phaseLevels := setting :: r.phaseLevels }
    | .error _ => .error (.invalidValue option text)
  | "--log-format" => do
    let format ← valueOf option text (LogFormat.all.find? fun format => format.name == text)
    return { ← r.once option with logFormat := format }
  | "--log-file" => do
    let file ← valueOf option text (path? text)
    return { ← r.once option with logFile := some file }
  | _ => .error (.unexpected option)

def setConfig (r : Request) (text : String) : Except UsageError Request :=
  match r.config, path? text with
  | some _, _ => .error (.unexpected text)
  | none, some path => .ok { r with config := some path }
  | none, none => .error (.invalidValue "CONFIG" text)

/-- Sets the configuration file to each of some arguments, of which there may be one. -/
def setConfigs (r : Request) : List String → Except UsageError Request
  | [] => .ok r
  | text :: rest => do (← r.setConfig text).setConfigs rest

end Request

def valued : List String := ["--mode", "--log-level", "--log", "--log-format", "--log-file"]

/-- Whether an argument is an option. A lone hyphen is none. -/
def isOption (argument : String) : Bool := argument.toList.head? == some '-' && argument != "-"

/-- An argument before and behind its first equals sign. -/
def splitValue (argument : String) : String × Option String :=
  let name := argument.toList.takeWhile (· != '=')
  match argument.toList.drop name.length with
  | [] => (argument, none)
  | _ :: value => (String.ofList name, some (String.ofList value))

def parseFrom : Request → List String → Except UsageError Command
  | r, [] => .ok (.build r)
  | r, argument :: rest =>
    if argument = "--" then (r.setConfigs rest).map Command.build
    else if !isOption argument then (r.setConfig argument).bind fun r => parseFrom r rest
    else if argument = "--version" ∨ "-V".toList.isPrefixOf argument.toList then .ok .version
    else if argument = "--help" ∨ "-h".toList.isPrefixOf argument.toList then .ok .help
    else if argument = "--dry-run" then
      (r.once argument).bind fun r => parseFrom { r with dryRun := true } rest
    else
      match splitValue argument with
      | (option, some value) => (r.set option value).bind fun r => parseFrom r rest
      | (option, none) =>
        if !valued.contains option then .error (.unexpected option)
        else
          match rest with
          | [] => .error (.noValue option)
          | value :: rest =>
            if isOption value then .error (.noValue option)
            else (r.set option value).bind fun r => parseFrom r rest

def parse (arguments : List String) : Except UsageError Command := parseFrom {} arguments

end WebBundle.CommandLine

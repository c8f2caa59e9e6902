import WebBundle.CommandLine.Arguments
import WebBundle.CommandLine.Report
import WebBundle.Config.Reader

namespace WebBundle.CommandLine

variable {m : Type → Type} [Monad m]

def versionText : String := "sheaf 0.1.0\n"

def helpText : String := String.intercalate "\n" [
  "Sheaf module bundler - Project-based builds",
  "",
  "Usage: sheaf [OPTIONS] [CONFIG]",
  "",
  "Arguments:",
  "  [CONFIG]  Configuration file path (default: ./sheaf.json) [default: sheaf.json]",
  "",
  "Options:",
  "      --mode <MODE>              Override the configured mode [possible values: development, production]",
  "      --log-level <LOG_LEVEL>    Global log level: error, warn, info, debug, trace [default: warn]",
  "      --log <PHASE=LEVEL>        Per-phase log level, e.g. \x60--log split=debug\x60 (repeatable)",
  "      --log-format <LOG_FORMAT>  [default: compact] [possible values: pretty, compact, json]",
  "      --log-file <FILE>          Also append logs to this file",
  "      --dry-run                  Build without writing the output directory",
  "  -h, --help                     Print help",
  "  -V, --version                  Print version",
  ""]

/-- Makes sure that the log file is there. The directory that holds it is not made. -/
def openLog (fs : FileSystem m) (cwd : Path) : Option Path → m (Except Reply Unit)
  | none => return .ok ()
  | some file => do
    let path := cwd.join file
    if ← fs.isFile path then return .ok ()
    else if ← fs.isDir (path.parent.getD cwd) then
      match ← fs.write path ByteArray.empty with
      | .ok () => return .ok ()
      | .error e => return .error (.failure ["无法打开日志文件 '" ++ file.text ++ "'", e.message])
    else return .error (.failure ["无法打开日志文件 '" ++ file.text ++ "'",
      (StoreError.notFound path.text).message])

/-- The reply to a configuration file that is not there. -/
def missingConfig (path : Path) : Reply :=
  .failure ["未找到 '" ++ path.text ++ "'\n\n当前目录不是一个 Sheaf 项目。\n提示: 创建 '" ++ path.text ++
    "' 文件并指定 'entry' 字段"]

/-- Reads a configuration file. A relative context is seen from the directory of the file. -/
def loadConfig (fs : FileSystem m) (cwd path : Path) : m (Except Reply Config) := do
  let place := cwd.join path
  if !((← fs.isFile place) || (← fs.isDir place)) then return .error (missingConfig path)
  else
    match ← fs.read place with
    | .error e => return .error (.failure ["无法读取 '" ++ path.text ++ "'", e.message])
    | .ok content =>
      match Text.text? content with
      | none => return .error (.failure ["无法读取 '" ++ path.text ++ "'", "the file is not valid UTF-8"])
      | some text =>
        match Config.parse? text with
        | none => return .error (.failure ["解析 '" ++ path.text ++ "' 失败", "not a valid configuration"])
        | some c =>
          let base := match path.parent with
            | some dir => cwd.join dir
            | none => cwd
          return .ok { c with context := base.join c.context }

/-- Builds a configuration, and writes the output unless it is a dry run. -/
def buildConfig (fs : FileSystem m) (c : Config) (dryRun : Bool) : m Reply := do
  let action : BuildM m BuildResult :=
    if dryRun then Build.build c Registry.builtins fs.toFileView else Build.run c Registry.builtins fs
  match (← action.run.run (Build.freshCache c)).1 with
  | .ok result => return .success result c.outputDir (!dryRun)
  | .error e => return .failure ("构建失败" :: causes e)

def executeBuild (fs : FileSystem m) (cwd : Path) (request : Request) : m Reply := do
  match ← openLog fs cwd request.logFile with
  | .error reply => return reply
  | .ok () =>
    match ← loadConfig fs cwd request.configPath with
    | .error reply => return reply
    | .ok c => buildConfig fs { c with mode := request.mode.getD c.mode } request.dryRun

/-- Executes the command that arguments give. -/
def execute (fs : FileSystem m) (cwd : Path) (arguments : List String) : m Reply :=
  match parse arguments with
  | .error e => return { exit := 2, stderr := e.message ++ "\n" }
  | .ok .version => return { exit := 0, stdout := versionText }
  | .ok .help => return { exit := 0, stdout := helpText }
  | .ok (.build request) => executeBuild fs cwd request

end WebBundle.CommandLine

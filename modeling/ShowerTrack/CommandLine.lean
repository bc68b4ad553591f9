import ShowerTrack.Run

/-!
# The command line

The path of a configuration is given by an option; the command `new` writes a template
there, and without a command the configuration is run.
-/

set_option autoImplicit false

namespace ShowerTrack

inductive Invocation where
  | help
  | helpNew
  | helpHelp
  | refused
  | template (path : Option String)
  | run (path : Option String)
  deriving DecidableEq, Repr

namespace Invocation

def ofNew (path : Option String) : List String → Invocation
  | [] => template path
  | ["--"] => template path
  | arg :: _ => if arg == "--help" || arg.startsWith "-h" then helpNew else refused

def ofHelp : List String → Invocation
  | [] => help
  | ["new"] => helpNew
  | ["help"] => helpHelp
  | _ => refused

def isOption (arg : String) : Bool := arg.startsWith "-" && arg != "-"

def inlineValue? (arg : String) : Option String :=
  if arg.startsWith "--path=" then some (arg.drop 7).toString
  else if arg.startsWith "-p=" then some (arg.drop 3).toString
  else if arg.startsWith "-p" && arg != "-p" then some (arg.drop 2).toString
  else none

/-- Reads arguments from left to right. The path must not be given twice. -/
def read (path : Option String) : List String → Invocation
  | [] => if path.isSome then run path else refused
  | ["--"] => if path.isSome then run path else refused
  | arg :: args =>
    if arg == "new" then ofNew path args
    else if arg == "help" then ofHelp args
    else if arg == "--help" || arg.startsWith "-h" then help
    else
      match inlineValue? arg with
      | some value => if path.isSome then refused else read (some value) args
      | none =>
        if arg == "--path" || arg == "-p" then
          match args with
          | value :: args =>
            if path.isSome || isOption value then refused else read (some value) args
          | [] => refused
        else refused

def ofArguments (args : List String) : Invocation := read none args

def isSilent : Invocation → Bool
  | template _ => false
  | run _ => false
  | _ => true

end Invocation

structure Outcome where
  exitCode : UInt8
  log : Option (List LogLine)
  output : List String
  folder : Folder

namespace CommandLine

def logName : String := "prad_recon.log"

def logText (created : String) (line : LogLine) : String :=
  "[" ++ created ++ "] - [" ++ line.severity.label ++ "] - " ++ line.text ++ "\n"

def helpText : List String :=
  ["Usage: prad_recon_cli [OPTIONS] [COMMAND]", "", "Commands:",
    "  new   Make a template configuration yaml file",
    "  help  Print this message or the help of the given subcommand(s)", "", "Options:",
    "  -p, --path <path>  Path to the file", "  -h, --help         Print help"]

def helpNewText : List String :=
  ["Make a template configuration yaml file", "", "Usage: prad_recon_cli new", "", "Options:",
    "  -h, --help  Print help"]

def helpHelpText : List String :=
  ["Print this message or the help of the given subcommand(s)", "",
    "Usage: prad_recon_cli help [COMMAND]...", "", "Arguments:",
    "  [COMMAND]...  Print help for the subcommand(s)"]

def printed (folder : Folder) (lines : List String) : Outcome := ⟨0, none, lines, folder⟩

def logged (folder : Folder) (lines : List LogLine) : Outcome := ⟨0, some lines, [], folder⟩

/-- Performs a call whose log, started with a first line, is a file of the folder. There
is no call if the log has no place. -/
def withLog (created : String) (folder : Folder) (first : LogLine)
    (call : Folder → Outcome) : Outcome :=
  if folder.isDirectory ⟨false, [logName]⟩ then printed folder []
  else
    let o := call (folder.put logName (.text (logText created first)))
    { o with folder := o.folder.erase logName }

def noPath (created : String) (folder : Folder) : Outcome :=
  let begun : LogLine := ⟨.error, "A configuration path is required (--path)"⟩
  withLog created folder begun fun folder => logged folder [begun]

def writeTemplate (created : String) (folder : Folder) (path : String) : Outcome :=
  let begun : LogLine := ⟨.info, "Making a template config at " ++ path ++ "..."⟩
  withLog created folder begun fun folder =>
    match folder.write path Config.templateText with
    | .ok folder =>
      { logged folder [begun] with output := ["Wrote template config to " ++ path] }
    | .error fault =>
      logged folder [begun, ⟨.error, "Could not write template config: " ++ fault.text⟩]

def pathLine (title : String) (path : Option String) : List LogLine :=
  (path.map fun p => ⟨.info, title ++ ": " ++ p⟩).toList

def configLines (c : Config) : List LogLine :=
  [⟨.info, "Config successfully loaded."⟩] ++ pathLine "Event Path" c.eventPath ++
    pathLine "Output Path" c.outputPath ++ pathLine "Reconstruction Settings" c.settingsPath ++
    pathLine "Coordinates" c.framePath ++ pathLine "Calibration" c.calibrationPath ++
    pathLine "Pedestals" c.pedestalPath ++
    [⟨.info, "Run: " ++ toString c.run ++ " Pedestal Run: " ++
      (if c.isPedestalRun then "true" else "false") ++ " Workers: " ++ toString c.workers⟩]

def finalLines : Except RunError Unit → List LogLine
  | .ok _ => [⟨.info, "Successfully reconstructed data!"⟩, ⟨.info, "Done."⟩]
  | .error e =>
    [⟨.error, "Reconstruction failed with error: " ++ e.message⟩, ⟨.info, "Done."⟩]

def runConfig (created : String) (folder : Folder) (path : String) : Outcome :=
  let begun : LogLine := ⟨.info, "Loading config from " ++ path ++ "..."⟩
  withLog created folder begun fun folder =>
    match folder.loadAs .configuration path Config.read? with
    | .error e => logged folder [begun, ⟨.error, e.message⟩]
    | .ok c =>
      let (result, session) := c.perform created folder
      logged session.folder ([begun] ++ configLines c ++ session.log ++ finalLines result)

def run (created : String) (folder : Folder) : Invocation → Outcome
  | .help => printed folder helpText
  | .helpNew => printed folder helpNewText
  | .helpHelp => printed folder helpHelpText
  | .refused => ⟨2, none, [], folder⟩
  | .template none => noPath created folder
  | .template (some path) => writeTemplate created folder path
  | .run none => noPath created folder
  | .run (some path) => runConfig created folder path

def paths (folder : Folder) : Invocation → List String
  | .template (some path) => [path]
  | .run (some path) =>
    match folder.loadAs .configuration path Config.read? with
    | .ok c => path :: c.eventPath :: c.outputPath ::
        (c.settingsPath.toList ++ c.framePath.toList ++ c.calibrationPath.toList ++
          c.pedestalPath.toList)
    | .error _ => [path]
  | _ => []

end CommandLine

end ShowerTrack

import ShowerTrack.CommandLine
import ShowerTrack.Text.Timestamp

/-!
# The program

Gathers the files that a call may touch, performs the call, and puts its results into
the working directory, on the terminal and into the log.
-/

set_option autoImplicit false

namespace ShowerTrack.Main

open CommandLine (logName logText)

def entry? (path : String) : IO (Option FileEntry) := do
  let place := (← IO.currentDir) / path
  if ← place.isDir then return some .directory
  if !(← place.pathExists) then return none
  try
    let bytes ← IO.FS.readBinFile path
    return some (match String.fromUTF8? bytes with
      | some text => .text text
      | none => .binary bytes.size)
  catch _ => return none

def gather (folder : Folder) (path : String) : IO Folder := do
  match Path.ofString path with
  | .error _ => return folder
  | .ok p =>
    p.places.foldlM (fun folder place => do
      if place.isAbove then return folder
      match ← entry? place.name with
      | some entry => return folder.put place.name entry
      | none => return folder) folder

/-- Starts the log afresh. Gives the time at which it was started. -/
def startLog : IO (Nat × Nat) := do
  IO.FS.writeFile logName ""
  let time := (← ((← IO.currentDir) / logName).metadata).modified
  return (time.sec.toNat, time.nsec.toNat)

def writeLog (created : String) (lines : List LogLine) : IO Unit := do
  IO.FS.writeFile logName (String.join (lines.map (logText created)))
  for line in lines do
    if line.severity.isProblem then IO.print (logText created line)

def writeFiles (before after : Folder) : IO Unit := do
  for (name, entry) in after.entries do
    if let .text content := entry then
      if before.entry? name != some entry then IO.FS.writeFile name content

def perform (invocation : Invocation) (created : String) : IO Outcome := do
  let first ← (CommandLine.paths .empty invocation).foldlM gather .empty
  let folder ← (CommandLine.paths first invocation).foldlM gather first
  let outcome := CommandLine.run created folder invocation
  writeFiles folder outcome.folder
  return outcome

end ShowerTrack.Main

open ShowerTrack in
def main (args : List String) : IO UInt32 := do
  let invocation := Invocation.ofArguments args
  if invocation.isSilent then
    let outcome := CommandLine.run "" .empty invocation
    outcome.output.forM IO.println
    return outcome.exitCode.toUInt32
  let (seconds, nanos) ← Main.startLog
  let created := Text.timestamp seconds nanos
  let outcome ← Main.perform invocation created
  Main.writeLog created (outcome.log.getD [])
  outcome.output.forM IO.println
  return outcome.exitCode.toUInt32

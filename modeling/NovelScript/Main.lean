import NovelScript.Command.Line
import Std.Time.Format

/-!
# The program

The outer layer: it brings the files that a command line names from the file system onto a `Disk`,
runs the command there, carries what changed back, and writes to the terminal.
-/

set_option autoImplicit false

namespace NovelScript.Program

open Command

/-- What the file system has at a path from the root. -/
def readNode (path : String) : IO (Option Node) := do
  try
    let real ← IO.FS.realPath path
    if ← real.isDir then return some .directory
    if ← real.pathExists then return some (.file (← IO.FS.readBinFile real).toList)
    return none
  catch _ => return none

/-- Brings the nodes at a path and above it onto the disk. -/
def capture (d : Disk) (path : FilePath) : IO Disk := do
  let place := d.resolve path
  let mut d := d
  for n in List.range place.length do
    let here := place.take (n + 1)
    if (d.node? here).isNone then
      if let some node ← readNode ((FilePath.fromRoot here).text) then
        d := d.put here node
  return d

/-- The directory that holds the settings of all programs. -/
def configDirectory : IO FilePath := do
  match ← IO.getEnv "XDG_CONFIG_HOME" with
  | some path => if path ≠ "" then return .ofText path
  | none => pure ()
  return (FilePath.ofText ((← IO.getEnv "HOME").getD "/")).child ".config"

/-- Writes a file in one step, by way of a draft beside it. -/
def replaceFile (path draft : String) (content : ByteArray) : IO Unit := do
  IO.FS.writeBinFile draft content
  IO.FS.rename draft path

/-- Carries the directories and files that are new or changed back to the file system. -/
def carryBack (setting : Setting) (old new : Disk) : IO Unit := do
  for (place, node) in new.nodes.mergeSort fun a b => a.1.length ≤ b.1.length do
    unless old.node? place = some node do
      let path := (FilePath.fromRoot place).text
      match node with
      | .directory => IO.FS.createDirAll path
      | .file content =>
        let bytes := ByteArray.mk content.toArray
        if place = new.resolve (Settings.file setting.directory) then
          replaceFile path (Settings.draft setting.directory setting.mark).text bytes
        else IO.FS.writeBinFile path bytes

/-- The time of day as log lines show it. -/
def timeText : IO String := do
  let now ← Std.Time.PlainDateTime.now
  return now.format "uuuu-MM-dd HH:mm:ss,SSS"

/-- Runs a command line and gives the exit status. -/
def run (line : List String) : IO UInt32 := do
  let home := FilePath.ofText (← IO.FS.realPath ".").toString
  let directory := (← configDirectory).child Settings.directoryName
  let mut disk ← capture { home := home.names } home
  disk ← capture disk (Settings.file directory)
  let last := (Settings.load disk directory).1.lastScriptPath
  for path in last :: pathsOf line do
    disk ← capture disk (.ofText path)
  let mark := toString (← IO.rand 0 99999999)
  let setting : Setting := { directory, mark, halves := freeHalves disk line }
  let (verbosity, _) := readLine disk line
  let outcome := Command.run readLine setting disk line
  try carryBack setting disk outcome.disk
  catch e =>
    IO.eprintln ("Error: " ++ toString e)
    return 2
  let output ← IO.getStdout
  let errors ← IO.getStderr
  let time ← timeText
  for e in outcome.emissions do
    output.putStr (e.outText (← output.isTty))
    output.flush
    errors.putStr (e.errText setting.halves (← errors.isTty) (loggingOf verbosity) time)
  if let some complaint := outcome.exit.complaint? setting.halves (← output.isTty) then
    errors.putStrLn complaint
  return outcome.exit.code.toUInt32

end NovelScript.Program

def main (line : List String) : IO UInt32 :=
  NovelScript.Program.run line

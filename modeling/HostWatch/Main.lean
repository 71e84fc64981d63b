import HostWatch.Host.Description
import HostWatch.Json.Tagged
import HostWatch.Program

/-!
# The command

Takes its options from the command line and the description of the host from the standard input.
Only reading and writing happens here: what to do is said by `Program.run`.
-/

namespace HostWatch.Command

/-- Adds a file to a tree, if it can be read. -/
def takeFile (f : Files) (path : String) : IO Files := do
  try
    let bytes ← IO.FS.readBinFile path
    let content := ((String.fromUTF8? bytes).map Content.text).getD (.bytes bytes)
    return f.put (Location.parse path) content
  catch _ => return f

/-- Writes a file of a tree, with the directories that lead to it. -/
def giveFile (path : String) (content : Content) : IO Unit := do
  IO.FS.createDirAll (Location.parse path).parent.display
  match content with
  | .text s => IO.FS.writeFile path s
  | .bytes b => IO.FS.writeBinFile path b

/-- The files that the settings in a tree name, as far as the settings can be read. -/
def namedFiles (places : Settings.Places) (a : Arguments) (f : Files) : List String :=
  match Settings.load places a.config f with
  | .ok (settings, _, _) => settings.paths
  | .error _ => []

/-- Runs the program on the host that the standard input describes. -/
def runOn (a : Arguments) : IO UInt32 := do
  let home := (← IO.getEnv "HOME").getD "/"
  let places := Settings.Places.ofHome home
  let description := (Json.readTagged? (← (← IO.getStdin).readToEnd)).getD .null
  let f ← takeFile {} (places.named a.config).display
  let f ← (namedFiles places a f).foldlM takeFile f
  let h := Host.ofValue home f description
  let once (names : List String) := List.range names.length
  match Program.run a places (Autoruns.folders h.machine) once h with
  | .error fault =>
    IO.eprintln (fault.message Cause.wording)
    return 1
  | .ok done =>
    for s in done.host.journal.printed do IO.print s
    for s in Program.consoleTexts Cause.wording done do IO.eprintln s
    for (path, content) in (Program.filesWithLog Cause.wording done).changedSince h.files do
      giveFile path content
    return done.code.toUInt32

end HostWatch.Command

open HostWatch in
def main (args : List String) : IO UInt32 :=
  match CommandLine.parse args with
  | .run a => Command.runOn a
  | .exit code => do
    IO.eprintln CommandLine.usage
    return code.toUInt32

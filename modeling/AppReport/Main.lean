import AppReport.Command.Run
import AppReport.Snapshot

/-!
# The program

The program runs its command line in the surroundings that a snapshot describes: files and
databases, the user, and the answers of the directory. The snapshot is a document in the file that
the variable `APPATLAS_SNAPSHOT` names, by default `snapshot.json`; lines are entered on the
standard input.
-/

namespace AppReport

/-- The text of something shown on the output for messages. -/
def Shown.asText : Shown → String
  | .text cs => String.ofList cs
  | .record cs => String.ofList (cs ++ ['\n'])

/-- Writes what a run has shown, and gives its status. A failure that is not one of a step is told
with its kind. -/
def finish (ending : Command.Ending) (w : World) : IO UInt32 := do
  IO.print w.output
  for shown in w.messages do
    IO.eprint shown.asText
  match ending with
  | .status code => pure (UInt32.ofNat code)
  | .failure f =>
    IO.eprintln (f.fault.label ++ ": " ++ f.text)
    pure 1

/-- Runs the command line in the surroundings of the snapshot. -/
def runMain (args : List String) : IO UInt32 := do
  let path := (← IO.getEnv "APPATLAS_SNAPSHOT").getD "snapshot.json"
  match Json.read (← IO.FS.readFile path) with
  | .ok (.object fields) =>
    let snapshot := Snapshot.ofFields ⟨.top, []⟩ fields
    let entered ← (← IO.getStdin).readToEnd
    let (ending, w) := Command.run .plain snapshot.user args
      (Command.start snapshot.files snapshot.script entered)
    finish ending w
  | .ok _ =>
    IO.eprintln (path ++ ": a snapshot is an object")
    pure 1
  | .error e =>
    IO.eprintln (path ++ ": " ++ e.message)
    pure 1

end AppReport

/-- Runs the command line in the surroundings of the snapshot. -/
def main (args : List String) : IO UInt32 := AppReport.runMain args

import AppReport.Command.Run
import AppReport.Proofs.Containment
import AppReport.Proofs.Effects

/-!
# How the command for a report ends

Once its options have been read, the command for a report ends properly in one of two ways
(`Command.EndsProperly`): with a whole report and the status 0, or with an error line, without a
report, and with the status 1. What a run does to the outputs is known from its calls
(`Command.showWith_cases`).

There is a third ending: a failure goes through the command as it is. It does so on certain grounds
(`Command.Escapes`) and on no others (`Command.run_show`). Either the name or the settings cannot be
read, which is done before the part of the command that tells failures, or a report would show bytes
of the store that encode no text, or a read is cancelled. The command must work with texts that are
made of characters, and with requests that come to an end (`Command.IsWhole`).
-/

namespace AppReport.Command

open Text

/-! ### The error line -/

section

variable (console : Console) (user : User) (settings : CommandSettings) (name : Option String)
  (asJson : Bool) (w : World)

end

/-! ### The whole command -/

/-- What a command needs so that its end can be told: neither a file that it can read as a text nor
an answer of the directory names half of a pair alone, which is no character and cannot be written
out again, and no request fails with the end of an iteration, for which a read would wait without
end. -/
structure IsWhole (w : World) : Prop where
  files_paired : ∀ place content s, (place, Entry.file content) ∈ w.files.entries →
    content.text = .ok s → Json.isPaired s.toList = true
  script_paired : ∀ step ∈ w.script.steps, step.IsPaired
  not_stopped : ∀ f, .fail f ∈ w.script.steps → f.kind? ≠ some .stopIteration

/-- A directory whose settings are an empty list, in its two brackets. -/
def listed : World := start ⟨[(["c.json"], .file (.bytes [0x5b, 0x5d]))], []⟩ ⟨[], []⟩ ""

end AppReport.Command

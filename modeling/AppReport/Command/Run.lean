import AppReport.Command.ErrorLine
import AppReport.Command.Help
import AppReport.Command.Options
import AppReport.Show
import AppReport.Workspace
import AppReport.World

/-!
# Running a command line

A command line names a command and gives it options. What is wrong with it is told before anything
else is done; a request for help or for the version goes before all other options. The failure of
a step ends the command with an error line, and any other failure goes through as it is.
-/

namespace AppReport.Command

open Text

/-- How a run ends. -/
inductive Ending where
  | status (code : Nat)
  | failure (f : Failure)

/-- The options of groups of commands. -/
inductive GroupOption where
  | version
  | help
  deriving DecidableEq

/-- The options of a report. -/
inductive ShowOption where
  | name
  | json
  | store
  | pipelineUrl
  | config
  | verbose
  | help
  deriving DecidableEq

/-- The options of the program itself. -/
def rootOptions : List (OptionSpec GroupOption) :=
  [⟨.version, none, "--version", false⟩, ⟨.help, some 'h', "--help", false⟩]

/-- The options of the commands about applications. -/
def appOptions : List (OptionSpec GroupOption) := [⟨.help, some 'h', "--help", false⟩]

/-- The options of a report. -/
def showOptions : List (OptionSpec ShowOption) :=
  [⟨.name, some 'n', "--name", true⟩, ⟨.json, none, "--json", false⟩,
    ⟨.store, none, "--store", true⟩, ⟨.pipelineUrl, none, "--pipeline-url", true⟩,
    ⟨.config, none, "--config", true⟩, ⟨.verbose, some 'v', "--verbose", false⟩,
    ⟨.help, some 'h', "--help", false⟩]

/-! ### Outputs -/

/-- Writes a text and ends. -/
def write (text : String) (w : World) : Ending × World :=
  (.status 0, { w with output := w.output ++ text })

/-- The status of a command line that cannot be used. -/
def usageStatus : Nat := 2

/-- Tells a fault of a command line and ends. -/
def refuse (c : CommandName) (fault : UsageFault) (w : World) : Ending × World :=
  let usage := if fault.isBare then "" else c.usage ++ c.hint ++ "\n"
  (.status usageStatus,
    w.tell (withoutEscapes (usage ++ "Error: " ++ fault.message ++ "\n").toList))

/-- Tells the help on a command that needs more words, and ends. -/
def tellHelp (c : CommandName) (w : World) : Ending × World :=
  (.status usageStatus, w.tell c.help.toList)

/-! ### Reports -/

/-- The path of the settings: an explicit one, else that of the environment if there is one. -/
def configOf (user : User) (explicit : Option String) : Option String :=
  match explicit with
  | some s => some s
  | none =>
    match user.configVariable with
    | some s => if s = "" then none else some s
    | none => none

/-- The store of a command, which must be there. -/
def storeOf (user : User) (settings : CommandSettings) : ConfigStore where
  user := user
  path := some settings.store
  options := {
    timeout := some (.fraction settings.storeTimeout)
    writeAhead := some settings.storeOptions.writeAhead
    foreignKeys := some settings.storeOptions.foreignKeys
    mustExist := true
    config := settings.config.map Path.text }

/-- Shows an application with given settings. -/
def showWith (console : Console) (user : User) (settings : CommandSettings)
    (name : Option String) (asJson : Bool) (w : World) : Ending × World :=
  let store := storeOf user settings
  let w := { w with registry := w.registry.get ConfigStore.logger }
  match Showing.run (World.around store settings.client) ⟨.ofName? name, asJson, ⟨w, []⟩⟩ with
  | (.ok (), showing) => (.status 0, showing.session.world)
  | (.error f, showing) =>
    match f.fault with
    | .step _ => (.status 1, showing.session.world.tell (errorLine console f.text))
    | _ => (.failure f, showing.session.world)

/-- Shows an application as options say. -/
def showAs (console : Console) (user : User) (parsed : Parsed ShowOption) (name : Option String)
    (w : World) : Ending × World :=
  let w := if parsed.has .verbose then
      { w with registry := w.registry.configure Log.debug Log.warning }
    else w
  match CommandSettings.build user w.files (parsed.value? .store) (parsed.value? .pipelineUrl)
    (configOf user (parsed.value? .config)) with
  | .error f => (.failure f, w)
  | .ok settings => showWith console user settings name (parsed.has .json) w

/-- The name of the application to show: an explicit one, else that of the workspace. -/
def nameOf (parsed : Parsed ShowOption) (w : World) : Except Failure (Option String) :=
  match parsed.value? .name with
  | some name => .ok (some name)
  | none => Workspace.application w.files ⟨.here, []⟩

/-- Runs the command for a report. -/
def runShow (console : Console) (user : User) (words : List String) (w : World) : Ending × World :=
  match Parsed.ofWords showOptions true words with
  | .error fault => refuse .showApp fault w
  | .ok parsed =>
    if parsed.has .help then write (CommandName.help .showApp) w
    else
      match nameOf parsed w with
      | .error f => (.failure f, w)
      | .ok name =>
        if parsed.words.isEmpty then showAs console user parsed name w
        else refuse .showApp (.extraWords parsed.words) w

/-! ### Groups -/

/-- Answers the first option that a group has been given. -/
def answerGroup (c : CommandName) (given : List (Given GroupOption)) (w : World) :
    Option (Ending × World) :=
  match given with
  | [] => none
  | first :: _ =>
    match first.id with
    | .version => some (write versionLine w)
    | .help => some (write c.help w)

/-- Refuses a command that a group does not have. A name that looks like an option is read as
one. -/
def refuseCommand (c : CommandName) (specs : List (OptionSpec GroupOption)) (name : String)
    (rest : List String) (w : World) : Ending × World :=
  match Parsed.ofWords specs false (name :: rest) with
  | .error fault => refuse c fault w
  | .ok parsed => (answerGroup c parsed.given w).getD (refuse c (.unknownCommand name) w)

/-- Runs a group of commands, given what its commands do. -/
def runGroup (c : CommandName) (specs : List (OptionSpec GroupOption))
    (command : String → Option (List String → World → Ending × World)) (words : List String)
    (w : World) : Ending × World :=
  if words.isEmpty then tellHelp c w
  else
    match Parsed.ofWords specs false words with
    | .error fault => refuse c fault w
    | .ok parsed =>
      match answerGroup c parsed.given w with
      | some answer => answer
      | none =>
        match parsed.words with
        | [] => refuse c .missingCommand w
        | name :: rest =>
          match command name with
          | some run => run rest w
          | none => refuseCommand c specs name rest w

/-- Runs the commands about applications. -/
def runApp (console : Console) (user : User) : List String → World → Ending × World :=
  runGroup .app appOptions fun name =>
    if name = "show" then some (runShow console user) else none

/-- Runs a command line; errors are shown on a console. -/
def run (console : Console) (user : User) : List String → World → Ending × World :=
  runGroup .root rootOptions fun name =>
    if name = "app" then some (runApp console user) else none

/-- The state in which a command line is run: what a snapshot shows, and a text to be entered. -/
def start (files : Files) (script : Script) (entered : String) : World where
  files := files
  script := script
  registry := Log.Registry.initial
  entered := lines entered.toList
  output := ""
  messages := []

end AppReport.Command

/-!
# Help

What each command says of itself: its usage and its options, laid out for eighty columns.
-/

namespace AppReport.Command

/-- The name of the program. -/
def programName : String := "appatlas"

/-- The version of the program. -/
def version : String := "0.1.0"

/-- The commands. -/
inductive CommandName where
  | root
  | app
  | showApp
  deriving DecidableEq

namespace CommandName

/-- The words that call a command. -/
def path : CommandName → String
  | root => programName
  | app => programName ++ " app"
  | showApp => programName ++ " app show"

/-- How a command is called. -/
def usage (c : CommandName) : String :=
  "Usage: " ++ c.path ++ match c with
    | root | app => " [OPTIONS] COMMAND [ARGS]...\n"
    | showApp => " [OPTIONS]\n"

/-- Where to find help on a command. -/
def hint (c : CommandName) : String := "Try '" ++ c.path ++ " --help' for help.\n"

/-- What a command says of itself after its usage. -/
def body : CommandName → String
  | root =>
    "
  appatlas command-line interface.

Options:
  --version   Show the version and exit.
  -h, --help  Show this message and exit.

Commands:
  app  Inspect applications.
"
  | app =>
    "
  Inspect applications.

Options:
  -h, --help  Show this message and exit.

Commands:
  show  Shows configuration, environments and services for an application.
"
  | showApp =>
    "
  Shows configuration, environments and services for an application.

  Shows info about the application \"my-app\"
    $ appatlas app show -n my-app

Options:
  -n, --name TEXT      Name of the application.  [default: (application of the
                       current workspace)]
  --json               Optional. Output in JSON format.
  --store TEXT         Path to the configuration store database.
  --pipeline-url TEXT  Base URL of the pipeline directory service.
  --config TEXT        Path to the JSON configuration file.
  -v, --verbose        Enable debug logging on stderr.
  -h, --help           Show this message and exit.
"

/-- The help on a command. -/
def help (c : CommandName) : String := c.usage ++ c.body

end CommandName

/-- The line for the version. -/
def versionLine : String := programName ++ ", version " ++ version ++ "\n"

end AppReport.Command

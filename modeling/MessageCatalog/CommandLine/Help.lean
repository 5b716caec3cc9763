/-
  MessageCatalog.CommandLine.Help
  ────────────────────────────────
  **HELP ON THE COMMAND LINE.**

  What the program says when it carries out no command: how it is used when
  that is asked for, and else what is wrong with the words given.
-/
import MessageCatalog.CommandLine.Command

namespace MessageCatalog.CommandLine

/-- How the program is used. -/
def helpText : String :=
  String.intercalate "\n"
    ["Gettext MO/PO catalog tool", "",
     "Usage: gettext-tool [OPTIONS] <COMMAND>", "",
     "Commands:",
     "  inspect    Print the header, metadata and entries of an MO file",
     "  plural     Evaluate a Plural-Forms formula for one or more counts",
     "  translate  Translate a message through the configured catalogs",
     "  resave     Load a language and write one source back as MO and PO",
     "  help       Print this message or the help of the given subcommand(s)", "",
     "Options:",
     "  -v, --verbose   Log at debug level",
     "      --log-json  Emit log records as JSON",
     "  -h, --help      Print help",
     "  -V, --version   Print version"]

/-- The name and the version of the program. -/
def versionText : String :=
  "gettext-tool 0.1.0"

namespace UsageError

/-- Whether the command line asks for nothing but information. -/
def isRequest : UsageError → Bool
  | .helpWanted => true
  | .versionWanted => true
  | _ => false

/-- What is said instead of carrying out a command. -/
def message : UsageError → String
  | .helpWanted => helpText
  | .nothingGiven => helpText
  | .versionWanted => versionText
  | .missingCommand => "error: a subcommand is required but was not provided"
  | .unknownCommand => "error: unrecognized subcommand"
  | .unknownArgument => "error: unexpected argument found"
  | .missingArgument => "error: the required arguments were not provided"
  | .missingValue => "error: a value is required but none was supplied"
  | .unwantedValue => "error: a value was given to an option that takes none"
  | .badValue => "error: invalid value for an argument"
  | .repetition => "error: an argument cannot be used multiple times"

end UsageError

end MessageCatalog.CommandLine

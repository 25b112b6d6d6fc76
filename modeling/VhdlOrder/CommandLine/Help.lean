/-! # Help texts

The text that each command prints when it is asked for help.
-/

namespace VhdlOrder.Help

/-- The help of the program. -/
def program : String :=
  "\n".intercalate
    ["Vhdelab orders the elaboration of vhdl design units.",
     "",
     "Usage:",
     "    vhdelab [options] [command]",
     "",
     "Commands:",
     "    order                 print the elaboration order",
     "    check                 run every @elab pragma and report diagnostics",
     "    tree                  view the dependency tree of a unit",
     "    show                  list units or describe a single unit",
     "    help                  read in-depth documentation",
     "",
     "Options:",
     "    --version             print version information and exit",
     "    --config <file>       read settings from a configuration file",
     "    --color <when>        coloring: auto, always, never",
     "    --verbose             print progress information",
     "    --help, -h            print help information",
     "",
     "Use 'vhdelab help <command>' for more information about a command."]

/-- The help of the command `order`. -/
def order : String :=
  "\n".intercalate
    ["Print the elaboration order.",
     "",
     "Usage:",
     "    vhdelab order [options] [<path>]",
     "",
     "Args:",
     "    <path>              vhdl file or directory to read (default: \".\")",
     "",
     "Options:",
     "    --top <unit>        only order the units needed to elaborate a unit",
     "    --json              print the order as json",
     "",
     "Use 'vhdelab help order' to read more about the command.",
     ""]

/-- The help of the command `check`. -/
def check : String :=
  "\n".intercalate
    ["Run every @elab pragma and report diagnostics.",
     "",
     "Usage:",
     "    vhdelab check [options] [<path>]",
     "",
     "Args:",
     "    <path>              vhdl file or directory to read (default: \".\")",
     "",
     "Options:",
     "    --json              print the pragma reports as json",
     "    --quiet             only print diagnostics",
     "",
     "Use 'vhdelab help check' to read more about the command.",
     ""]

/-- The help of the command `tree`. -/
def tree : String :=
  "\n".intercalate
    ["View the dependency tree of a unit.",
     "",
     "Usage:",
     "    vhdelab tree [options] [<path>]",
     "",
     "Args:",
     "    <path>              vhdl file or directory to read (default: \".\")",
     "",
     "Options:",
     "    --root <unit>       unit to start the dependency tree from",
     "    --ascii             restrict tree chars to the original 128 ascii set",
     "",
     "Use 'vhdelab help tree' to read more about the command.",
     ""]

/-- The help of the command `show`. -/
def listing : String :=
  "\n".intercalate
    ["List units or describe a single unit.",
     "",
     "Usage:",
     "    vhdelab show [options] [<path>]",
     "",
     "Args:",
     "    <path>              vhdl file or directory to read (default: \".\")",
     "",
     "Options:",
     "    --unit <unit>       describe the declarations and dependencies of a unit",
     "    --json              print the unit listing as json",
     "",
     "Use 'vhdelab help show' to read more about the command.",
     ""]

/-- The help of the command `help`. -/
def help : String :=
  "\n".intercalate
    ["Read in-depth documentation on vhdelab topics.",
     "",
     "Usage:",
     "    vhdelab help [<topic>]",
     "",
     "Args:",
     "    <topic>         a listed topic or any vhdelab subcommand",
     "",
     "Use 'vhdelab help --list' to see all available topics.",
     ""]

end VhdlOrder.Help

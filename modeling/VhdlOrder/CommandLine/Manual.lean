/-! # Manual pages

The pages that the command `help` prints. Each topic has a page, and one page is about the program as a
whole.
-/

namespace VhdlOrder

/-- The topics of the manual. -/
inductive Topic where
  | order | check | tree | listing | config | pragma
deriving DecidableEq

namespace Manual

/-- The page about the program. -/
def program : String :=
  "\n".intercalate
    ["NAME",
     "    vhdelab - order the elaboration of vhdl design units",
     "",
     "SYNOPSIS",
     "    vhdelab [options] [command]",
     "",
     "DESCRIPTION",
     "    Vhdelab reads vhdl source files into a single working library, resolves",
     "    the names each design unit makes visible through its context clause, and",
     "    computes the order in which the units must be elaborated.",
     "",
     "    A unit must be elaborated after every unit it depends on. A unit depends",
     "    on the packages named by its use clauses, on the units named by expanded",
     "    names such as 'work.pkg_a.K', and on the context declarations it",
     "    references. A package body depends on its package, an architecture on",
     "    its entity, and a package instantiation on its uninstantiated package.",
     "",
     "    Source files may request an elaboration with an '@elab' pragma written",
     "    inside a single-line comment. See 'vhdelab help pragma' for details.",
     "",
     "COMMANDS",
     "    order       print the elaboration order",
     "    check       run every @elab pragma and report diagnostics",
     "    tree        view the dependency tree of a unit",
     "    show        list units or describe a single unit",
     "    help        read in-depth documentation",
     "",
     "TOPICS",
     "    config      settings read from configuration files",
     "    pragma      the '@elab' comment directive",
     "",
     "EXAMPLES",
     "    vhdelab order rtl/",
     "    vhdelab --color never check",
     "    vhdelab help pragma",
     ""]

/-- The page about the command `order`. -/
def order : String :=
  "\n".intercalate
    ["NAME",
     "    order - print the elaboration order",
     "",
     "SYNOPSIS",
     "    vhdelab order [options] [<path>]",
     "",
     "DESCRIPTION",
     "    Prints every unit of the working library in an order where each unit",
     "    comes after the units it depends on. Units that do not depend on each",
     "    other keep the order they are written in: first by file, then by their",
     "    position within the file.",
     "",
     "    When '--top' is given, only the units needed to elaborate that unit are",
     "    printed. These are the unit itself, everything it depends on, and the",
     "    package bodies and architectures of those units along with what they",
     "    depend on.",
     "",
     "    A dependency cycle stops the command with an error naming the cycle.",
     "",
     "OPTIONS",
     "    <path>",
     "        A vhdl file or a directory to search for vhdl files. Directories are",
     "        searched recursively, skipping files excluded by ignore files.",
     "",
     "    --top <unit>",
     "        The unit to order for. A package body is named 'pkg.body' and an",
     "        architecture is named 'entity.architecture'.",
     "",
     "    --json",
     "        Print the order as a json list of units.",
     "",
     "EXAMPLES",
     "    vhdelab order",
     "    vhdelab order src --top work.pkg_d",
     ""]

/-- The page about the command `check`. -/
def check : String :=
  "\n".intercalate
    ["NAME",
     "    check - run every @elab pragma and report diagnostics",
     "",
     "SYNOPSIS",
     "    vhdelab check [options] [<path>]",
     "",
     "DESCRIPTION",
     "    Reads the sources, reports every problem found along the way, and plans",
     "    the elaboration requested by each '@elab' pragma.",
     "",
     "    Problems are reported as errors or warnings. Errors include syntax",
     "    errors, duplicate units, names that are not visible, ambiguous names,",
     "    package bodies that do not complete a deferred constant, and pragmas",
     "    naming a unit that does not exist. Warnings include unused imports and",
     "    deferred constants of packages without a body.",
     "",
     "    The command fails when any error is found.",
     "",
     "OPTIONS",
     "    <path>",
     "        A vhdl file or a directory to search for vhdl files.",
     "",
     "    --json",
     "        Print the pragma reports as json.",
     "",
     "    --quiet",
     "        Only print diagnostics.",
     "",
     "EXAMPLES",
     "    vhdelab check",
     "    vhdelab check tests/data/packages.vhd --json",
     ""]

/-- The page about the command `tree`. -/
def tree : String :=
  "\n".intercalate
    ["NAME",
     "    tree - view the dependency tree of a unit",
     "",
     "SYNOPSIS",
     "    vhdelab tree [options] [<path>]",
     "",
     "DESCRIPTION",
     "    Shows each unit with the units it depends on as its branches. Without",
     "    '--root', a tree is shown for every unit that no other unit depends on.",
     "",
     "    A unit that appears again on its own branch is part of a dependency",
     "    cycle and is not expanded a second time.",
     "",
     "OPTIONS",
     "    <path>",
     "        A vhdl file or a directory to search for vhdl files.",
     "",
     "    --root <unit>",
     "        The unit to start the dependency tree from.",
     "",
     "    --ascii",
     "        Draw the tree with characters from the original 128 ascii set.",
     "",
     "EXAMPLES",
     "    vhdelab tree --root pkg_d",
     ""]

/-- The page about the command `show`. -/
def listing : String :=
  "\n".intercalate
    ["NAME",
     "    show - list units or describe a single unit",
     "",
     "SYNOPSIS",
     "    vhdelab show [options] [<path>]",
     "",
     "DESCRIPTION",
     "    Lists every unit of the working library with its kind and location.",
     "",
     "    When '--unit' is given, describes that unit instead: its context clause,",
     "    its declarations, the units it depends on and why, the units that depend",
     "    on it, and the problems found in it.",
     "",
     "OPTIONS",
     "    <path>",
     "        A vhdl file or a directory to search for vhdl files.",
     "",
     "    --unit <unit>",
     "        The unit to describe.",
     "",
     "    --json",
     "        Print the unit listing as json.",
     "",
     "EXAMPLES",
     "    vhdelab show",
     "    vhdelab show --unit pkg_b.body",
     ""]

/-- The page about settings. -/
def config : String :=
  "\n".intercalate
    ["NAME",
     "    config - settings read from configuration files",
     "",
     "DESCRIPTION",
     "    Settings are read from up to three toml files. A value set in an earlier",
     "    file is never overridden by a later one:",
     "",
     "        1. the file given with '--config'",
     "        2. 'vhdelab.toml' in the current directory",
     "        3. '$HOME/.vhdelab/config.toml'",
     "",
     "    Unknown keys are errors.",
     "",
     "KEYS",
     "    [general]",
     "    library = \"work\"",
     "        The name of the working library. The name 'work' always refers to",
     "        the working library as well.",
     "",
     "    patterns = [\"*.vhd\", \"*.vhdl\"]",
     "        The files to read when searching a directory.",
     "",
     "    [pragma]",
     "    directive = \"elab\"",
     "        The word following '@' in a pragma comment.",
     "",
     "    [check]",
     "    deferred-constants = \"warn\"",
     "        How to treat a deferred constant whose package has no body:",
     "        'allow', 'warn', or 'error'.",
     "",
     "    unused-imports = true",
     "        Warn about use clauses importing a single name that is never used.",
     ""]

/-- The page about pragmas. -/
def pragma : String :=
  "\n".intercalate
    ["NAME",
     "    pragma - the '@elab' comment directive",
     "",
     "DESCRIPTION",
     "    A pragma is a single-line comment whose text starts with '@':",
     "",
     "        -- @elab pkg_a",
     "        -- @ elab work.pkg_b",
     "",
     "    Whitespace between '@' and the directive is allowed. The directive is",
     "    matched without regard to case. It must be followed by the name of one",
     "    unit and nothing else. Comments that do not start with '@' are ordinary",
     "    comments.",
     "",
     "    Running 'vhdelab check' plans the elaboration of every pragma's unit.",
     "    A pragma with a different directive is reported as a warning and",
     "    ignored. A pragma missing its unit name, or with text after the name, is",
     "    an error.",
     ""]

end Manual

namespace Topic

/-- The topic of a name. -/
def ofName? : String → Option Topic
  | "order" => some .order
  | "check" => some .check
  | "tree" => some .tree
  | "show" => some .listing
  | "config" => some .config
  | "pragma" | "elab" => some .pragma
  | _ => none

/-- The names of all topics, each on a line. -/
def index : String := "order\ncheck\ntree\nshow\nconfig\npragma\n"

/-- The page of a topic. -/
def page : Topic → String
  | .order => Manual.order
  | .check => Manual.check
  | .tree => Manual.tree
  | .listing => Manual.listing
  | .config => Manual.config
  | .pragma => Manual.pragma

end Topic

end VhdlOrder

/-
The texts that the command line shows about itself.
-/

namespace TreeCheck.CommandLine

/-- The name of the program with its version. -/
def version : String := "semac 0.1.0\n"

/-- How the program is called. -/
def usage : String := "Usage: semac [OPTIONS] <INPUTS>..."

/-- Lines as a text that ends with a newline. -/
def unlines (lines : List String) : String := String.join (lines.map (· ++ "\n"))

/-- What the program does, in one line. -/
def about : String := "Semantic analyzer for JSON-serialized abstract syntax trees"

/-- A line of blanks between the parts of an option's description. -/
def blankLine : String := "          "

/-- The summary of all options. -/
def shortHelp : String := unlines [
  about,
  "",
  usage,
  "",
  "Arguments:",
  "  <INPUTS>...  AST files to analyze (JSON)",
  "",
  "Options:",
  "  -s, --source <SOURCE>        Original source text of the input, for annotated snippets",
  "  -f, --format <FORMAT>        Output format (human or json) [default: human] [possible values: human, json]",
  "      --no-warn-unused         Do not warn about unused variables and parameters",
  "      --max-depth <MAX_DEPTH>  Maximum nesting depth of statements and expressions [default: 512]",
  "  -v, --verbose...             Verbose output (repeat for more)",
  "  -q, --quiet                  Only report errors",
  "  -h, --help                   Print help (see more with '--help')",
  "  -V, --version                Print version"]

/-- The description of all options. -/
def longHelp : String := unlines [
  about,
  "",
  usage,
  "",
  "Arguments:",
  "  <INPUTS>...",
  "          AST files to analyze (JSON)",
  "",
  "Options:",
  "  -s, --source <SOURCE>",
  "          Original source text of the input, for annotated snippets",
  "",
  "  -f, --format <FORMAT>",
  "          Output format (human or json)",
  "",
  "          Possible values:",
  "          - human: Rendered for a terminal",
  "          - json:  One JSON document on stdout",
  blankLine,
  "          [default: human]",
  "",
  "      --no-warn-unused",
  "          Do not warn about unused variables and parameters",
  "",
  "      --max-depth <MAX_DEPTH>",
  "          Maximum nesting depth of statements and expressions",
  blankLine,
  "          [default: 512]",
  "",
  "  -v, --verbose...",
  "          Verbose output (repeat for more)",
  "",
  "  -q, --quiet",
  "          Only report errors",
  "",
  "  -h, --help",
  "          Print help (see a summary with '-h')",
  "",
  "  -V, --version",
  "          Print version"]

end TreeCheck.CommandLine

import Marktex.Command.Arguments

/-!
# Usage and help

What the command says about itself: the usage, which stands above every message about a wrong command
line, and the help. Both are laid out for lines of 80 characters.
-/

namespace Marktex.Command

/-- The name of the command. -/
def name : String := "md2latex"

/-- The name of the settings file that is looked for beside the input. -/
def settingsName : String := "md2latex.toml"

/-- The lines of the usage. -/
def usageLines : List String :=
  ["usage: " ++ name ++ " [-h] [-o OUTPUT] [--config FILE] [--strict] [--standalone]",
   "                [--documentclass NAME] [--package NAME] [--watch] [--debug]",
   "                input"]

/-- The lines of the help below the usage. -/
def helpLines : List String :=
  ["",
   "Convert Markdown to LaTeX",
   "",
   "positional arguments:",
   "  input                 Input Markdown file ('-' for stdin)",
   "",
   "options:",
   "  -h, --help            show this help message and exit",
   "  -o OUTPUT, --output OUTPUT",
   "                        Output file (default: stdout)",
   "  --config FILE         Config file (default: auto-discover " ++ settingsName ++ ")",
   "  --strict              Fail on unterminated constructs instead of warning",
   "  --standalone          Wrap output in a complete LaTeX document",
   "  --documentclass NAME  Document class for --standalone (default: article)",
   "  --package NAME        Extra \\usepackage for --standalone (repeatable)",
   "  --watch               Watch for changes and reconvert",
   "  --debug               Dump tokens and AST to stderr"]

/-- Lines as one text. -/
def linesText (lines : List String) : Text :=
  lines.flatMap fun line => line.toList ++ ['\n']

/-- The usage. -/
def usage : Text :=
  linesText usageLines

/-- The help, which starts with the usage. -/
def help : Text :=
  linesText (usageLines ++ helpLines)

/-- The message about a wrong command line, below the usage. -/
def usageFailure (e : UsageError) : Text :=
  usage ++ name.toList ++ ": error: ".toList ++ e.message ++ ['\n']

end Marktex.Command

import SimpleC.CommandLine.Arguments

/-!
# Usage texts

What the program says about its own use.
-/

namespace SimpleC.CommandLine

/-- The name under which the program speaks of itself. -/
def programName : String := "main.py"

/-- Lines of text, each of them ended. -/
def paragraph (lines : List String) : String :=
  String.join (lines.map (fun line => line ++ "\n"))

/-- The options in short. -/
def usage : String :=
  paragraph
    ["usage: " ++ programName ++
        " [-h] [--file FILE] [--staged] [--print-tokens] [--print-tree]",
      "               [--print-symbols] [--dump-tree DUMP_TREE] [--viz-tree VIZ_TREE]",
      "               [--viz-format VIZ_FORMAT] [--verbose]"]

/-- What each option does. -/
def optionHelp : String :=
  paragraph
    ["Syntax, semantic and type check a tokenized simple C program",
      "",
      "options:",
      "  -h, --help            show this help message and exit",
      "  --file FILE, -f FILE  Path to token file (default: stdin)",
      "  --staged              Run parse, symbol table and type check as separate",
      "                        passes",
      "  --print-tokens        Print tokens",
      "  --print-tree          Print the derivation tree",
      "  --print-symbols       Print the symbol table",
      "  --dump-tree DUMP_TREE",
      "                        Path to write derivation JSON",
      "  --viz-tree VIZ_TREE   Path (without extension) to write Graphviz",
      "                        visualization of the derivation",
      "  --viz-format VIZ_FORMAT",
      "                        Format for Graphviz output (svg, png, pdf, etc)",
      "  --verbose, -v         Log each production"]

/-- The whole help. -/
def help : String :=
  usage ++ "\n" ++ optionHelp

/-- The report of a misuse. -/
def misuseReport (misuse : Misuse) : String :=
  usage ++ programName ++ ": error: " ++ misuse.message ++ "\n"

end SimpleC.CommandLine

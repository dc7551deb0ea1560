/-!
# Usage texts

What the command says about itself. In both texts `name` is the name the command was called by.
-/

namespace Brainfuck.CommandLine

/-- How the command is used. -/
def usage (name : String) : String :=
  "Usage:\n"
    ++ "  " ++ name ++ " run [OPTIONS] \"<code>\"      # Run Brainfuck code (args are concatenated)\n"
    ++ "  " ++ name ++ " run [OPTIONS] --file <PATH> # Run Brainfuck code loaded from file\n"
    ++ "\n"
    ++ "Run \"" ++ name ++ " <subcommand> --help\" for more info.\n"
    ++ "\n"

/-- How `run` is used. -/
def runUsage (name : String) : String :=
  "Usage:\n"
    ++ "  " ++ name ++ " run [OPTIONS] \"<code>\"\n"
    ++ "  " ++ name ++ " run [OPTIONS] --file <PATH>\n"
    ++ "\n"
    ++ "Options:\n"
    ++ "  --file,  -f <PATH>   Read Brainfuck code from PATH instead of positional \"<code>\"\n"
    ++ "  --delay <MS>         Pause MS milliseconds between steps\n"
    ++ "  --no-input           Do not connect stdin (',' does nothing)\n"
    ++ "  --no-output          Do not connect stdout ('.' does nothing)\n"
    ++ "  --io-policy <POLICY> report (default): log I/O failures and keep going\n"
    ++ "                       halt: stop with an error on the first I/O failure\n"
    ++ "  --verbose, -v        Log interpreter events to stderr\n"
    ++ "  --help,    -h        Show this help\n"
    ++ "\n"
    ++ "Notes:\n"
    ++ "- Input (`,`) never waits: when no byte is ready the current cell is set to 0.\n"
    ++ "- Characters outside of Brainfuck's ><+-.,[] are ignored.\n"
    ++ "- Settings may also come from BFVM_DELAY_MS, BFVM_IO_POLICY and the [run]\n"
    ++ "  section of $XDG_CONFIG_HOME/bfvm.toml (or the file named by BFVM_CONFIG).\n"
    ++ "\n"
    ++ "Examples:\n"
    ++ "- Load Brainfuck code from a file:\n"
    ++ "    " ++ name ++ " run --file ./program.bf\n"
    ++ "- Read bytes from a file as stdin (`,` will consume file input):\n"
    ++ "    " ++ name ++ " run \",[.,]\" < input.txt\n"
    ++ "\n"

end Brainfuck.CommandLine

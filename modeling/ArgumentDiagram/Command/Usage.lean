/-!
What the command says about itself.
-/

namespace ArgumentDiagram.Command

def version : String := "argument-diagram 0.1.0"

def help : String := "\n".intercalate [
  "Lay out and draw argument graphs",
  "",
  "Usage: argument-diagram [OPTIONS]",
  "",
  "Options:",
  "  -i, --input <PATH>           Payload (.json, .json5), script (.txt, .hasl) or '-' for the standard input",
  "  -f, --format <FORMAT>        Format of the input: auto, json or script [default: auto]",
  "  -o, --output <PATH>          Where to write the picture; the standard output if omitted",
  "  -e, --outputFormat <FORMAT>  Format of the picture: svg or png [default: svg]",
  "  -c, --configFile <PATH>      Configuration with theme, themeVariables and layout",
  "      --dump-layout <PATH>     Write the positions of claims and relations as JSON",
  "      --padding <NUMBER>       Room above the topmost claim; for scripts on all sides",
  "      --scale <NUMBER>         Device pixels per unit of the layout",
  "      --debug-layout           Draw the boxes of the layout over the graph",
  "      --fast-text              Measure text by the average width of a glyph",
  "  -h, --help                   Print this help",
  "  -V, --version                Print the version",
  ""]

/-- What is said when the arguments cannot be understood. -/
def misuse : String := "error: the arguments are not understood; see --help"

end ArgumentDiagram.Command

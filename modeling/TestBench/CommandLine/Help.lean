import TestBench.CommandLine.Arguments
import TestBench.Text.Controls

/-! # Help and usage texts

What the program says when its arguments do not lead to a run.
-/

namespace TestBench.CommandLine

def unlines (lines : List String) : String := String.join (lines.map (· ++ "\n"))

def Command.path : Command → String
  | program => program.name
  | c => program.name ++ " " ++ c.name

def Command.operands : Command → String
  | program => "[COMMAND]"
  | help => "[COMMAND]..."
  | selfTest => "[OPTIONS]"

def usageOf (c : Command) : String := "Usage: " ++ c.path ++ " " ++ c.operands

def HelpPage.lines : HelpPage → List String
  | .program =>
      ["Async test execution and aggregation harness", "", usageOf .program, "", "Commands:",
        "  selftest  Run the bundled self-check suite",
        "  help      Print this message or the help of the given subcommand(s)", "", "Options:",
        "  -h, --help     Print help", "  -V, --version  Print version"]
  | .help =>
      ["Print this message or the help of the given subcommand(s)", "", usageOf .help, "",
        "Arguments:", "  [COMMAND]...  Print help for the subcommand(s)"]
  | .selfTestShort =>
      ["Run the bundled self-check suite", "", usageOf .selfTest, "", "Options:",
        "  -q, --quiet            Only print the summary line",
        "      --color <COLOR>    Colour error lines [default: auto] " ++
          "[possible values: auto, always, never]",
        "      --timeout-ms <MS>  Upper bound for fixtures that wait on callbacks, " ++
          "in milliseconds [default: 1000]",
        "  -h, --help             Print help (see more with '--help')"]
  | .selfTestLong =>
      ["Run the bundled self-check suite", "", usageOf .selfTest, "", "Options:", "  -q, --quiet",
        "          Only print the summary line", "", "      --color <COLOR>",
        "          Colour error lines", "", "          Possible values:",
        "          - auto:   Colour unless `NO_COLOR` is set", "          - always",
        "          - never", "          ", "          [default: auto]", "",
        "      --timeout-ms <MS>",
        "          Upper bound for fixtures that wait on callbacks, in milliseconds", "          ",
        "          [default: 1000]", "", "  -h, --help",
        "          Print help (see a summary with '-h')"]

def version : String := "verdict 0.1.0"

def NumberProblem.message : NumberProblem → String
  | .empty => "cannot parse integer from empty string"
  | .invalidDigit => "invalid digit found in string"
  | .tooLarge => "number too large to fit in target type"

def ValueOption.usage : ValueOption → String
  | color => "--color <COLOR>"
  | timeout => "--timeout-ms <MS>"

def Flag.usage : Flag → String
  | value option => option.usage
  | f => "--" ++ f.name

def ValueOption.choices : ValueOption → List String
  | color => ColorChoice.all.map (·.name)
  | timeout => []

def usageWith (c : Command) (shown : List String) : String :=
  if shown.isEmpty then usageOf c else " ".intercalate (("Usage: " ++ c.path) :: shown)

def anyOption : String :=
  "<" ++ "|".intercalate ((Command.selfTest.flags.filter (· != .help)).map (·.usage)) ++ ">"

def quoted (s : String) : String := "'" ++ Text.withoutControls s ++ "'"

def tip (s : String) : List String := ["", "  tip: " ++ s]

def similarTip (what : String) : List String → List String
  | [] => []
  | [word] => tip ("a similar " ++ what ++ " exists: " ++ quoted word)
  | words => tip ("some similar " ++ what ++ "s exist: " ++ ", ".intercalate (words.map quoted))

def Hint.lines : Hint → List String
  | flag f => similarTip "argument" ["--" ++ f.name]
  | flagOf c f => tip (quoted (c.name ++ " --" ++ f.name) ++ " exists")
  | command c =>
      tip ("subcommand " ++ quoted c.name ++ " exists; to use it, remove the '--' before it")

def Command.referral : Command → List String
  | help => []
  | _ => ["", "For more information, try '--help'."]

namespace Stop

def message : Stop → String
  | help _ | version => ""
  | unknownArgument _ arg _ _ => "unexpected argument " ++ quoted arg ++ " found"
  | unknownSubcommand _ name _ => "unrecognized subcommand " ++ quoted name
  | missingValue option =>
      "a value is required for " ++ quoted option.usage ++ " but none was supplied"
  | notAColor value => "invalid value " ++ quoted value ++ " for " ++ quoted ValueOption.color.usage
  | notANumber value problem =>
      "invalid value " ++ quoted value ++ " for " ++ quoted ValueOption.timeout.usage ++ ": " ++
        problem.message
  | repeatedFlag flag => "the argument " ++ quoted flag.usage ++ " cannot be used multiple times"
  | needlessValue _ flag value _ =>
      "unexpected value " ++ quoted value ++ " for " ++ quoted flag.usage ++
        " found; no more were expected"

def choices : Stop → List String
  | missingValue option => choiceLine option
  | notAColor _ => choiceLine .color
  | _ => []
where
  choiceLine (option : ValueOption) : List String :=
    if option.choices.isEmpty then []
    else ["  [possible values: " ++ ", ".intercalate option.choices ++ "]"]

def tips : Stop → List String
  | unknownArgument _ _ _ hint => (hint.map Hint.lines).getD []
  | unknownSubcommand _ _ similar => similarTip "subcommand" similar
  | notAColor value =>
      similarTip "value" (Text.similarWords value ValueOption.color.choices).getLast?.toList
  | _ => []

/-- The usage that a mistake is reported with. If options are in use beside a flag with a needless
value, all options are shown. -/
def usage : Stop → List String
  | unknownArgument command _ used _ => ["", usageWith command (used.map (·.usage))]
  | unknownSubcommand command _ _ => ["", usageOf command]
  | repeatedFlag _ => ["", usageOf .selfTest]
  | needlessValue command flag _ used =>
      ["", usageWith command <|
        if used.isEmpty then [flag.usage]
        else if flag = .help then [flag.usage, anyOption] else [anyOption]]
  | _ => []

def command : Stop → Command
  | unknownArgument command _ _ _ | unknownSubcommand command _ _ | needlessValue command _ _ _ =>
      command
  | _ => .selfTest

def lines (s : Stop) : List String :=
  match s with
  | help page => page.lines
  | version => [CommandLine.version]
  | _ => ("error: " ++ s.message) :: s.choices ++ s.tips ++ s.usage ++ s.command.referral

def text (s : Stop) : String := unlines s.lines

/-- Help and version are what was asked for; all else is a mistake in the arguments. -/
def exitCode : Stop → Nat
  | help _ | version => 0
  | _ => 2

end Stop

end TestBench.CommandLine

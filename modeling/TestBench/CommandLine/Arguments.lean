import TestBench.Config
import TestBench.Text.Similarity

/-! # Command-line arguments

Arguments are read from left to right. The first request for help or for the version, or the first
mistake, decides. A value that follows its option as an argument of its own is looked at when the
next option is met or the arguments end, so an unknown argument after it is reported first.
-/

namespace TestBench.CommandLine

inductive ValueOption
  | color
  | timeout
  deriving DecidableEq, Repr

def ValueOption.all : List ValueOption := [color, timeout]

inductive Flag
  | help
  | version
  | quiet
  | value (option : ValueOption)
  deriving DecidableEq, Repr

def ValueOption.name : ValueOption → String
  | color => "color"
  | timeout => "timeout-ms"

def Flag.name : Flag → String
  | help => "help"
  | version => "version"
  | quiet => "quiet"
  | value option => option.name

inductive Command
  | program
  | help
  | selfTest
  deriving DecidableEq, Repr

namespace Command

def subcommands : List Command := [selfTest, help]

def name : Command → String
  | program => "verdict"
  | help => "help"
  | selfTest => "selftest"

def flags : Command → List Flag
  | program => [.help, .version]
  | help => []
  | selfTest => [.quiet, .value .color, .value .timeout, .help]

def flag? (c : Command) (name : String) : Option Flag := c.flags.find? (·.name == name)

def similarFlag? (c : Command) (name : String) : Option Flag :=
  (Text.similarWords name (c.flags.map (·.name))).getLast?.bind c.flag?

end Command

inductive NumberProblem
  | empty
  | invalidDigit
  | tooLarge
  deriving DecidableEq, Repr

inductive HelpPage
  | program
  | help
  | selfTestShort
  | selfTestLong
  deriving DecidableEq, Repr

inductive Hint
  | flag (f : Flag)
  | flagOf (c : Command) (f : Flag)
  | command (c : Command)
  deriving DecidableEq, Repr

/-- Why arguments do not lead to a run. Mistakes in flags name the flags in use until then. -/
inductive Stop
  | help (page : HelpPage)
  | version
  | unknownArgument (command : Command) (arg : String) (used : List Flag) (hint : Option Hint)
  | unknownSubcommand (command : Command) (name : String) (similar : List String)
  | missingValue (option : ValueOption)
  | notAColor (value : String)
  | notANumber (value : String) (problem : NumberProblem)
  | repeatedFlag (flag : Flag)
  | needlessValue (command : Command) (flag : Flag) (value : String) (used : List Flag)
  deriving DecidableEq, Repr

structure SelfTestArguments where
  quiet : Bool := false
  color : Option ColorChoice := none
  timeout : Option Nat := none
  deriving DecidableEq, Repr

inductive Request
  | nothing
  | selfTest (args : SelfTestArguments)
  deriving DecidableEq, Repr

def greatestTimeout : Nat := UInt64.size - 1

def readDigits (n : Nat) : List Char → Except NumberProblem Nat
  | [] => .ok n
  | c :: rest =>
      if !c.isDigit then .error .invalidDigit
      else
        let n := 10 * n + (c.toNat - '0'.toNat)
        if greatestTimeout < n then .error .tooLarge else readDigits n rest

def readTimeout (s : String) : Except NumberProblem Nat :=
  match s.toList with
  | [] => .error .empty
  | ['+'] => .error .invalidDigit
  | '+' :: digits => readDigits 0 digits
  | digits => readDigits 0 digits

def SelfTestArguments.setValue (args : SelfTestArguments) (option : ValueOption) (value : String) :
    Except Stop SelfTestArguments :=
  match option with
  | .color =>
      match ColorChoice.ofName? value with
      | some color => .ok { args with color := some color }
      | none => .error (if value.isEmpty then .missingValue .color else .notAColor value)
  | .timeout =>
      match readTimeout value with
      | .ok ms => .ok { args with timeout := some ms }
      | .error problem => .error (.notANumber value problem)

/-- An option that was met with no value attached, and the argument after it if that was taken for
its value. -/
structure Pending where
  option : ValueOption
  value : Option String := none
  deriving DecidableEq, Repr

/-- How far the arguments of the self-check are read: their meaning so far, the flags in use in the
order in which they were met, and the option that still waits for its value to be looked at. -/
structure Reading where
  args : SelfTestArguments := {}
  used : List Flag := []
  pending : Option Pending := none
  deriving DecidableEq, Repr

namespace Reading

def setQuiet (r : Reading) : Except Stop Reading :=
  if .quiet ∈ r.used then .error (.repeatedFlag .quiet)
  else .ok { r with args := { r.args with quiet := true }, used := r.used ++ [.quiet] }

def setValue (r : Reading) (option : ValueOption) (value : String) : Except Stop Reading :=
  if .value option ∈ r.used then .error (.repeatedFlag (.value option))
  else do return { r with args := ← r.args.setValue option value, used := r.used ++ [.value option] }

def resolve (r : Reading) : Except Stop Reading :=
  match r.pending with
  | none => .ok r
  | some ⟨option, none⟩ => .error (.missingValue option)
  | some ⟨option, some value⟩ => setValue { r with pending := none } option value

/-- The flags in use when an unknown argument is met. An option counts as soon as it has a value, even
a wrong one, and no longer if it is repeated. -/
def usedAtMistake (r : Reading) : List Flag :=
  match r.pending with
  | some ⟨option, some _⟩ =>
      if .value option ∈ r.used then r.used.erase (.value option) else r.used ++ [.value option]
  | _ => r.used

/-- An unknown long option. The flag that may have been meant counts as used. -/
def unknownLong (r : Reading) (name : String) : Stop :=
  let used := r.usedAtMistake
  match Command.selfTest.similarFlag? name with
  | some f =>
      .unknownArgument .selfTest ("--" ++ name) (if f ∈ used then used else used ++ [f])
        (some (.flag f))
  | none => .unknownArgument .selfTest ("--" ++ name) used none

def readCluster (r : Reading) : List Char → Except Stop Reading
  | [] => .ok r
  | 'q' :: rest => do readCluster (← r.setQuiet) rest
  | 'h' :: _ => .error (.help .selfTestShort)
  | c :: _ => .error (.unknownArgument .selfTest (String.ofList ['-', c]) [] none)

/-- A cluster in which the first option is known is met with the earlier option resolved. -/
def readShort (r : Reading) (cluster : List Char) : Except Stop Reading :=
  match cluster with
  | 'q' :: _ | 'h' :: _ => do readCluster (← r.resolve) cluster
  | _ => readCluster r cluster

def readLong (r : Reading) (name : String) (value : Option String) : Except Stop Reading :=
  match Command.selfTest.flag? name, value with
  | none, _ => .error (r.unknownLong name)
  | some (.value option), some value => do (← r.resolve).setValue option value
  | some (.value option), none => do return { ← r.resolve with pending := some { option } }
  | some f, some value => .error (.needlessValue .selfTest f value r.used)
  | some .quiet, none => do (← r.resolve).setQuiet
  | some _, none => do
      let _ ← r.resolve
      .error (.help .selfTestLong)

/-- An argument that is no option can only be a value. -/
def readPositional (r : Reading) (arg : String) : Except Stop Reading :=
  match r.pending with
  | some ⟨option, none⟩ => .ok { r with pending := some ⟨option, some arg⟩ }
  | _ => .error (.unknownArgument .selfTest arg [] none)

end Reading

def splitAttached (cs : List Char) : String × Option String :=
  match cs.span (· != '=') with
  | (name, '=' :: value) => (String.ofList name, some (String.ofList value))
  | (name, _) => (String.ofList name, none)

def readSelfTest (r : Reading) : List String → Except Stop Reading
  | [] => r.resolve
  | arg :: rest =>
      match arg.toList with
      | ['-', '-'] =>
          match rest with
          | [] => r.resolve
          | positional :: _ => .error (.unknownArgument .selfTest positional [] none)
      | '-' :: '-' :: long => do
          let (name, value) := splitAttached long
          readSelfTest (← r.readLong name value) rest
      | '-' :: c :: cluster => do readSelfTest (← r.readShort (c :: cluster)) rest
      | _ => do readSelfTest (← r.readPositional arg) rest

def subcommand? (name : String) : Option Command := Command.subcommands.find? (·.name == name)

def readHelp : List String → Stop
  | [] => .help .program
  | name :: rest =>
      match subcommand? name, rest with
      | none, _ => .unknownSubcommand .program name []
      | some command, next :: _ => .unknownSubcommand command next []
      | some .selfTest, [] => .help .selfTestLong
      | some _, [] => .help .help

def unknownCommand (name : String) : Stop :=
  .unknownSubcommand .program name (Text.similarWords name (Command.subcommands.map (·.name)))

def unknownProgramLong (name : String) (rest : List String) : Stop :=
  let unknown := Stop.unknownArgument .program ("--" ++ name)
  match Command.program.similarFlag? name with
  | some f => unknown [f] (some (.flag f))
  | none =>
      match Command.selfTest.similarFlag? name with
      | some f =>
          unknown [] (if Command.selfTest.name ∈ rest then some (.flagOf .selfTest f) else none)
      | none => unknown [] none

def readProgramLong (name : String) (value : Option String) (rest : List String) : Stop :=
  match Command.program.flag? name, value with
  | none, _ => unknownProgramLong name rest
  | some f, some value => .needlessValue .program f value []
  | some .version, none => .version
  | some _, none => .help .program

def readArguments : List String → Except Stop Request
  | [] => .ok .nothing
  | arg :: rest =>
      match subcommand? arg with
      | some .selfTest => do return .selfTest (← readSelfTest {} rest).args
      | some _ => .error (readHelp rest)
      | none =>
        match arg.toList with
        | ['-', '-'] =>
            match rest with
            | [] => .ok .nothing
            | positional :: _ =>
                match subcommand? positional with
                | some c => .error (.unknownArgument .program positional [] (some (.command c)))
                | none => .error (unknownCommand positional)
        | '-' :: '-' :: long =>
            let (name, value) := splitAttached long
            .error (readProgramLong name value rest)
        | '-' :: 'h' :: _ => .error (.help .program)
        | '-' :: 'V' :: _ => .error .version
        | '-' :: c :: _ => .error (.unknownArgument .program (String.ofList ['-', c]) [] none)
        | _ => .error (unknownCommand arg)

end TestBench.CommandLine

/-!
# Options of the command line

* `Options` : what the arguments ask for;
* `Options.parse` : `--help`, `--verbose`, `--no-prompt` and groups of the letters `h`, `v`, `p`;
* `Options.Fault` : the first argument or letter that is none of these.
-/

set_option autoImplicit false

namespace JobControl

structure Options where
  /-- Print diagnostics. -/
  verbose : Bool := false
  /-- Print a prompt before each line. -/
  prompt : Bool := true
  /-- Print the usage text instead of running. -/
  help : Bool := false
  deriving DecidableEq, Repr

namespace Options

inductive Flag where
  | help
  | verbose
  | noPrompt
  deriving DecidableEq, Repr

def Flag.ofLetter? : Char → Option Flag
  | 'h' => some .help
  | 'v' => some .verbose
  | 'p' => some .noPrompt
  | _ => none

def Flag.ofName? : String → Option Flag
  | "help" => some .help
  | "verbose" => some .verbose
  | "no-prompt" => some .noPrompt
  | _ => none

def set (o : Options) : Flag → Options
  | .help => { o with help := true }
  | .verbose => { o with verbose := true }
  | .noPrompt => { o with prompt := false }

/-- What is wrong with the arguments. -/
inductive Fault where
  | unrecognized (arg : String)
  | invalidLetter (letter : Char)
  | unexpected (arg : String)
  deriving DecidableEq, Repr

def Fault.message : Fault → String
  | .unrecognized arg => s!"unrecognized option '{arg}'"
  | .invalidLetter letter => s!"invalid option -- '{letter}'"
  | .unexpected arg => s!"unexpected argument '{arg}'"

/-- The flags that a group of letters sets. -/
def letterFlags : List Char → Except Fault (List Flag)
  | [] => .ok []
  | c :: cs =>
    match Flag.ofLetter? c with
    | none => .error (.invalidLetter c)
    | some flag => (letterFlags cs).map (flag :: ·)

/-- The flags that one argument sets. -/
def argFlags (arg : String) : Except Fault (List Flag) :=
  match arg.toList with
  | '-' :: '-' :: name =>
    match Flag.ofName? (String.ofList name) with
    | none => .error (.unrecognized arg)
    | some flag => .ok [flag]
  | '-' :: letters => letterFlags letters
  | _ => .error (.unexpected arg)

/-- The flags that the arguments set, up to the first fault. -/
def flags : List String → Except Fault (List Flag)
  | [] => .ok []
  | arg :: args =>
    match argFlags arg with
    | .error fault => .error fault
    | .ok now => (flags args).map (now ++ ·)

/-- What the arguments after the program's name ask for. -/
def ofArgs (args : List String) : Except Fault Options :=
  (flags args).map fun fs => fs.foldl set {}

/-- What an argument vector asks for; its first entry is the program's name. -/
def parse (argv : List String) : Except Fault Options := ofArgs argv.tail

def usage : String :=
  "Usage: shell [-hvp]\n" ++
  "   -h   print this message\n" ++
  "   -v   print additional diagnostic information\n" ++
  "   -p   do not emit a command prompt"

end Options
end JobControl

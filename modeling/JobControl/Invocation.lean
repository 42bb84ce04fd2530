import JobControl.Machine
import JobControl.Options

/-!
# The whole program

* `Invocation` : the arguments, the standard input and the files that the program is started with;
* `Outcome` : how it ends, and what it has written;
* `Invocation.run` : the program on a machine of its own.
-/

set_option autoImplicit false

namespace JobControl

structure Invocation where
  /-- The arguments after the program's name. -/
  args : List String := []
  input : List UInt8 := []
  files : Files := .system

structure Outcome where
  /-- The exit code; none if a signal has killed the program. -/
  code : Option Int := none
  signal : Option Signal := none
  out : List UInt8 := []
  err : List UInt8 := []
  files : Files := .system

namespace Invocation

/-- The exit code after anything that went wrong, and after the usage text. -/
def failureCode : Int := 1

/-- A message of the program that ends it. -/
def complaint (text : String) : List UInt8 := Utf8.encode s!"tsh: {text}\n"

def usage : List UInt8 := Utf8.encode (Options.usage ++ "\n")

/-- A poll for each byte of the input and one for its end. Input can always be read, and signals
when one has arrived. -/
def polls (input : List UInt8) : List (EventLoop.Poll (Reader Machine) Channel) :=
  List.replicate (input.length + 1) fun l => .ok fun channel =>
    match channel with
    | .signals => !l.shell.host.system.inbox.records.isEmpty
    | .input => true

/-- Read and evaluate the lines of the input. -/
def session (i : Invocation) (o : Options) : Outcome :=
  let host : Machine := { system := .boot i.files i.input }
  let shell : Shell Machine := { host, console := { verbose := o.verbose } }
  let (result, s) := Reader.run { shell, prompt := o.prompt } (polls i.input)
  let machine := s.host.hear s.console
  let out := machine.content 1
  let err := machine.content 2
  let files := machine.system.files
  match machine.system.killed, result with
  | some signal, _ => { signal, out, err, files }
  | none, some (.ok code) => { code, out, err, files }
  | none, some (.error e) =>
    { code := failureCode, out, err := err ++ complaint e.message, files }
  | none, none => { code := failureCode, out, err, files }

def run (i : Invocation) : Outcome :=
  match Options.ofArgs i.args with
  | .error fault =>
    { code := failureCode, out := usage, err := complaint fault.message, files := i.files }
  | .ok o =>
    if o.help then { code := failureCode, out := usage, files := i.files } else i.session o

end Invocation
end JobControl

import JobControl.Machine.Act
import JobControl.Machine.Script.Condition
import JobControl.Machine.Script.Print

/-!
# Commands that an interpreter carries out itself

The commands that only change the interpreter and its process. Those that change what is carried
out next belong to the interpreter.

* `SignalName.find?` : the signal of a number or a name; `SignalName.shown` : the name of a signal;
* `SignalName.describe` : what is said about a process that a signal has killed;
* `Refusal` : why a command failed;
* `Builtin.run` : carry out a command;
* `Builtin.isSpecial` : a failure of the command ends the script;
* `Step` : what comes of the next thing that an interpreter does;
* `Interpreter.complain`, `Interpreter.exit`, `Interpreter.abort` : complaints and the end of a
  script.
-/

set_option autoImplicit false

namespace JobControl.Machine.Script

/-! ## Names of signals -/

namespace SignalName

/-- The names of the signals from 0 on; signal 0 is the end of a script. -/
def names : List String :=
  ["EXIT", "HUP", "INT", "QUIT", "ILL", "TRAP", "ABRT", "BUS", "FPE", "KILL", "USR1", "SEGV",
   "USR2", "PIPE", "ALRM", "TERM", "16", "CHLD", "CONT", "STOP", "TSTP", "TTIN", "TTOU",
   "URG", "XCPU", "XFSZ", "VTALRM", "PROF", "WINCH", "IO", "PWR", "SYS", "32", "33", "RTMIN"] ++
    (List.range 15).map (fun n => s!"RTMIN+{n + 1}") ++
    (List.range 14).map (fun n => s!"RTMAX-{14 - n}") ++ ["RTMAX"]

def find? (word : String) : Option Signal :=
  match Decimal.natural? word.toList with
  | some n => if n ≤ Signal.count then some ⟨n⟩ else none
  | none => (names.findIdx? (· == word.map Char.toUpper)).map fun n => ⟨n⟩

def shown (s : Signal) : String := names.getD s.number.toNat (toString s)

/-- What is said about a process that the signal of a number has killed. -/
def descriptions : List String :=
  ["", "Hangup", "Interrupt", "Quit", "Illegal instruction", "Trace/breakpoint trap", "Aborted",
   "Bus error", "Floating point exception", "Killed", "User defined signal 1",
   "Segmentation fault", "User defined signal 2", "Broken pipe", "Alarm clock", "Terminated",
   "Stack fault", "Child exited", "Continued", "Stopped (signal)", "Stopped",
   "Stopped (tty input)", "Stopped (tty output)", "Urgent I/O condition",
   "CPU time limit exceeded", "File size limit exceeded", "Virtual timer expired",
   "Profiling timer expired", "Window changed", "I/O possible", "Power failure",
   "Bad system call", "Unknown signal 32", "Unknown signal 33"]

def describe (s : Signal) : String :=
  let n := s.number.toNat
  descriptions.getD n s!"Real-time signal {n - 34}"

end SignalName

/-! ## Carrying out a command -/

/-- A command that failed with a complaint. -/
structure Refusal where
  text : String
  status : Nat := 2
  deriving DecidableEq, Repr

/-- The interpreter after a command, and how it ended. -/
abbrev Answer := Except Refusal (Interpreter × Nat)

namespace Builtin

/-- Commands whose failure ends the script. -/
def special : List String :=
  [".", ":", "break", "continue", "eval", "exec", "exit", "export", "readonly", "return", "set",
   "shift", "times", "trap", "unset", "local"]

def isSpecial (name : String) : Bool := special.contains name

/-- Commands that change what is carried out next. -/
def controlling : List String :=
  [".", "break", "continue", "eval", "exec", "exit", "return", "wait", "read", "command"]

/-- Commands that only change the interpreter and its process. -/
def plain : List String :=
  [":", "true", "false", "echo", "printf", "test", "[", "cd", "chdir", "pwd", "umask", "shift",
   "set", "unset", "export", "readonly", "local", "kill", "trap", "type", "hash", "times",
   "ulimit", "alias", "unalias", "jobs", "bg", "fg", "getopts"]

def isBuiltin (name : String) : Bool := controlling.contains name || plain.contains name

def refuse (text : String) (status : Nat := 2) : Act Answer := return .error { text, status }

def done (i : Interpreter) (status : Nat := 0) : Act Answer := return .ok (i, status)

/-- Print, and end with a status. -/
def print (name : String) (i : Interpreter) (bytes : List UInt8) (status : Nat := 0) :
    Act Answer := do
  match ← Act.write 1 bytes with
  | .ok _ => done i status
  | .error _ => refuse s!"{name}: I/O error" 1

def printText (name : String) (i : Interpreter) (text : String) : Act Answer :=
  print name i (Utf8.encode text)

def number? (arg : String) : Option Nat := Decimal.natural? arg.toList

def illegalNumber (arg : String) : String := s!"Illegal number: {arg}"

def quote (text : String) : String :=
  "'" ++ String.join (text.toList.map fun c =>
    if c == '\'' then "'\"'\"'" else String.singleton c) ++ "'"

/-! ## Printing -/

def echo (i : Interpreter) (args : List String) : Act Answer :=
  let (newline, words) := match args with
    | "-n" :: rest => (false, rest)
    | _ => (true, args)
  let (bytes, ended) := Escapes.script (" ".intercalate words)
  print "echo" i (if newline && !ended then bytes ++ [10] else bytes)

def printf (i : Interpreter) (args : List String) : Act Answer := do
  match if args.head? == some "--" then args.tail else args with
  | [] => refuse "usage: printf format [arg ...]"
  | format :: args => do
    let (bytes, complaints) := Printf.format format args
    for text in complaints do
      Act.writeText 2 s!"{i.scope.name}: {i.scope.line}: printf: {text}\n"
    print "printf" i bytes (if complaints.isEmpty then 0 else 1)

/-! ## Conditions -/

/-- The answer to an operator of a condition that asks about a file. -/
def query (s : System) (p : Process) (o w : String) : Bool :=
  match s.findEntry p w with
  | .error _ => false
  | .ok (_, entry) =>
    match o, entry with
    | "-d", .directory => true
    | "-f", .file _ _ | "-f", .program _ => true
    | "-s", .file _ content => !content.isEmpty
    | "-s", .program _ | "-s", .directory => true
    | "-x", .program _ | "-x", .directory => true
    | "-c", .null | "-c", .full | "-c", .terminal => true
    | "-e", _ | "-r", _ | "-w", _ => true
    | _, _ => false

def test (i : Interpreter) (args : List String) : Act Answer := do
  match Condition.holds (query (← getThe System) (← Act.self)) args with
  | .ok true => done i 0
  | .ok false => done i 1
  | .error text => refuse text

def bracket (i : Interpreter) (args : List String) : Act Answer :=
  if args.getLast? == some "]" then test i args.dropLast else refuse "missing ]"

/-! ## The working directory and the mask -/

def pathText (p : Path) : String := "/" ++ "/".intercalate p

def cd (i : Interpreter) (args : List String) : Act Answer := do
  let args := args.dropWhile fun arg => arg == "-P" || arg == "-L" || arg == "--"
  let p ← Act.self
  let (path, shows) := match args with
    | "-" :: _ => ((i.scope.get? "OLDPWD").getD "", true)
    | arg :: _ => (arg, false)
    | [] => ((i.scope.get? "HOME").getD "", false)
  match (← getThe System).findEntry p (if path == "" then "." else path) with
  | .ok (dir, .directory) => do
    Act.change fun p => { p with dir }
    let scope := (i.scope.set "OLDPWD" (pathText p.dir)).getD i.scope
    let scope := (scope.set "PWD" (pathText dir)).getD scope
    let i := { i with scope := (scope.exportVar "OLDPWD").exportVar "PWD" }
    if shows then printText "cd" i (pathText dir ++ "\n") else done i
  | _ => refuse s!"can't cd to {path}"

def octal (n width : Nat) : String :=
  let digits := Nat.toDigits 8 n
  String.ofList (List.replicate (width - digits.length) '0' ++ digits)

def permissions (mask shift : Nat) : String :=
  let bits := 7 - (mask >>> shift) % 8
  (if bits &&& 4 != 0 then "r" else "") ++ (if bits &&& 2 != 0 then "w" else "") ++
    if bits &&& 1 != 0 then "x" else ""

def umask (i : Interpreter) (args : List String) : Act Answer := do
  let mask := (← Act.self).mask
  match args with
  | [] => printText "umask" i (octal mask 4 ++ "\n")
  | ["-S"] =>
    printText "umask" i
      s!"u={permissions mask 6},g={permissions mask 3},o={permissions mask 0}\n"
  | "-S" :: arg :: _ | arg :: _ =>
    let cs := arg.toList
    if cs.all Char.isDigit then
      let n := cs.foldl (fun n c => 8 * n + Decimal.digit c) 0
      if cs.all Escapes.isOctal && n ≤ 0o777 then do
        Act.change fun p => { p with mask := n }
        done i
      else refuse (illegalNumber arg)
    else refuse s!"Illegal mode: {arg}"

/-! ## Variables -/

def shift (i : Interpreter) (args : List String) : Act Answer :=
  match args with
  | [] => go 1
  | arg :: _ =>
    match number? arg with
    | some n => go n
    | none => refuse (illegalNumber arg)
where
  go (n : Nat) : Act Answer :=
    if n ≤ i.scope.args.length then
      done { i with scope := { i.scope with args := i.scope.args.drop n } }
    else refuse "can't shift that many"

/-- Jobs of a script need a terminal, which there is none of. -/
def noTerminal : String := "can't access tty; job control turned off"

def sorted (vars : List Variable) : List Variable := vars.mergeSort fun a b => a.name ≤ b.name

def setCommand (i : Interpreter) (args : List String) : Act Answer :=
  if args.isEmpty then
    printText "set" i (String.join ((sorted i.scope.vars).filterMap fun v =>
      v.value.map fun value => s!"{v.name}={quote value}\n"))
  else
    match i.scope.switches.take [] args with
    | .error text => refuse text
    | .ok taken => do
      let switches := if taken.letters.contains '-' then
          (taken.switches.put .xtrace false).put .verbose false
        else taken.switches
      if switches.has .monitor then
        Act.writeText 2 s!"{i.scope.name}: {i.scope.line}: set: {noTerminal}\n"
      let keepsArgs := taken.rest.isEmpty && (!taken.isEnded || taken.letters.contains '-')
      let i := { i with scope := { i.scope with
        switches := switches.put .monitor false
        args := if keepsArgs then i.scope.args else taken.rest } }
      if taken.shown == "" then done i else printText "set" i taken.shown

def unset (i : Interpreter) (args : List String) : Act Answer :=
  let functions := args.head? == some "-f"
  let names := args.filter fun arg => arg != "-f" && arg != "-v"
  if functions then
    done { i with functions := i.functions.filter fun (name, _) => !names.contains name }
  else
    let step (a : Except String Scope) (name : String) : Except String Scope :=
      match a with
      | .error text => .error text
      | .ok s =>
        if !isName name.toList then .error s!"{name}: bad variable name"
        else (s.unset name).elim (.error s!"{name}: is read only") .ok
    match names.foldl step (.ok i.scope) with
    | .ok scope => done { i with scope }
    | .error text => refuse text

def splitAssignment (arg : String) : String × Option String :=
  let cs := arg.toList
  let name := String.ofList (cs.takeWhile (· != '='))
  match cs.dropWhile (· != '=') with
  | _ :: value => (name, some (String.ofList value))
  | [] => (name, none)

/-- Set variables, if values are given, and mark them. -/
def declare (mark : Scope → String → Scope) (s : Scope) : List String → Except String Scope
  | [] => .ok s
  | arg :: rest =>
    let (name, value) := splitAssignment arg
    if !isName name.toList then .error s!"{name}: bad variable name"
    else
      match value with
      | none => declare mark (mark s name) rest
      | some value =>
        match s.set name value with
        | some s => declare mark (mark s name) rest
        | none => .error s!"{name}: is read only"

def declaring (name : String) (mark : Scope → String → Scope) (has : Variable → Bool)
    (i : Interpreter) (args : List String) : Act Answer :=
  let names := args.filter fun arg => arg != "-p" && arg != "--"
  if names.isEmpty then
    printText name i (String.join ((sorted (i.scope.vars.filter has)).map fun v =>
      name ++ " " ++ v.name ++ (v.value.elim "" fun value => "=" ++ quote value) ++ "\n"))
  else
    match declare mark i.scope names with
    | .ok scope => done { i with scope }
    | .error text => refuse text

def markReadOnly (s : Scope) (name : String) : Scope :=
  s.put { (s.find? name).getD { name } with isReadOnly := true }

/-- Remember the variables of the innermost function that get other values there. -/
def localize (s : Scope) (names : List String) : List Frame → Option (List Frame)
  | [] => none
  | .leave args locals :: rest =>
    let fresh := names.filter fun name => (locals.lookup name).isNone
    some (.leave args (locals ++ fresh.map fun name => (name, s.find? name)) :: rest)
  | f :: rest => (localize s names rest).map (f :: ·)

def localCommand (i : Interpreter) (args : List String) : Act Answer :=
  match localize i.scope (args.map fun arg => (splitAssignment arg).1) i.frames with
  | none => refuse "not in a function"
  | some frames =>
    match declare (fun s _ => s) i.scope args with
    | .ok scope => done { i with scope, frames }
    | .error text => refuse text

/-! ## Signals -/

def killUsage : String :=
  "Usage: kill [-s sigspec | -signum | -sigspec] [pid | job]... or\nkill -l [exitstatus]"

/-- The signal that the arguments of `kill` name, and its operands. -/
def killArgs : List String → Except String (Signal × List String)
  | "--" :: rest => .ok (.term, rest)
  | "-s" :: name :: rest =>
    match SignalName.find? name with
    | some s => .ok (s, rest)
    | none => .error s!"invalid signal number or name: {name}"
  | ["-s"] => .error "No arg for -s option"
  | arg :: rest =>
    match arg.toList with
    | '-' :: cs =>
      let isGiven (s : Signal) : Bool := s.number != 0 || cs == ['0']
      match (SignalName.find? (String.ofList cs)).filter isGiven with
      | some s => .ok (s, rest)
      | none => .error ("Illegal option -" ++ String.ofList (cs.take 1))
    | _ => .ok (.term, arg :: rest)
  | [] => .error killUsage

def killTarget (arg : String) : Except String Int :=
  match arg.toList with
  | '%' :: _ => .error s!"No such job: {arg}"
  | '-' :: cs =>
    match Decimal.natural? cs with
    | some n => .ok (-Int.ofNat n)
    | none => .error (illegalNumber (String.ofList cs))
  | cs =>
    match Decimal.natural? cs with
    | some n => .ok n
    | none => .error (illegalNumber arg)

/-- Send a signal to each operand in turn; `status` is how it went so far. -/
def killEach (i : Interpreter) (s : Signal) (status : Nat) : List String → Act Answer
  | [] => done i status
  | arg :: rest => do
    match killTarget arg with
    | .error text => refuse text
    | .ok target => do
      let p ← Act.self
      match (← getThe System).send p.group target s with
      | .ok system => do
        -- a signal to the script itself may have been its end
        if p.isActive then set system
        killEach i s status rest
      | .error e => do
        Act.writeText 2 s!"{i.scope.name}: {i.scope.line}: kill: {Act.describe e}\n\n"
        killEach i s 1 rest

/-- The name of a signal, which may be given as the status of a process that it has killed. -/
def killName (i : Interpreter) (arg : String) : Act Answer :=
  match number? arg with
  | some n => printText "kill" i (SignalName.shown ⟨if 128 < n then n - 128 else n⟩ ++ "\n")
  | none => refuse (illegalNumber arg)

def kill (i : Interpreter) (args : List String) : Act Answer :=
  match args with
  | ["-l"] => printText "kill" i (String.join (("0" :: SignalName.names.tail).map (· ++ "\n")))
  | "-l" :: arg :: _ => killName i arg
  | _ =>
    match killArgs args with
    | .error text => refuse text
    | .ok (_, []) => refuse killUsage
    | .ok (s, operands) => killEach i s 0 operands

/-- What the process does from now on when a signal arrives. -/
def arrange (fixed : List Signal) (s : Signal) (action : Option String) (p : Process) : Process :=
  if s.number = 0 || s.isUncatchable || fixed.contains s then p
  else
    let ignored := p.ignored.filter (· != s)
    let caught := p.caught.filter (· != s)
    match action with
    | none => { p with ignored, caught }
    | some "" => { p with ignored := s :: ignored, caught }
    | some _ => { p with ignored, caught := s :: caught }

/-- Set the traps of signals, up to a name that is none. -/
def setTraps (i : Interpreter) (action : Option String) : List String → Act Answer
  | [] => done i
  | name :: rest => do
    match SignalName.find? name with
    | none => do
      Act.writeText 2 s!"trap: {name}: bad trap\n"
      done i 1
    | some s => do
      Act.change (arrange i.fixed s action)
      let others := i.traps.filter (·.1 != s)
      setTraps { i with traps := action.elim others fun a => (s, a) :: others } action rest

def trap (i : Interpreter) (args : List String) : Act Answer :=
  match if args.head? == some "--" then args.tail else args with
  | [] =>
    let shown := i.traps.mergeSort fun a b => a.1.number ≤ b.1.number
    printText "trap" i (String.join (shown.map fun (s, action) =>
      s!"trap -- {quote action} {SignalName.shown s}\n"))
  | [name] => setTraps i none [name]
  | action :: names => setTraps i (if action == "-" then none else some action) names

/-! ## Names of commands -/

def directories (s : Scope) : List String :=
  ((s.get? "PATH").getD "").splitOn ":"

/-- The program that the name of a command means. A directory without a name is the working
directory. -/
def program (scope : Scope) (name : String) : Act Search.Found := do
  let files := (← getThe System).files
  let dir := (← Act.self).dir
  if name.contains '/' then return Search.atPath files dir name
  else
    return Search.best ((directories scope).map fun d =>
      Search.atPath files dir (if d == "" then name else d ++ "/" ++ name))

/-- What a name means. -/
inductive Meaning where
  | keyword
  | function
  | builtin (isSpecial : Bool)
  | file (path : String)
  | nothing

def meaning (i : Interpreter) (name : String) : Act Meaning := do
  if keywords.contains name then return .keyword
  else if (i.functions.lookup name).isSome then return .function
  else if isBuiltin name then return .builtin (isSpecial name)
  else
    match ← program i.scope name with
    | .program _ path => return .file path
    | .denied => return if name.contains '/' then .file name else .nothing
    | .nothing => return .nothing

/-- What `type` prints about a name, and whether it means something. -/
def typeText (i : Interpreter) (name : String) : Act (String × Bool) := do
  match ← meaning i name with
  | .keyword => return (s!"{name} is a shell keyword\n", true)
  | .function => return (s!"{name} is a shell function\n", true)
  | .builtin true => return (s!"{name} is a special shell builtin\n", true)
  | .builtin false => return (s!"{name} is a shell builtin\n", true)
  | .file path => return (s!"{name} is {path}\n", true)
  | .nothing => return (s!"{name}: not found\n", false)

def typeEach (name : String) (i : Interpreter) (status : Nat) : List String → Act Answer
  | [] => done i status
  | arg :: rest => do
    let (text, found) ← typeText i arg
    match ← print name i (Utf8.encode text) with
    | .error r => return .error r
    | .ok _ => typeEach name i (if found then status else 127) rest

/-- The command `command` with the option `-v`. -/
def locate (i : Interpreter) (name : String) : Act Answer := do
  match ← meaning i name with
  | .keyword | .function | .builtin _ => printText "command" i (name ++ "\n")
  | .file path => printText "command" i (path ++ "\n")
  | .nothing => done i 127

/-! ## Running -/

def run (name : String) (args : List String) (i : Interpreter) : Option (Act Answer) :=
  match name with
  | ":" | "true" | "hash" | "times" | "ulimit" | "alias" | "jobs" => some (done i)
  | "false" | "getopts" | "bg" | "fg" => some (done i 1)
  | "unalias" => some (done i (if args.isEmpty then 0 else 1))
  | "echo" => some (echo i args)
  | "printf" => some (printf i args)
  | "test" => some (test i args)
  | "[" => some (bracket i args)
  | "cd" | "chdir" => some (cd i args)
  | "pwd" => some (do printText "pwd" i (pathText (← Act.self).dir ++ "\n"))
  | "umask" => some (umask i args)
  | "shift" => some (shift i args)
  | "set" => some (setCommand i args)
  | "unset" => some (unset i args)
  | "export" => some (declaring "export" Scope.exportVar (·.isExported) i args)
  | "readonly" => some (declaring "readonly" markReadOnly (·.isReadOnly) i args)
  | "local" => some (localCommand i args)
  | "kill" => some (kill i args)
  | "trap" => some (trap i args)
  | "type" => some (typeEach "type" i 0 args)
  | _ => none

end Builtin

/-! ## Steps -/

inductive Step where
  | goOn (i : Interpreter)
  /-- The same thing is to be done when something is there. -/
  | wait (need : Need) (i : Interpreter)
  /-- A program takes the place of the interpreter. -/
  | become (name : String) (argv : List String) (exported : List (String × String))
  | finish (code : Nat)

namespace Interpreter

def complain (i : Interpreter) (text : String) : Act Unit :=
  let label := i.label.elim "" fun label => label ++ ": "
  Act.writeText 2 s!"{i.scope.name}: {i.scope.line}: {label}{text}\n"

/-- The script ends: what is left is not carried out. -/
def exit (i : Interpreter) (status : Nat) : Interpreter :=
  { i.withStatus status with frames := [] }

def abort (i : Interpreter) (text : String) (status : Nat := 2) : Act Step := do
  i.complain text
  return .goOn (i.exit status)

end Interpreter

end JobControl.Machine.Script

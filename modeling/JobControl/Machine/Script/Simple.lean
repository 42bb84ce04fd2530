import JobControl.Machine.Script.Redirect
import JobControl.Machine.Script.Children

/-!
# Simple commands

* `Interpreter.external` : find a program and run it;
* `Interpreter.control` : the commands that change what is done next;
* `Interpreter.invoke` : call a function, a command of the interpreter or a program;
* `Interpreter.carryOut` : assign and invoke.
-/

set_option autoImplicit false

namespace JobControl.Machine.Script.Interpreter

/-! ## Changes that are undone -/

/-- The variables that have other values in `s`, with their values in `i`. -/
def changedVars (i : Interpreter) (s : Scope) (names : List String) :
    List (String × Option Variable) :=
  names.map fun name => (name, if (s.find? name).isSome then i.scope.find? name else none)

def putVars (i : Interpreter) (vars : List (String × Option Variable)) : Interpreter :=
  { i with scope := vars.foldl (fun s (name, v) =>
      match v with
      | some v => s.put v
      | none => { s with vars := s.vars.filter (·.name != name) }) i.scope }

/-- A failure counts from here on, unless it is tested. -/
def judged (i : Interpreter) (mode : Mode) : Interpreter :=
  if i.scope.switches.has .errexit && !mode.isTested then i.push (.judge mode) else i

/-- End a command that failed with a complaint; the failure of a special command ends the script,
unless it was called by another. -/
def refused (i : Interpreter) (isCalled : Bool) (name : String) (r : Refusal) : Act Step := do
  (i.labelled name).complain r.text
  if Builtin.isSpecial name && !isCalled then return .goOn (i.exit r.status)
  else return .goOn (i.withStatus r.status)

/-! ## Loops and functions -/

/-- Leave loops: so many of those around, the innermost first. With `again`, the last of them goes
on with its next round. -/
def leaveLoops (again : Bool) : Nat → Interpreter → List Frame → Act Interpreter
  | _, i, [] => return i
  | n, i, f :: rest => do
    let i := { i with frames := rest }
    match f with
    | .round l mode =>
      if n ≤ 1 then return if again then i.push (.loop l mode 0) else i
      else leaveLoops again (n - 1) i rest
    | .check isUntil test body mode status =>
      if n ≤ 1 then return if again then i.push (.loop (.test isUntil test body) mode status) else i
      else leaveLoops again (n - 1) i rest
    | .restore kept => do
      restore kept
      leaveLoops again n i rest
    | .unassign vars => leaveLoops again n (i.putVars vars) rest
    | .relabel label => leaveLoops again n { i with label } rest
    | .leave _ _ => return i.push f
    | _ => leaveLoops again n i rest

/-- How many loops there are around, within the innermost function. -/
def loopDepth : List Frame → Nat
  | [] => 0
  | .round _ _ :: rest | .check _ _ _ _ _ :: rest => loopDepth rest + 1
  | .leave _ _ :: _ => 0
  | _ :: rest => loopDepth rest

/-- How many functions may have been called within one another. -/
def deepest : Nat := 1000

def depth (frames : List Frame) : Nat := frames.countP (· matches .leave _ _)

/-- Leave the innermost function or file; the script ends if there is none. -/
def leaveFunction : Interpreter → List Frame → Act Interpreter
  | i, [] => return { i with frames := [] }
  | i, f :: rest => do
    let i := { i with frames := rest }
    match f with
    | .leave _ _ => return i.push f
    | .source _ _ true => return i
    | .restore kept => do
      restore kept
      leaveFunction i rest
    | .unassign vars => leaveFunction (i.putVars vars) rest
    | .relabel label => leaveFunction { i with label } rest
    | _ => leaveFunction i rest

/-- The status that a trap will put back. -/
def settled? : List Frame → Option Nat
  | [] => none
  | .settle status :: _ => some status
  | _ :: rest => settled? rest

/-! ## Programs -/

/-- Start a program, or take its place if nothing follows. -/
def runProgram (i : Interpreter) (name : String) (argv : List String) (scope : Scope)
    (mode : Mode) : Act Step := do
  if mode.isLast && !i.hasTraps then return .become name argv scope.exported
  else do
    let pid ← Act.fork fun p => Act.running name argv scope.exported p
    return .goOn (i.push (.await [pid]))

/-- Run a program by the name of a command. `label` is put before complaints. -/
def external (i : Interpreter) (argv : List String) (scope : Scope) (mode : Mode) : Act Step := do
  let command := argv.headD ""
  match ← Builtin.program scope command with
  | .program name _ => i.runProgram name argv scope mode
  | .denied => do
    i.complain s!"{command}: Permission denied"
    return .goOn (i.withStatus (if command.contains '/' then 126 else 127))
  | .nothing => do
    i.complain s!"{command}: not found"
    return .goOn (i.withStatus 127)

def exec (i : Interpreter) (args : List String) (scope : Scope) : Act Step := do
  match if args.head? == some "--" then args.tail else args with
  | [] => do
    let i := { i.withStatus 0 with scope := { scope with status := 0 } }
    match i.frames with
    | .restore kept :: rest => do
      Act.change fun p => kept.foldl (fun p k =>
        k.keeper.elim p fun keeper => p.putStream keeper none) p
      return .goOn { i with frames := rest }
    | _ => return .goOn i
  | command :: rest => do
    match ← Builtin.program scope command with
    | .program name _ => return .become name (command :: rest) scope.exported
    | .denied =>
      (i.labelled "exec").abort s!"{command}: Permission denied" 126
    | .nothing => (i.labelled "exec").abort s!"{command}: not found" 127

/-! ## Commands that change what is done next -/

/-- The path of a file that the command `.` names. -/
def sourcePath (i : Interpreter) (name : String) : Act (Option String) := do
  if name.contains '/' then return some name
  else
    let files := (← getThe System).files
    let dir := (← Act.self).dir
    return ((Builtin.directories i.scope).map (· ++ "/" ++ name)).find? fun path =>
      match files.find dir path with
      | .ok (_, .file _ _) => true
      | _ => false

/-- The text of a script. -/
def scriptText (name : String) : Act (Except SystemError (List Char)) := do
  match ← Act.openFile .toRead name with
  | .error e => return .error e
  | .ok d =>
    match ← Act.readFrom d 1000000000 with
    | .ok bytes => return .ok (Utf8.decode bytes).toList
    | .error _ => return .ok []

/-- Carry out a text in the place of a command. -/
def sourced (i : Interpreter) (label : String) (text : List Char) (mode : Mode) (isFile : Bool) :
    Interpreter :=
  { (i.withStatus 0).pushAll
      [.source { rest := text } { mode.inner with isLast := false } isFile, .relabel i.label] with
    label := some label }

/-- What `wait` is asked to wait for; none if an operand is no process. -/
def awaited (i : Interpreter) : List String → Option (List Awaited)
  | [] => some [.all]
  | args => args.mapM fun arg => (Decimal.natural? arg.toList).map fun n =>
      if i.children.contains ⟨n⟩ then .one ⟨n⟩ else .one ⟨0⟩

def readOptions (raw : Bool) : List String → Except String (Bool × List String)
  | "-r" :: rest => readOptions true rest
  | "-p" :: _ :: rest => readOptions raw rest
  | "--" :: rest => .ok (raw, rest)
  | arg :: rest =>
    match arg.toList with
    | '-' :: c :: _ => .error s!"Illegal option -{c}"
    | _ => .ok (raw, arg :: rest)
  | [] => .ok (raw, [])

/-- A command that changes what is carried out next. -/
def control (i : Interpreter) (isCalled : Bool) (name : String) (args : List String)
    (scope : Scope) (mode : Mode) : Act Step := do
  let refuse (text : String) : Act Step := i.refused isCalled name { text }
  let status (most : Option Nat) (go : Nat → Act Step) : Act Step := do
    match args with
    | [] => go (most.getD i.status)
    | arg :: _ =>
      match Builtin.number? arg with
      | some n => go n
      | none => refuse (Builtin.illegalNumber arg)
  match name with
  | "exit" =>
    status (settled? i.frames) fun n => return .goOn (i.exit (n % 256))
  | "return" => status none fun n => do return .goOn (← leaveFunction (i.withStatus n) i.frames)
  | "break" | "continue" =>
    status (some 1) fun n => do
      let depth := loopDepth i.frames
      if n = 0 then refuse (Builtin.illegalNumber "0")
      else if depth = 0 then return .goOn (i.withStatus 0)
      else do
        let i ← leaveLoops (name == "continue") (min n depth) (i.withStatus 0) i.frames
        return .goOn i
  | "eval" =>
    match args with
    | [] => return .goOn (i.withStatus 0)
    | _ => return .goOn (i.sourced "eval" (" ".intercalate args).toList mode false)
  | "." =>
    match args with
    | [] => return .goOn (i.withStatus 0)
    | file :: _ => do
      match ← i.sourcePath file with
      | none => refuse s!"{file}: not found"
      | some path =>
        match ← scriptText path with
        | .error e => refuse s!"cannot open {path}: {openComplaint false e}"
        | .ok text => return .goOn (i.sourced path text mode true)
  | "exec" => i.exec args scope
  | "wait" =>
    match i.awaited args with
    | some what => return .goOn (i.push (.wait what))
    | none => refuse (Builtin.illegalNumber ((args.find? fun arg =>
        (Decimal.natural? arg.toList).isNone).getD ""))
  | "read" =>
    match readOptions false args with
    | .error text => refuse text
    | .ok (raw, names) => do
      match names.find? fun name => !isName name.toList with
      | some name => refuse s!"{name}: bad variable name"
      | none =>
        if names.isEmpty then refuse "arg count"
        else return .goOn (i.push (.read raw names [] false))
  | _ => return .goOn i

/-! ## Invocation -/

/-- Carry out a command by its name and arguments; `scope` has the variables set for it. With
`isCalled`, it was called by `command`, and functions do not count. -/
def invoke (i : Interpreter) (argv : List String) (names : List String) (scope : Scope)
    (isCalled : Bool) (mode : Mode) : Act Step := do
  let name := argv.headD ""
  let args := argv.tail
  let own := i.changedVars scope names
  match if isCalled then none else i.functions.lookup name with
  | some body =>
    if deepest ≤ depth i.frames then
      return ← i.abort s!"Maximum function recursion depth ({deepest}) reached"
    let former := i.scope.args
    return .goOn ({ i with scope := { scope with args } }.pushAll
      [.run body { isTested := mode.isTested }, .leave former own])
  | none =>
    if Builtin.controlling.contains name then
      let i := { i with scope := { scope with status := i.status } }
      let i := if Builtin.isSpecial name || names.isEmpty then i else i.push (.unassign own)
      i.control isCalled name args scope mode
    else
      let i' := { i with scope }
      match Builtin.run name args i' with
      | none => i.external argv scope mode
      | some act => do
        match ← act with
        | .error r => i.refused isCalled name r
        | .ok (j, status) =>
          let j := if Builtin.isSpecial name then j else j.putVars own
          return .goOn (j.withStatus status)

/-- The words after `command` and its options. -/
def commandWords : List String → Except String (List String)
  | "-p" :: rest => commandWords rest
  | "--" :: rest => .ok rest
  | arg :: rest =>
    match arg.toList with
    | '-' :: c :: _ => .error s!"Illegal option -{c}"
    | _ => .ok (arg :: rest)
  | [] => .ok []

/-- Where complaints went before the redirections of the command, if it has any. -/
def complaintStream (i : Interpreter) (isRedirected : Bool) : Option Nat :=
  match isRedirected, i.frames with
  | true, .restore kept :: _ => (kept.find? (·.stream == 2)).elim (some 2) Kept.keeper
  | _, _ => some 2

/-- Show a command before it is carried out. -/
def trace (i : Interpreter) (values : List (String × String)) (argv : List String)
    (isRedirected : Bool) : Act Unit := do
  if i.scope.switches.has .xtrace then
    let assigns := values.map fun (name, value) => name ++ "=" ++ value
    match i.complaintStream isRedirected with
    | some stream => Act.writeText stream ("+ " ++ " ".intercalate (assigns ++ argv) ++ "\n")
    | none => return ()

/-- Carry out a simple command whose words and variables are known. `status` is that of the last
command whose output it has used; with `isRedirected`, the topmost frame puts streams back. -/
def carryOut (i : Interpreter) (argv : List String) (values : List (String × String))
    (isRedirected : Bool) (scope : Scope) (status : Option Nat) (mode : Mode) : Act Step := do
  let i ← i.reapChildren ((← getThe System).clock - Act.endTime) i.children
  i.trace values argv isRedirected
  let names := values.map (·.1)
  let exporting := names.foldl Scope.exportVar scope
  match argv with
  | [] => return .goOn ({ i with scope }.withStatus (status.getD 0))
  | "command" :: rest =>
    match rest with
    | ["-v"] | ["-V"] => return .goOn (i.withStatus 0)
    | "-v" :: name :: _ => do
      match ← Builtin.locate i name with
      | .ok (i, status) => return .goOn (i.withStatus status)
      | .error r => i.refused true "command" r
    | "-V" :: names => do
      match ← Builtin.typeEach "command" i 0 names with
      | .ok (i, status) => return .goOn (i.withStatus status)
      | .error r => i.refused true "command" r
    | _ =>
      match commandWords rest with
      | .error text => i.refused true "command" { text }
      | .ok [] => return .goOn (i.withStatus 0)
      -- a failure of a special command does not end the script here
      | .ok argv => i.invoke argv names exporting true mode
  | name :: _ =>
    if Builtin.isSpecial name then i.invoke argv names scope false mode
    else i.invoke argv names exporting false mode

end JobControl.Machine.Script.Interpreter

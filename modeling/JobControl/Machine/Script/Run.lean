import JobControl.Machine.Script.Simple
import JobControl.Machine.Script.Builtin

/-!
# Carrying out scripts

* `Interpreter.readByte` : read the next byte of a line for the command `read`; `Interpreter.divide`
  divides the line among variables;
* `Interpreter.step` : do the next thing;
* `Interpreter.ofArgs` : the interpreter that a call of `sh` starts.

The topmost frame says what is done next. Traps are carried out between commands.
-/

set_option autoImplicit false

namespace JobControl.Machine.Script.Interpreter

/-! ## The command `read` -/

/-- Text of a line, each character with whether it was protected by a backslash. -/
abbrev Marked := List (Char × Bool)

def isSeparator (separators : List Char) (c : Char × Bool) : Bool :=
  !c.2 && separators.contains c.1

def isBlankSeparator (separators : List Char) (c : Char × Bool) : Bool :=
  isSeparator separators c && " \t\n".contains c.1

def marked (cs : Marked) : String := String.ofList (cs.map (·.1))

def divide (separators : List Char) : List String → Marked → List (String × String)
  | [], _ => []
  | [name], cs =>
    let cs := cs.dropWhile (isBlankSeparator separators)
    [(name, marked (cs.reverse.dropWhile (isBlankSeparator separators)).reverse)]
  | name :: names, cs =>
    let cs := cs.dropWhile (isBlankSeparator separators)
    let field := cs.takeWhile (!isSeparator separators ·)
    let rest := (cs.drop field.length).dropWhile (isBlankSeparator separators)
    let rest := match rest with
      | c :: more => if isSeparator separators c && field.length < cs.length &&
            !(isBlankSeparator separators c) then more else rest
      | [] => []
    (name, marked field) :: divide separators names rest

/-- Characters with the marks of their first bytes. -/
def markEach : List Char → List Bool → Marked
  | [], _ => []
  | c :: cs, marks => (c, marks.headD false) :: markEach cs (marks.drop c.utf8Size)

def markedOf (bytes : List (UInt8 × Bool)) : Marked :=
  markEach (Utf8.decode (bytes.map (·.1))).toList (bytes.map (·.2))

/-- A line is there, or the end of the input: set the variables. -/
def endRead (i : Interpreter) (names : List String) (bytes : List (UInt8 × Bool))
    (status : Nat) : Interpreter :=
  let values := divide i.scope.separators names (markedOf bytes)
  { i.withStatus status with
    scope := values.foldl (fun s (name, value) => (s.set name value).getD s)
      { i.scope with status } }

/-- Read the next byte of a line. Zero bytes are left out. -/
def readByte (i : Interpreter) (raw : Bool) (names : List String) (done : List (UInt8 × Bool))
    (escaped : Bool) : Act Step := do
  match (← Act.self).stream? 0 with
  | none => return .goOn (i.endRead names [] 1)
  | some d =>
    let again (done : List (UInt8 × Bool)) (escaped : Bool) : Interpreter :=
      i.push (.read raw names done escaped)
    if !(← getThe System).canReadNow d then return .wait (.data d) (again done escaped)
    else
      match ← Act.readFrom d 1 with
      | .ok [] | .error _ => return .goOn (i.endRead names done.reverse 1)
      | .ok (b :: _) =>
        if b = 0 then return .goOn (again done escaped)
        else if escaped then
          return .goOn (if b = 10 then again done false else again ((b, true) :: done) false)
        else if b = 92 && !raw then return .goOn (again done true)
        else if b = 10 then return .goOn (i.endRead names done.reverse 0)
        else return .goOn (again ((b, false) :: done) false)

/-! ## Expansion -/

def chosen (text : List Char) : List (List Word × Option Command) → Expand (Option Command)
  | [] => return none
  | (patterns, body) :: rest => do
    if ← isAnyMatch patterns then return body
    else chosen text rest
where
  isAnyMatch : List Word → Expand Bool
    | [] => return false
    | w :: ws => do
      if (← Expand.patternOf w).isMatch text then return true
      else isAnyMatch ws

/-- An expansion does not go on. If it needs the output of commands, they are started, and the
expansion is done again later. -/
def stopped (i : Interpreter) (stop : Stop) (task : Task) (answers : List String)
    (status : Option Nat) : Act Step := do
  match stop with
  | .fault text => i.abort text
  | .unreadable text => (i.atLine i.readLine).abort s!"Syntax error: {text}"
  | .needs c scope => return .goOn (← (i.push (.expand task answers status)).startOutput c scope)

/-- Do an expansion, and go on with its result. -/
def expanding {α : Type} (i : Interpreter) (task : Task) (answers : List String)
    (status : Option Nat) (e : Expand α) (go : Interpreter → α → Act Step) : Act Step := do
  match e.run { scope := i.scope, answers } with
  | .ok (a, stage) => go { i with scope := stage.scope } a
  | .error stop => i.stopped stop task answers status

def expand (i : Interpreter) (task : Task) (answers : List String) (status : Option Nat) :
    Act Step := do
  let files := (← getThe System).files
  let dir := (← Act.self).dir
  let glob (p : Pattern) : List String := p.paths files dir
  match task with
  | .simple line assigns words redirects mode =>
    let e : Expand (List String × List Directed) := do
      let fields ← Expand.commandFields glob false words
      return (fields, ← directed redirects)
    (i.atLine line).expanding task answers status e fun i (fields, rs) => do
      let (kept, fault) ← i.redirect false [] rs
      let i := (i.judged mode)
      let i := if kept.isEmpty then i else i.push (.restore kept)
      let task := Task.assign fields assigns (!kept.isEmpty) mode
      match fault with
      | none => return .goOn (i.push (.expand task [] status))
      | some text => do
        i.complain text
        if Builtin.isSpecial (fields.headD "") then
          return .goOn (i.exit 2)
        else return .goOn (i.withStatus 2)
  | .assign fields assigns isRedirected mode =>
    match (Expand.assignments assigns).run { scope := i.scope, answers } with
    | .ok (values, stage) => i.carryOut fields values isRedirected stage.scope status mode
    | .error stop => i.stopped stop task answers status
  | .redirect redirects body isFinal mode =>
    i.expanding task answers status (directed redirects) fun i rs => do
      let (kept, fault) ← i.redirect isFinal [] rs
      let i := if kept.isEmpty then i else i.push (.restore kept)
      match fault with
      | none => return .goOn (i.push (.run body mode.inner))
      | some text => do
        i.complain text
        return .goOn (i.withStatus 2)
  | .each name words body mode =>
    i.expanding task answers status (Expand.fields glob words) fun i values =>
      return .goOn ((i.withStatus 0).push (.loop (.each name values body) mode 0))
  | .choose subject cases mode =>
    let e : Expand (Option Command) := do
      let text ← Expand.valueOf subject
      chosen text.toList cases
    i.expanding task answers status e fun i body =>
      match body with
      | some c => return .goOn (i.push (.run c mode))
      | none => return .goOn (i.withStatus 0)

/-! ## Commands -/

def run (i : Interpreter) (c : Command) (mode : Mode) : Act Step := do
  if i.scope.switches.has .noexec then return .goOn i
  match c with
  | .simple line assigns words redirects =>
    (i.atLine line).expand (.simple line assigns words redirects mode) [] none
  | .pipeline commands => do
    let pids ← startPipeline (fun c _ f =>
      i.forkPart [.run c { mode with isLast := true }] f) none commands
    return .goOn ((i.judged mode).push (.await pids))
  | .negated c => return .goOn (i.pushAll [.run c .tested, .negate])
  | .both a b => return .goOn (i.pushAll [.run a .tested, .next b mode true])
  | .either a b => return .goOn (i.pushAll [.run a .tested, .next b mode false])
  | .sequence a b => return .goOn (i.pushAll [.run a mode.inner, .run b mode])
  | .background line c => do
    let i := i.atLine line
    let pids ← match c with
      | .pipeline commands => startPipeline i.startBackground none commands
      | _ => do
        let pid ← i.startBackground c true id
        pure [pid]
    let background := pids.getLast?.or i.scope.background
    return .goOn { (i.withStatus 0) with
      scope := { i.scope with background, status := 0 }
      children := i.children ++ pids }
  | .subshell line c redirects =>
    let i := i.atLine line
    if mode.isLast && !i.hasTraps then
      return .goOn (i.push (.expand (.redirect redirects c true mode) [] none))
    else do
      let inner := { mode with isLast := true }
      let frames := if redirects.isEmpty then [Frame.run c inner]
        else [Frame.expand (.redirect redirects c true inner) [] none]
      let pid ← i.forkPart frames id
      return .goOn ((i.judged mode).push (.await [pid]))
  | .redirected line c redirects =>
    (i.atLine line).expand (.redirect redirects c false mode) [] none
  | .branch test yes no => return .goOn (i.pushAll [.run test .tested, .decide yes no mode])
  | .loop isUntil test body =>
    return .goOn (i.push (.loop (.test isUntil test body) mode 0))
  | .each line name words body =>
    let i := i.atLine line
    match words with
    | some words => i.expand (.each name words body mode) [] none
    | none => return .goOn (i.push (.loop (.each name i.scope.args body) mode 0))
  | .choice line subject cases =>
    (i.atLine line).expand (.choose subject cases mode) [] none
  | .define name body =>
    let others := i.functions.filter (·.1 != name)
    return .goOn ({ i with functions := (name, body) :: others }.withStatus 0)

/-! ## Reading commands -/

/-- Show the lines from one place of a text to another, if lines are to be shown. -/
def showLines (i : Interpreter) (before after : List Char) : Act Unit := do
  if i.scope.switches.has .verbose then
    Act.writeText 2 (String.ofList (before.take (before.length - after.length)))

/-- Carry out a line of a text. -/
def carryOutLine (i : Interpreter) (line : Line) (mode : Mode) : Step :=
  match line.command with
  | none => .goOn i
  | some c => .goOn (i.push (.run c { mode with isLast := mode.isLast && line.isLast }))

def reject (i : Interpreter) (fault : Fault) : Act Step := (i.atLine fault.line).abort fault.text

/-- Carry out the next line of a text. -/
def source (i : Interpreter) (rest : Cursor) (mode : Mode) (isFile : Bool) : Act Step := do
  let showTo (after : List Char) : Act Unit := do
    if isFile then i.showLines rest.rest after
  match parseLine rest with
  | .error fault => do
    showTo []
    i.reject fault
  | .ok none => do
    showTo []
    return .goOn i
  | .ok (some line) => do
    showTo line.rest.rest
    return (i.push (.source line.rest mode isFile)).carryOutLine line mode

/-- How many bytes of a script are read at once. -/
def blockSize : Nat := 8192

/-- Carry out the next line that is read from a stream. A line at the end of what has been read may
go on in what follows. -/
def listen (i : Interpreter) (stream : Nat) (rest : Cursor) (isEnded : Bool) : Act Step := do
  let again (rest : Cursor) (isEnded : Bool) : Interpreter := i.push (.listen stream rest isEnded)
  let begin (line : Line) : Act Step := do
    i.showLines rest.rest line.rest.rest
    return (again line.rest isEnded).carryOutLine line {}
  let conclude : Act Step := do
    match parseLine rest with
    | .error fault => do
      i.showLines rest.rest []
      i.reject fault
    | .ok none => do
      i.showLines rest.rest []
      return .goOn i
    | .ok (some line) => begin line
  let readMore : Act Step := do
    match (← Act.self).stream? stream with
    | none => return .goOn (again rest true)
    | some d =>
      if !(← getThe System).canReadNow d then return .wait (.data d) (again rest false)
      else
        match ← Act.readFrom d blockSize with
        | .ok [] | .error _ => return .goOn (again rest true)
        | .ok bytes =>
          let more := (Utf8.decode bytes).toList
          return .goOn (again { rest with rest := rest.rest ++ more } false)
  if isEnded then conclude
  else
    match parseLine rest with
    | .ok (some line) => if line.isLast then readMore else begin line
    | _ => readMore

/-! ## Steps -/

def loop (i : Interpreter) (l : Loop) (mode : Mode) (status : Nat) : Act Step := do
  match l with
  | .test isUntil test body =>
    return .goOn (i.pushAll [.run test .tested, .check isUntil test body mode status])
  | .each name values body =>
    match values with
    | [] => return .goOn (i.withStatus status)
    | v :: rest =>
      match i.scope.set name v with
      | none => i.abort s!"{name}: is read only"
      | some scope =>
        return .goOn ({ i with scope }.pushAll
          [.run body { isTested := mode.isTested }, .round (.each name rest body) mode])

def conclude (i : Interpreter) : Step :=
  match i.traps.lookup ⟨0⟩ with
  | some action =>
    if action == "" then .finish i.status
    else .goOn { i with
      traps := i.traps.filter (·.1.number != 0)
      frames := [.source { rest := action.toList } {} false, .settle i.status] }
  | none => .finish i.status

/-- A trap may be carried out before this is done. -/
def allowsTraps : Frame → Bool
  | .run _ _ | .source _ _ _ | .next _ _ _ | .decide _ _ _ | .loop _ _ _ | .check _ _ _ _ _
  | .round _ _ | .judge _ | .negate | .leave _ _ => true
  | _ => false

/-- Do what the topmost frame says. -/
def resume (i : Interpreter) (f : Frame) : Act Step := do
  match f with
  | .run c mode => i.run c mode
  | .source rest mode isFile => i.source rest mode isFile
  | .listen stream rest isEnded => i.listen stream rest isEnded
  | .next c mode ifSuccess =>
    return .goOn (if (i.status == 0) == ifSuccess then i.push (.run c mode) else i)
  | .negate => return .goOn (i.withStatus (if i.status = 0 then 1 else 0))
  | .decide yes no mode =>
    if i.status = 0 then return .goOn (i.push (.run yes mode))
    else
      match no with
      | some c => return .goOn (i.push (.run c mode))
      | none => return .goOn (i.withStatus 0)
  | .loop l mode status => i.loop l mode status
  | .check isUntil test body mode status =>
    if (i.status == 0) != isUntil then
      return .goOn (i.pushAll
        [.run body { isTested := mode.isTested }, .round (.test isUntil test body) mode])
    else return .goOn (i.withStatus status)
  | .round l mode => return .goOn (i.push (.loop l mode i.status))
  | .judge _ => return .goOn (if i.status = 0 then i else i.exit i.status)
  | .restore kept => do
    restore kept
    return .goOn i
  | .leave args locals =>
    let i := i.putVars locals
    return .goOn { i with scope := { i.scope with args } }
  | .unassign vars => return .goOn (i.putVars vars)
  | .relabel label => return .goOn { i with label }
  | .settle status => return .goOn (i.withStatus status)
  | .expand task answers status => i.expand task answers status
  | .collect stream pid read => i.collect stream pid read
  | .deliver text former => return .goOn (i.deliver text former)
  | .await pids => i.awaitAll pids
  | .wait what => i.waitFor what
  | .read raw names done escaped => i.readByte raw names done escaped

def enterTrap (i : Interpreter) (s : Signal) (action : String) : Act Step := do
  Act.change fun p => { p with arrived := p.arrived.filter (· != s) }
  return .goOn (i.pushAll
    [.source { rest := action.toList } {} false, .settle i.status, .relabel i.label])

def step (i : Interpreter) : Act Step := do
  let arrived := (← Act.self).arrived
  let due := if (i.frames.head?.map allowsTraps).getD true then i.trapped? arrived else none
  match due, i.frames with
  | some (s, action), _ => i.enterTrap s action
  | none, [] => return i.conclude
  | none, f :: rest => (i.withFrames rest).resume f

/-! ## Starting -/

def startVars (p : Process) (exported : List (String × String)) : List Variable :=
  let given := exported.map fun (name, value) =>
    ({ name, value := some value, isExported := true } : Variable)
  let own : List Variable :=
    [{ name := "PPID", value := some (toString p.parent) },
     { name := "PWD", value := some (Builtin.pathText p.dir),
       isExported := true },
     { name := "IFS", value := some " \t\n" }, { name := "OPTIND", value := some "1" },
     { name := "PS1", value := some "# " }, { name := "PS2", value := some "> " },
     { name := "PS4", value := some "+ " }]
  own ++ given.filter fun v => !(own.map (·.name)).contains v.name

/-- The interpreter that a call of `sh` starts; or it has ended already. With the letter `c` the
first argument after the switches is the script itself. -/
def ofArgs (argv : List String) (exported : List (String × String)) : Act Step := do
  let p ← Act.self
  let name := argv.headD "sh"
  let complain (text : String) : Act Unit := Act.writeText 2 s!"{name}: 0: {text}\n"
  let refuse (text : String) : Act Step := do
    complain text
    return .finish 2
  match Switches.take ['c', 'l'] {} argv.tail with
  | .error text => refuse text
  | .ok taken =>
    let isText := taken.letters.contains 'c'
    let fromInput := !isText && (taken.rest.isEmpty || taken.switches.has .stdin)
    let switches := if fromInput then taken.switches.put .stdin true else taken.switches
    let start (name : String) (args : List String) (frame : Frame) : Act Step := do
      if switches.has .monitor || switches.has .interactive then complain Builtin.noTerminal
      return .goOn {
        scope := { name, args, self := p.pid, switches := switches.put .monitor false
                   vars := startVars p exported }
        fixed := p.ignored
        frames := [frame] }
    if taken.shown != "" then
      let _ ← Act.write 1 (Utf8.encode taken.shown)
    match isText, taken.rest with
    | true, [] => refuse "-c requires an argument"
    | true, text :: rest =>
      start (rest.headD name) rest.tail (.source { rest := text.toList } {} false)
    | false, [] => start name [] (.listen 0 { rest := [] } false)
    | false, file :: args =>
      if fromInput then start name (file :: args) (.listen 0 { rest := [] } false)
      else do
        match ← Act.openFile .toRead file with
        | .error e => refuse s!"cannot open {file}: {openComplaint false e}"
        | .ok d => do
          let stream := p.privateStream
          Act.change (·.putStream stream (some d))
          start file args (.listen stream { rest := [] } false)

end JobControl.Machine.Script.Interpreter

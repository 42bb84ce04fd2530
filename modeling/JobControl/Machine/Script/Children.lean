import JobControl.Machine.Script.Builtin

/-!
# Parts of a script that run on their own

A pipeline, a subshell, a command in the background and commands whose output is taken up are
carried out by processes of their own.

* `Interpreter.forkPart` : start one; `Interpreter.startPipeline` : start several with pipes between
  them;
* `Interpreter.awaitAll`, `Interpreter.waitFor` : wait for them;
* `Interpreter.collect` : take up their output.
-/

set_option autoImplicit false

namespace JobControl.Machine.Script.Interpreter

/-! ## Starting -/

def forkPart (i : Interpreter) (frames : List Frame) (f : Process → Process) : Act Pid :=
  Act.fork fun p => f { p with image := .script (i.forPart frames) }

/-- Start commands whose output is taken up. -/
def startOutput (i : Interpreter) (c : Command) (scope : Scope) : Act Interpreter := do
  let (r, w, s) := (← getThe System).makePipe []
  set s
  let pid ← { i with scope }.forkPart [.run c { isLast := true }] fun p => p.putStream 1 (some w)
  let stream := (← Act.self).privateStream
  Act.change (·.putStream stream (some r))
  return i.push (.collect stream pid [])

/-- What a process in the background ignores. -/
def backgroundIgnored : List Signal := [.int, .quit]

/-- Start a command in the background; the first process of it reads nothing. -/
def startBackground (i : Interpreter) (c : Command) (isFirst : Bool)
    (f : Process → Process) : Act Pid := do
  let (d, s) := (← getThe System).describe { target := .null, canWrite := false }
  set s
  let part := { i with fixed := backgroundIgnored ++ i.fixed }
  part.forkPart [.run c { isLast := true }] fun p =>
    let p := { p with ignored := backgroundIgnored ++ p.ignored }
    f (if isFirst then p.putStream 0 (some d) else p)

/-- Start the commands of a pipeline, each of which reads what the one before it writes. `start`
starts one of them. -/
def startPipeline (start : Command → Bool → (Process → Process) → Act Pid)
    (input : Option Nat) : List Command → Act (List Pid)
  | [] => return []
  | c :: rest => do
    let read (p : Process) : Process := input.elim p fun d => p.putStream 0 (some d)
    if rest.isEmpty then
      let pid ← start c input.isNone read
      return [pid]
    else do
      let (r, w, s) := (← getThe System).makePipe []
      set s
      -- the end to read stays open until the process that reads it has been started
      let stream := (← Act.self).privateStream
      Act.change (·.putStream stream (some r))
      let pid ← start c input.isNone fun p =>
        ((read p).putStream 1 (some w)).putStream stream none
      let pids ← startPipeline start (some r) rest
      Act.change (·.putStream stream none)
      return pid :: pids

/-! ## Processes that have ended -/

def statusOf (s : WaitStatus) : Nat :=
  match s.change? with
  | some (.exited code) => code.toNat
  | some (.signaled sig) | some (.stopped sig) => 128 + sig.number.toNat
  | none => 0

/-- Ask for a process that has ended. -/
def reap (pid : Pid) : Act (Option WaitStatus) := do
  let s ← getThe System
  match s.find? pid with
  | some p => do
    set (s.drop pid)
    return p.ended
  | none => return none

/-- Say that a signal has killed a process, unless it is one that is not worth mentioning. -/
def mention (s : WaitStatus) : Act Unit := do
  match s.change? with
  | some (.signaled sig) =>
    if sig != .int && sig != .pipe then Act.writeText 2 (SignalName.describe sig ++ "\n")
  | _ => return ()

/-- Ask for the children in the background that ended before some time. -/
def reapChildren (i : Interpreter) (before : Nat) : List Pid → Act Interpreter
  | [] => return i
  | pid :: rest => do
    let hasEnded : Bool := match (← getThe System).find? pid with
      | some p => !p.isLive && p.ready ≤ before
      | none => false
    if hasEnded then
      match ← reap pid with
      | some status => reapChildren { i with ended := (pid, status) :: i.ended } before rest
      | none => i.reapChildren before rest
    else i.reapChildren before rest

/-! ## Waiting -/

/-- Wait for the processes of a command, the last of which gives the status. -/
def awaitAll (i : Interpreter) : List Pid → Act Step
  | [] => return .goOn i
  | pid :: rest => do
    if ((← getThe System).live? pid).isSome then
      return .wait (.child pid false) (i.push (.await (pid :: rest)))
    else do
      let i ← match ← reap pid with
        | none => pure i
        | some status => do
          mention status
          pure (i.withStatus (statusOf status))
      return .goOn (if rest.isEmpty then i else i.push (.await rest))

/-- The signal that has arrived for a trap and comes first. -/
def trapped? (i : Interpreter) (arrived : List Signal) : Option (Signal × String) :=
  let due := (arrived.mergeSort fun a b => a.number ≤ b.number).filterMap fun s =>
    (i.traps.lookup s).map (s, ·)
  due.find? fun (_, action) => action != ""

/-- The command `wait`. A signal with a trap ends it. -/
def waitFor (i : Interpreter) (what : List Awaited) : Act Step := do
  let s ← getThe System
  let arrived := (← Act.self).arrived
  let isLive (pid : Pid) : Bool := (s.live? pid).isSome
  let pause (pid : Pid) : Act Step := do
    match i.trapped? arrived with
    | some (sig, _) => return .goOn (i.withStatus (128 + sig.number.toNat))
    | none => return .wait (.child pid true) (i.push (.wait what))
  match what with
  | [] => return .goOn i
  | .all :: rest =>
    match i.children.find? isLive with
    | some pid => pause pid
    | none => do
      let i ← i.reapChildren s.clock i.children
      return .goOn (({ i with children := [], ended := [] }.withStatus 0).push (.wait rest))
  | .one pid :: rest =>
    if isLive pid then pause pid
    else do
      let isNew := (i.ended.lookup pid).isNone
      let i ← i.reapChildren s.clock i.children
      match i.ended.lookup pid with
      | none => return .goOn ((i.withStatus 127).push (.wait rest))
      | some status => do
        if isNew then mention status
        return .goOn ((i.withStatus (statusOf status)).push (.wait rest))

/-! ## Output of commands -/

def collect (i : Interpreter) (stream : Nat) (pid : Pid) (read : List UInt8) : Act Step := do
  match (← Act.self).stream? stream with
  | none => return .goOn i
  | some d =>
    if !(← getThe System).canReadNow d then
      return .wait (.data d) (i.push (.collect stream pid read))
    else
      match ← Act.readFrom d 65536 with
      | .ok [] | .error _ => do
        Act.change (·.putStream stream none)
        let text := (Utf8.decode (read.reverse.dropWhile (· == 10)).reverse)
        let text := String.ofList (text.toList.filter (· != '\x00'))
        return .goOn (i.pushAll [.await [pid], .deliver text i.status])
      | .ok bytes => return .goOn (i.push (.collect stream pid (read ++ bytes)))

/-- Hand the output of commands to the expansion that needs it. -/
def deliver (i : Interpreter) (text : String) (former : Nat) : Interpreter :=
  match i.frames with
  | .expand task answers _ :: rest =>
    { i.withStatus former with
      frames := .expand task (answers ++ [text]) (some i.status) :: rest }
  | _ => i

end JobControl.Machine.Script.Interpreter

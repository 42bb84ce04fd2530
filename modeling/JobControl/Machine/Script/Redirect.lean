import JobControl.Machine.Script.Builtin
import JobControl.Machine.Script.Expansion

/-!
# Redirections

* `Interpreter.Directed` : a redirection whose target is expanded;
* `Interpreter.redirect` : apply redirections, and put aside what the streams led to;
* `Interpreter.restore` : put streams back.
-/

set_option autoImplicit false

namespace JobControl.Machine.Script.Interpreter

/-- The description of a failure to open a file. -/
def openComplaint (create : Bool) (e : SystemError) : String :=
  if e == .noEntry || e == .notDirectory then
    if create then "Directory nonexistent" else "No such file"
  else Act.describe e

/-- A redirection with its expanded target; a here-document that cannot be expanded has a complaint
in its place. -/
structure Directed where
  stream : Nat
  direction : Direction
  target : String
  complaint : Option String := none

def namesStream (target : String) : Bool :=
  match target.toList with
  | [c] => c == '-' || c.isDigit
  | _ => false

def direct (r : Redirect) : Expand Directed := do
  let done (target : String) : Directed := { stream := r.stream, direction := r.direction, target }
  match r.direction with
  | .document =>
    tryCatch (done <$> Expand.valueOf r.target) fun
      | .fault text => return { done "" with complaint := some text }
      | stop => throw stop
  | .duplicate => do
    let target ← Expand.valueOf r.target
    if namesStream target then return done target
    else throw (.unreadable "Bad fd number")
  | _ => done <$> Expand.valueOf r.target

/-- Expand the targets of redirections. -/
def directed : List Redirect → Expand (List Directed)
  | [] => return []
  | r :: rest => do
    let d ← direct r
    let more ← directed rest
    return d :: more

/-- The description that a redirection leads to; none closes the stream. -/
def openTarget (i : Interpreter) (r : Directed) : Act (Except String (Option Nat)) := do
  let create (how : System.Purpose) : Act (Except String (Option Nat)) := do
    match ← Act.openFile how r.target with
    | .ok d => return .ok (some d)
    | .error e => return .error s!"cannot create {r.target}: {openComplaint true e}"
  let mode ← Act.newMode
  match r.direction with
  | .read =>
    match ← Act.openFile .toRead r.target with
    | .ok d => return .ok (some d)
    | .error e => return .error s!"cannot open {r.target}: {openComplaint false e}"
  | .write =>
    let isFile : Bool := match (← getThe System).findEntry (← Act.self) r.target with
      | .ok (_, .file _ _) => true
      | _ => false
    create (.toWrite mode (i.scope.switches.has .noclobber && isFile))
  | .overwrite => create (.toWrite mode false)
  | .append => create (.toAppend mode)
  | .readWrite => create (.toBoth mode)
  | .duplicate =>
    if r.target == "-" then return .ok none
    else
      match (← Act.self).stream? (Decimal.value r.target.toList) with
      | some d => return .ok (some d)
      | none => return .error s!"{r.target}: {Act.describe System.badStream}"
  | .document =>
    match r.complaint with
    | some text => return .error text
    | none => do
      let (d, _, s) := (← getThe System).makePipe (Utf8.encode r.target)
      set s
      return .ok (some d)

/-- Put a stream aside. -/
def keep (stream : Nat) : Act Kept := do
  let p ← Act.self
  match p.stream? stream with
  | none => return ⟨stream, none⟩
  | some d => do
    let keeper := p.privateStream
    Act.change (·.putStream keeper (some d))
    return ⟨stream, some keeper⟩

def restore : List Kept → Act Unit
  | [] => return ()
  | k :: rest => do
    restore rest
    Act.change fun p =>
      match k.keeper with
      | none => p.putStream k.stream none
      | some keeper => (p.putStream k.stream (p.stream? keeper)).putStream keeper none

/-- A redirection from a stream to itself, which does nothing. -/
def isIdle (r : Directed) : Bool := r.direction == .duplicate && r.target == toString r.stream

/-- Apply redirections in order; the answer holds the streams that were put aside before. With
`isFinal`, the process ends with the command, and nothing is put aside. A stream is put aside
before the stream that it is to be a copy of is found missing, so the complaint about that cannot
be seen if it is where complaints go. -/
def redirect (i : Interpreter) (isFinal : Bool) (kept : List Kept) : List Directed →
    Act (List Kept × Option String)
  | [] => return (kept, none)
  | r :: rest => do
    if isIdle r then i.redirect isFinal kept rest
    else
      let aside : Act (List Kept) := if isFinal then pure kept else (kept ++ [·]) <$> keep r.stream
      match ← i.openTarget r with
      | .error text =>
        if r.direction == .duplicate && !isFinal then do
          let kept ← aside
          Act.change (·.putStream r.stream none)
          return (kept, some text)
        else return (kept, some text)
      | .ok d => do
        let kept ← aside
        Act.change (·.putStream r.stream d)
        i.redirect isFinal kept rest

end JobControl.Machine.Script.Interpreter

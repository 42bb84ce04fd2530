import JobControl.ReadLoop

/-!
# A shell that follows events

* `Shell.step` : carry out an operation, and say how the shell ends if it does;
* `Shell.attend` : attend to a line: take up the news, then evaluate it;
* `Event`, `Shell.follow` : attend to news and lines, and to the end of the input, until the shell ends;
* `Event.taken` : the events of some bytes that are read, and the bytes that are left for later;
* `Reader.onSignal_eq`, `Reader.onInput_eq` : the callbacks of the read loop follow events; `run_eq` :
  what comes of a run.
-/

set_option autoImplicit false

namespace JobControl

/-! ## Events -/

/-- What the shell attends to. -/
inductive Event where
  /-- News may have arrived. -/
  | news
  /-- A line, without its newline. -/
  | line (bytes : List UInt8)
  /-- The input has ended, after these bytes without a newline. -/
  | ended (rest : List UInt8)
  deriving DecidableEq, Repr

namespace Shell
variable {σ : Type}

def goOn (out : Option (Except Error Int) × Shell σ)
    (next : Shell σ → Option (Except Error Int) × Shell σ) : Option (Except Error Int) × Shell σ :=
  match out with
  | (none, s) => next s
  | (some outcome, s) => (some outcome, s)

def greet (s : Shell σ) (prompt : Bool) : Shell σ := if prompt then s.say .prompt else s

theorem goOn_assoc (out : Option (Except Error Int) × Shell σ)
    (next next' : Shell σ → Option (Except Error Int) × Shell σ) :
    goOn (goOn out next) next' = goOn out fun s => goOn (next s) next' := by
  obtain ⟨_ | outcome, s⟩ := out <;> rfl

theorem goOn_none (out : Option (Except Error Int) × Shell σ) :
    (goOn out fun s => (none, s)) = out := by
  obtain ⟨_ | outcome, s⟩ := out <;> rfl

variable [Host σ]

/-- Carry out an operation. The shell ends when it is told to exit, and with a fatal error; of any
other error it only complains. -/
def step (s : Shell σ) (op : Op) : Option (Except Error Int) × Shell σ :=
  match s.perform op with
  | (.ok .continue, s) => (none, s)
  | (.ok (.exit code), s) => (some (.ok code), s)
  | (.error e, s) => if e.isFatal then (some (.error e), s) else (none, s.complain (.failed e))

def attend (s : Shell σ) (line : List UInt8) : Option (Except Error Int) × Shell σ :=
  goOn (s.step .drain) fun s => s.step (.eval (Utf8.decode line))

/-- Attend to an event. After a line there is a prompt. After the last line, which may have no
newline, there is an empty line, and the shell exits. -/
def heed (s : Shell σ) (prompt : Bool) : Event → Option (Except Error Int) × Shell σ
  | .news => s.step .drain
  | .line bytes => goOn (s.attend bytes) fun s => (none, s.greet prompt)
  | .ended rest =>
    goOn (if rest.isEmpty then (none, s) else s.attend rest) fun s => (some (.ok 0), s.say .blank)

def follow (s : Shell σ) (prompt : Bool) : List Event → Option (Except Error Int) × Shell σ
  | [] => (none, s)
  | e :: events => goOn (s.heed prompt e) fun s => s.follow prompt events

theorem follow_append (s : Shell σ) (prompt : Bool) (events later : List Event) :
    s.follow prompt (events ++ later) =
      goOn (s.follow prompt events) fun s => s.follow prompt later := by
  induction events generalizing s with
  | nil => rfl
  | cons e events ih =>
    rw [List.cons_append, follow, follow, goOn_assoc]
    exact congrArg _ (funext ih)

theorem follow_singleton (s : Shell σ) (prompt : Bool) (e : Event) :
    s.follow prompt [e] = s.heed prompt e := goOn_none _

end Shell

namespace Event

/-- The events of bytes that were read after `pending`, none of them at the end of the input; and the
bytes that no newline has ended yet. -/
def taken (pending : List UInt8) : List UInt8 → List Event × List UInt8
  | [] => ([.ended pending], [])
  | b :: bytes =>
    match splitLines (pending ++ b :: bytes) with
    | (lines, rest) => (lines.map .line, rest)

end Event

/-! ## The callbacks of the read loop -/

namespace EventLoop

def Stop.outcome {β ξ : Type} : Stop β ξ → Except β ξ
  | .abort reason => .error reason
  | .exit reason => .ok reason

namespace Registry
variable {φ ε β ξ : Type} {r : Registry φ ε β ξ}

def halt (r : Registry φ ε β ξ) : Option (Except β ξ) → Registry φ ε β ξ
  | none => r
  | some (.ok reason) => r.exit reason
  | some (.error reason) => r.abort reason

theorem exit_eq (h : r.stop = none) (reason : ξ) :
    r.exit reason = { r with stop := some (.exit reason) } := by
  rw [exit, h]

theorem isStopping_eq (h : r.stop = none) : r.isStopping = false := by
  rw [isStopping, h]
  rfl

theorem outcome_halt (h : r.stop = none) (outcome : Option (Except β ξ)) :
    (r.halt outcome).stop.map Stop.outcome = outcome := by
  obtain _ | reason | reason := outcome
  · exact congrArg _ h
  · rfl
  · rw [halt, exit_eq h]
    rfl

theorem isStopping_halt (h : r.stop = none) (outcome : Option (Except β ξ)) :
    (r.halt outcome).isStopping = outcome.isSome := by
  rw [isStopping, ← Option.isSome_map, outcome_halt h]

end Registry
end EventLoop

namespace Reader
variable {σ : Type} {r : Loop}

/-- The reader and the registry of a loop, after the shell has gone this far. -/
def proceed (l : Reader σ) (r : Loop) (out : Option (Except Error Int) × Shell σ) :
    Reader σ × Loop :=
  ({ l with shell := out.2 }, r.halt out.1)

theorem showPrompt_eq (l : Reader σ) : l.showPrompt = { l with shell := l.shell.greet l.prompt } := by
  unfold showPrompt Shell.greet
  split <;> rfl

/-- Where the shell may end, the loop looks whether it is to stop. -/
theorem proceed_goOn (l : Reader σ) (hr : r.stop = none) (out : Option (Except Error Int) × Shell σ)
    (next : Shell σ → Option (Except Error Int) × Shell σ) :
    l.proceed r (Shell.goOn out next) =
      if (r.halt out.1).isStopping then l.proceed r out
      else (l.proceed r out).1.proceed (r.halt out.1) (next out.2) := by
  rw [EventLoop.Registry.isStopping_halt hr]
  obtain ⟨_ | outcome, s⟩ := out <;> rfl

variable [Host σ]

theorem perform_eq (l : Reader σ) (r : Loop) (op : Shell.Op) :
    l.perform r op = l.proceed r (l.shell.step op) := by
  unfold perform Shell.step
  obtain ⟨e | flow, s⟩ := l.shell.perform op
  · dsimp only [settle]
    split <;> rfl
  · cases flow <;> rfl

theorem evaluate_eq (l : Reader σ) (hr : r.stop = none) (line : List UInt8) :
    l.evaluate r line = l.proceed r (l.shell.attend line) := by
  rw [evaluate, Shell.attend, proceed_goOn l hr, perform_eq]
  simp only [perform_eq]
  rfl

theorem evaluateAll_eq (l : Reader σ) (hr : r.stop = none) (lines : List (List UInt8)) :
    l.evaluateAll r lines = l.proceed r (l.shell.follow l.prompt (lines.map .line)) := by
  induction lines generalizing l with
  | nil => rfl
  | cons line lines ih =>
    rw [List.map_cons, Shell.follow, Shell.heed, Shell.goOn_assoc, evaluateAll, evaluate_eq l hr]
    obtain ⟨_ | outcome, s⟩ := l.shell.attend line
    · simp only [proceed, EventLoop.Registry.halt, EventLoop.Registry.isStopping_eq hr, showPrompt_eq]
      exact ih _
    · simp only [proceed, EventLoop.Registry.isStopping_halt hr]
      rfl

theorem finish_eq (l : Reader σ) (hr : r.stop = none) :
    l.finish r =
      { l with pending := [] }.proceed r (l.shell.heed l.prompt (.ended l.pending)) := by
  have hlast : (if l.pending.isEmpty then (l, r) else { l with pending := [] }.evaluate r l.pending) =
      { l with pending := [] }.proceed r
        (if l.pending.isEmpty then (none, l.shell) else l.shell.attend l.pending) := by
    obtain ⟨shell, pending, prompt⟩ := l
    cases pending with
    | nil => rfl
    | cons b bytes => exact evaluate_eq _ hr _
  rw [finish, hlast, Shell.heed, proceed_goOn _ hr]
  obtain ⟨_ | outcome, s⟩ := if l.pending.isEmpty then (none, l.shell) else l.shell.attend l.pending
  · rfl
  · rfl

theorem onSignal_eq (l : Reader σ) (r : Loop) :
    l.onSignal r = l.proceed r (l.shell.heed l.prompt .news) := l.perform_eq r .drain

theorem onInput_eq [Input σ] (l : Reader σ) (hr : r.stop = none) {bytes : List UInt8} {host : σ}
    (h : Input.read Command.maxLine l.shell.host = (.ok bytes, host)) :
    l.onInput r =
      { l with pending := (Event.taken l.pending bytes).2 }.proceed r
        (({ l.shell with host } : Shell σ).follow l.prompt (Event.taken l.pending bytes).1) := by
  rw [onInput, h]
  cases bytes with
  | nil =>
    rw [Event.taken, Shell.follow_singleton]
    exact finish_eq _ hr
  | cons b bytes => exact evaluateAll_eq _ hr _

/-- The outcome of a run is what the loop was stopped with. -/
theorem run_eq [Input σ] (l : Reader σ) (polls : List (EventLoop.Poll (Reader σ) Channel)) :
    l.run polls =
      ((EventLoop.run handle .io polls l.showPrompt registry).1.map EventLoop.Stop.outcome,
        (EventLoop.run handle .io polls l.showPrompt registry).2.1.shell) := by
  unfold run
  obtain ⟨_ | reason | code, l', r⟩ := EventLoop.run handle .io polls l.showPrompt registry <;> rfl

end Reader
end JobControl

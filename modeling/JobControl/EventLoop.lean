import JobControl.SystemError

/-!
# Event loop

Sources are registered for events. Each turn polls the sources and hands the events of those that
are ready to a callback, one by one, until a callback has set a reason to stop, or a poll fails.

* `OrderedMap` : pairs of a key and a value, by increasing key;
* `PollSet` : sources under keys; a key stands for one source, the last one added. `PollSet.ready`
  gives the keys of the sources that can be read without waiting;
* `EventLoop.Stop` : why a loop stops, with an abort stronger than an exit;
* `EventLoop.Registry` : the sources and their events, and the reason to stop once there is one;
* `EventLoop.dispatch` : the events of one poll;
* `EventLoop.run` : poll after poll. What the polls answer is given as a list, so a run ends.
-/

set_option autoImplicit false

namespace JobControl

/-! ## Sources under keys -/

structure OrderedMap (κ α : Type) where
  entries : List (κ × α) := []
  deriving Repr

namespace OrderedMap
variable {κ α : Type}

def keys (m : OrderedMap κ α) : List κ := m.entries.map Prod.fst

variable [DecidableEq κ]

def find? (m : OrderedMap κ α) (k : κ) : Option α := m.entries.lookup k

variable [LT κ] [DecidableLT κ]

/-- Put a pair in its place among pairs by increasing key. -/
def place (k : κ) (a : α) : List (κ × α) → List (κ × α)
  | [] => [(k, a)]
  | (k', b) :: rest =>
    if k < k' then (k, a) :: (k', b) :: rest
    else if k = k' then (k, a) :: rest
    else (k', b) :: place k a rest

def insert (m : OrderedMap κ α) (k : κ) (a : α) : OrderedMap κ α := ⟨place k a m.entries⟩

end OrderedMap

abbrev PollSet (κ φ : Type) := OrderedMap κ φ

namespace PollSet
variable {κ φ : Type}

def ready (s : PollSet κ φ) (isReady : φ → Bool) : List κ :=
  (s.entries.filter fun entry => isReady entry.2).map Prod.fst

def ofList [DecidableEq κ] [LT κ] [DecidableLT κ] (sources : List (κ × φ)) : PollSet κ φ :=
  sources.foldl (fun s (k, f) => s.insert k f) {}

end PollSet

/-! ## The loop -/

namespace EventLoop

inductive Stop (β ξ : Type) where
  | abort (reason : β)
  | exit (reason : ξ)
  deriving DecidableEq, Repr

/-- The registered sources (`φ`) and their events (`ε`). -/
structure Registry (φ ε β ξ : Type) where
  /-- The key of the next registration. -/
  seed : Nat := 0
  watched : PollSet Nat φ := {}
  events : OrderedMap Nat ε := {}
  /-- Why the loop will stop after the current callback. -/
  stop : Option (Stop β ξ) := none

variable {π φ ε β ξ : Type}

namespace Registry

/-- Watch a source and report `event` when it is ready. -/
def register (r : Registry φ ε β ξ) (source : φ) (event : ε) : Registry φ ε β ξ :=
  { r with
    seed := r.seed + 1
    watched := r.watched.insert r.seed source
    events := r.events.insert r.seed event }

/-- Stop after the current callback, for this reason whatever else is set. -/
def abort (r : Registry φ ε β ξ) (reason : β) : Registry φ ε β ξ :=
  { r with stop := some (.abort reason) }

/-- Stop after the current callback, unless the loop is to be aborted. -/
def exit (r : Registry φ ε β ξ) (reason : ξ) : Registry φ ε β ξ :=
  match r.stop with
  | some (.abort _) => r
  | _ => { r with stop := some (.exit reason) }

/-- The loop stops after the current callback. -/
def isStopping (r : Registry φ ε β ξ) : Bool := r.stop.isSome

/-- The events of the sources that are ready, in the order of registration. -/
def readyEvents (r : Registry φ ε β ξ) (isReady : φ → Bool) : List ε :=
  (r.watched.ready isReady).filterMap r.events.find?

end Registry

/-- What handles an event; it changes the state `π` of the process and the registry. -/
abbrev Callback (π φ ε β ξ : Type) := ε → π → Registry φ ε β ξ → π × Registry φ ε β ξ

/-- What a poll answers, given the state of the process: which sources are ready. -/
abbrev Poll (π φ : Type) := π → Except SystemError (φ → Bool)

/-- Hand events to the callback, up to the first after which there is a reason to stop. The reason
is taken out of the registry. -/
def dispatch (handle : Callback π φ ε β ξ) :
    List ε → π → Registry φ ε β ξ → Option (Stop β ξ) × π × Registry φ ε β ξ
  | [], p, r => (none, p, r)
  | e :: es, p, r =>
    match handle e p r with
    | (p, r) =>
      match r.stop with
      | some reason => (some reason, p, { r with stop := none })
      | none => dispatch handle es p r

/-- Poll and dispatch until there is a reason to stop; none if the polls run out. A poll that was
interrupted is made again. One that fails otherwise ends the loop with the abort that `failed` makes
of it, whatever the registry holds. -/
def run (handle : Callback π φ ε β ξ) (failed : SystemError → β) :
    List (Poll π φ) → π → Registry φ ε β ξ → Option (Stop β ξ) × π × Registry φ ε β ξ
  | [], p, r => (none, p, r)
  | poll :: polls, p, r =>
    match poll p with
    | .error e =>
      if e.isInterrupted then run handle failed polls p r else (some (.abort (failed e)), p, r)
    | .ok isReady =>
      match dispatch handle (r.readyEvents isReady) p r with
      | (some reason, p, r) => (some reason, p, r)
      | (none, p, r) => run handle failed polls p r

end EventLoop
end JobControl

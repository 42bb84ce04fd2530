import JobControl.Signal.Set

/-!
# Dispositions of signals

* `Disposition` : what the arrival of a signal does;
* `Dispositions` : the disposition of every signal, the default one unless it was changed;
* `Dispositions.register` : change one and remember the former one;
* `Dispositions.undo` : put the former one back.
-/

set_option autoImplicit false

namespace JobControl

inductive Disposition where
  /-- What the system does by itself. -/
  | default
  | ignore
  /-- The arrival is recorded for the program. -/
  | handler
  deriving DecidableEq, Repr

/-- The signals with a disposition that was set, latest first. -/
structure Dispositions where
  entries : List (Signal × Disposition) := []
  deriving DecidableEq, Repr

/-- A disposition that was changed. -/
structure Registration where
  signal : Signal
  former : Disposition
  deriving DecidableEq, Repr

namespace Dispositions

def get (d : Dispositions) (s : Signal) : Disposition := (d.entries.lookup s).getD .default

/-- The disposition of a signal, if it is one that a program may use. -/
def get? (d : Dispositions) (s : Signal) : Option Disposition :=
  if s.isUsable then some (d.get s) else none

def put (d : Dispositions) (s : Signal) (now : Disposition) : Dispositions :=
  ⟨(s, now) :: d.entries.filter (·.1 != s)⟩

inductive Fault where
  /-- The disposition of the signal cannot be changed, and asking for it is a mistake. -/
  | forbidden (signal : Signal)
  | failed (cause : SystemError)
  deriving DecidableEq, Repr

def Fault.message : Fault → String
  | .forbidden signal => s!"the {signal.nameOrMark} signal action cannot be overriden"
  | .failed cause => cause.message

/-- Change the disposition of a signal and remember the former one. -/
def register (d : Dispositions) (s : Signal) (now : Disposition) :
    Except Fault (Registration × Dispositions) :=
  if s.isUncatchable then .error (.forbidden s)
  else
    match d.get? s with
    | none => .error (.failed .invalid)
    | some former => .ok (⟨s, former⟩, d.put s now)

/-- Put the former disposition back. -/
def undo (d : Dispositions) (r : Registration) : Dispositions := d.put r.signal r.former

end Dispositions
end JobControl

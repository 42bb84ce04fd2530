/-!
# Signals

A `Signal` is known by its number. `Signal.name?` gives the names of the signals the shell deals
with; `Signal.reported` are the four it listens to and `Signal.deferrable` the three it can hold
back.
-/

set_option autoImplicit false

namespace JobControl

structure Signal where
  number : Int
  deriving DecidableEq, Repr

namespace Signal

abbrev hup : Signal := ⟨1⟩
abbrev int : Signal := ⟨2⟩
abbrev quit : Signal := ⟨3⟩
abbrev kill : Signal := ⟨9⟩
abbrev pipe : Signal := ⟨13⟩
abbrev term : Signal := ⟨15⟩
abbrev chld : Signal := ⟨17⟩
abbrev cont : Signal := ⟨18⟩
abbrev stop : Signal := ⟨19⟩
abbrev tstp : Signal := ⟨20⟩
abbrev ttin : Signal := ⟨21⟩
abbrev ttou : Signal := ⟨22⟩

instance : ToString Signal := ⟨fun s => toString s.number⟩

def names : List (Signal × String) :=
  [(int, "SIGINT"), (quit, "SIGQUIT"), (tstp, "SIGTSTP"), (term, "SIGTERM"), (hup, "SIGHUP"),
   (pipe, "SIGPIPE"), (chld, "SIGCHLD"), (cont, "SIGCONT"), (ttin, "SIGTTIN"),
   (ttou, "SIGTTOU"), (kill, "SIGKILL"), (stop, "SIGSTOP")]

def name? (s : Signal) : Option String := names.lookup s

/-- The name, or a question mark for a signal without one. -/
def nameOrMark (s : Signal) : String := s.name?.getD "?"

/-- The signals that the shell listens to. -/
def reported : List Signal := [chld, int, tstp, quit]

/-- The signals that are held back while a job is being started. -/
def deferrable : List Signal := [chld, int, tstp]

/-- Neither the disposition nor the mask of these signals can be changed. -/
def isUncatchable (s : Signal) : Bool := s == kill || s == stop

end Signal
end JobControl

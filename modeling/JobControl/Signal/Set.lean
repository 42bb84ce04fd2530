import JobControl.Signal
import JobControl.SystemError

/-!
# Sets of signals

`SignalSet` is a word with a bit for each of the 64 signals.

* `contains`, `insert`, `union`, `diff`, `inter` : as for any set;
* `of` : the set of the given signals, which must be ones that a program may use;
* `members` : the signals in it, by increasing number;
* `Mask.block`, `Mask.unblock`, `Mask.set` : how the set of blocked signals changes. The signals
  that cannot be caught cannot be blocked either.
-/

set_option autoImplicit false

namespace JobControl

def Signal.count : Nat := 64

/-- The number is that of a signal. -/
def Signal.isNumbered (s : Signal) : Bool := 1 ≤ s.number && s.number ≤ Signal.count

def Signal.bit (s : Signal) : Nat := (s.number - 1).toNat

/-- Signals that the system's library keeps for itself. -/
def Signal.isReserved (s : Signal) : Bool := s.number == 32 || s.number == 33

def Signal.isUsable (s : Signal) : Bool := s.isNumbered && !s.isReserved

/-- The signals up to a number. -/
def Signal.upTo (n : Nat) : List Signal := (List.range n).map fun k => ⟨Int.ofNat k + 1⟩

structure SignalSet where
  bits : BitVec 64
  deriving DecidableEq, Repr

namespace SignalSet

def empty : SignalSet := ⟨0⟩

def contains (set : SignalSet) (s : Signal) : Bool := s.isNumbered && set.bits.getLsbD s.bit

/-- The set with one more signal; nothing changes if the number is that of none. -/
def insert (set : SignalSet) (s : Signal) : SignalSet :=
  if s.isNumbered then ⟨set.bits ||| BitVec.twoPow 64 s.bit⟩ else set

def union (a b : SignalSet) : SignalSet := ⟨a.bits ||| b.bits⟩

def inter (a b : SignalSet) : SignalSet := ⟨a.bits &&& b.bits⟩

def diff (a b : SignalSet) : SignalSet := ⟨a.bits &&& ~~~b.bits⟩

/-- The set of the given signals, those without a number left out. -/
def ofList (signals : List Signal) : SignalSet := signals.foldl insert empty

/-- The set of the given signals; each must be one that a program may use. -/
def of (signals : List Signal) : Except SystemError SignalSet :=
  if signals.all Signal.isUsable then .ok (ofList signals) else .error .invalid

/-- The members among the signals up to a number, in increasing order. -/
def membersUpTo (set : SignalSet) (n : Nat) : List Signal := (Signal.upTo n).filter set.contains

/-- The members, in increasing order. -/
def members (set : SignalSet) : List Signal := set.membersUpTo Signal.count

def full : SignalSet := ofList ((Signal.upTo Signal.count).filter Signal.isUsable)

/-- The signals that can be neither caught nor blocked. -/
def uncatchable : SignalSet := ofList [.kill, .stop]

/-- The signals that are held back while a job is being started. -/
def deferrable : SignalSet := ofList Signal.deferrable

end SignalSet

/-! ## Masks -/

namespace Mask

/-- Block the signals of `set` too. -/
def block (mask set : SignalSet) : SignalSet := (mask.union set).diff .uncatchable

/-- Block the signals of `set` no longer. -/
def unblock (mask set : SignalSet) : SignalSet := mask.diff set

/-- Block the signals of `set` and no others. -/
def set (_mask set : SignalSet) : SignalSet := set.diff .uncatchable

/-- The three ways to change a mask. -/
inductive Change where
  | block
  | unblock
  | set
  deriving DecidableEq, Repr

def change (mask : SignalSet) : Change → SignalSet → SignalSet
  | .block => block mask
  | .unblock => unblock mask
  | .set => set mask

end Mask
end JobControl

import JobControl.Signal

/-!
# Wait statuses

The 32-bit word in which the system reports how a child process changed.

* the low seven bits hold the killing signal, `0` for an exit and `127` for a stop;
* bits 8 to 15 hold the exit code or the stopping signal;
* `exitStatus?`, `termSignal?`, `stopSignal?` : the three readings;
* `ChildChange`, `WaitStatus.change?` : the reading that applies;
* `describe` : the text for diagnostics.
-/

set_option autoImplicit false

namespace JobControl

/-- How a child process changed state. -/
inductive ChildChange where
  | exited (code : Int)
  | signaled (signal : Signal)
  | stopped (signal : Signal)
  deriving DecidableEq, Repr

namespace ChildChange

/-- The child is gone. -/
def ends : ChildChange → Bool
  | exited _ | signaled _ => true
  | stopped _ => false

end ChildChange

structure WaitStatus where
  word : BitVec 32
  deriving DecidableEq, Repr

namespace WaitStatus

def lowBits (s : WaitStatus) : BitVec 32 := s.word &&& 0x7f#32

/-- Bits 8 to 15. -/
def payload (s : WaitStatus) : Nat := ((s.word &&& 0xff00#32) >>> 8).toNat

def hasExited (s : WaitStatus) : Bool := s.lowBits == 0#32

/-- Adding one to the low bits in a signed byte and halving leaves a positive number unless they
are `0` (an exit) or `127` (a stop). -/
def wasSignaled (s : WaitStatus) : Bool :=
  (0#8).slt (((s.lowBits.truncate 8) + 1#8).sshiftRight 1)

def wasStopped (s : WaitStatus) : Bool := s.word &&& 0xff#32 == 0x7f#32

def exitStatus? (s : WaitStatus) : Option Int :=
  if s.hasExited then some s.payload else none

def termSignal? (s : WaitStatus) : Option Signal :=
  if s.wasSignaled then some ⟨s.lowBits.toNat⟩ else none

def stopSignal? (s : WaitStatus) : Option Signal :=
  if s.wasStopped then some ⟨s.payload⟩ else none

/-- The change that the word reports; none for a child that was continued. -/
def change? (s : WaitStatus) : Option ChildChange :=
  match s.exitStatus? with
  | some code => some (.exited code)
  | none =>
    match s.termSignal? with
    | some signal => some (.signaled signal)
    | none => s.stopSignal?.map .stopped

/-- The word in lower-case hexadecimal. -/
def hex (s : WaitStatus) : String :=
  "0x" ++ String.ofList (Nat.toDigits 16 s.word.toNat)

def describe (s : WaitStatus) : String :=
  match s.exitStatus? with
  | some code => s!"exited with {code}"
  | none =>
    match s.termSignal? with
    | some signal => s!"killed by {signal.nameOrMark}"
    | none =>
      match s.stopSignal? with
      | some signal => s!"stopped by {signal.nameOrMark}"
      | none => s!"status {s.hex}"

/-! ## The words for a change -/

def ofExit (code : Nat) : WaitStatus := ⟨BitVec.ofNat 32 (code % 256 * 256)⟩

def ofKill (signal : Signal) : WaitStatus := ⟨BitVec.ofInt 32 signal.number &&& 0x7f#32⟩

def ofStop (signal : Signal) : WaitStatus :=
  ⟨(BitVec.ofInt 32 signal.number <<< 8) ||| 0x7f#32⟩

end WaitStatus
end JobControl

import JobControl.ReadLoop

/-!
# A host with its input

`Fed` joins a host with the answers that reads of standard input will give. When they run out, the
input has ended.

* `Fed.chunks` : bytes cut into reads of a greatest length;
* `Fed.polls` : a poll for each read and one for the end, with signals always or never ready.
-/

set_option autoImplicit false

namespace JobControl

structure Fed (σ : Type) where
  host : σ
  reads : List (Except SystemError (List UInt8)) := []

namespace Fed
variable {σ : Type}

/-- Bytes in pieces of `size`, the last of which may be shorter. -/
def chunks (size : Nat) (bytes : List UInt8) : List (List UInt8) :=
  if _h : size = 0 ∨ bytes = [] then []
  else bytes.take size :: chunks size (bytes.drop size)
  termination_by bytes.length
  decreasing_by
    have : bytes.length ≠ 0 := by simp_all
    simp; omega

def read (s : Fed σ) : Except SystemError (List UInt8) × Fed σ :=
  match s.reads with
  | [] => (.ok [], s)
  | answer :: rest => (answer, { s with reads := rest })

instance : Input (Fed σ) := ⟨fun _ s => s.read⟩

instance [Host σ] : Host (Fed σ) where
  defer s := ((Host.defer s.host).1, { s with host := (Host.defer s.host).2 })
  release s := { s with host := Host.release s.host }
  spawn r s := ((Host.spawn r s.host).1, { s with host := (Host.spawn r s.host).2 })
  signalGroup p g s :=
    ((Host.signalGroup p g s.host).1, { s with host := (Host.signalGroup p g s.host).2 })
  await s := ((Host.await s.host).1, { s with host := (Host.await s.host).2 })
  pending s := ((Host.pending s.host).1, { s with host := (Host.pending s.host).2 })
  writeFile path text s :=
    ((Host.writeFile path text s.host).1, { s with host := (Host.writeFile path text s.host).2 })
  hear c s := { s with host := Host.hear c s.host }
  patience s := Host.patience s.host
  patience_await s news h := Host.patience_await s.host news h
  patience_hear c s := Host.patience_hear c s.host
  patience_signalGroup p g s := Host.patience_signalGroup p g s.host

/-- A poll for each read and one for the end of the input. -/
def polls (s : Fed σ) (signalsReady : Bool) : List (EventLoop.Poll (Reader (Fed σ)) Channel) :=
  List.replicate (s.reads.length + 1) fun _ => .ok fun channel => signalsReady || channel == .input

end Fed
end JobControl

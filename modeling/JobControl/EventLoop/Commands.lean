import JobControl.EventLoop

/-!
# A process driven by the bytes of its streams

Stream `n` is registered for event `n`. At event `n` a byte of stream `n` is read, and the byte
says what to do with the loop (`Commands.obey`): exit, abort, both in either order, register the
stream once more, or go on. Each byte leaves an entry in the trace.
-/

set_option autoImplicit false

namespace JobControl.EventLoop

structure Commands where
  /-- What is left of each stream. -/
  streams : List (List UInt8)
  /-- The event, the byte that was read (none at the end of a stream), and whether the loop stops,
  for each event so far. -/
  trace : List (Nat × Option UInt8 × Bool) := []
  deriving Repr

namespace Commands

abbrev Loop := Registry Nat Nat SystemError Nat

def obey (byte : Option Char) (n count : Nat) (r : Loop) : Loop :=
  match byte with
  | none | some 'q' => r.exit count
  | some 'b' => r.abort .perm
  | some 'x' => (r.exit count).abort .perm
  | some 'y' => (r.abort .perm).exit count
  | some 'z' => (r.exit count).exit (count + 100)
  | some '+' => r.register n n
  | some _ => r

/-- Read a byte of stream `n` and obey it. -/
def handle : Callback Commands Nat Nat SystemError Nat := fun n p r =>
  let stream := p.streams.getD n []
  let byte := stream.head?
  let r := obey (byte.map fun b => Char.ofNat b.toNat) n p.trace.length r
  ({ streams := p.streams.set n stream.tail
     trace := p.trace ++ [(n, byte, r.isStopping)] }, r)

/-- The registry with every stream registered, in order. -/
def registry (p : Commands) : Loop :=
  (List.range p.streams.length).foldl (fun r n => r.register n n) {}

/-- Run the loop `runs` times. A stream is always ready, its end included. A poll reads a byte of
the first stream or comes to its end, so there are at most as many polls as it has bytes, and one
more. -/
def runTimes : Nat → Commands → Loop → List (Option (Stop SystemError Nat)) × Commands
  | 0, p, _ => ([], p)
  | runs + 1, p, r =>
    let polls := List.replicate ((p.streams.headD []).length + 1) fun _ => .ok fun _ => true
    let (stop, p, r) := run handle id polls p r
    let (stops, p) := runTimes runs p r
    (stop :: stops, p)

end Commands
end JobControl.EventLoop

import JobControl.Invocation

/-!
# The command

Runs the program on the lines of standard input. Its jobs run on the machine of `Machine`, with
the programs that machine has.
-/

set_option autoImplicit false

open JobControl

/-- Everything that is left to read. -/
partial def readToEnd (stream : IO.FS.Stream) (done : ByteArray) : IO ByteArray := do
  let bytes ← stream.read 65536
  if bytes.isEmpty then return done else readToEnd stream (done ++ bytes)

def main (args : List String) : IO UInt32 := do
  let input ← readToEnd (← IO.getStdin) .empty
  let outcome := Invocation.run { args, input := input.toList }
  let out ← IO.getStdout
  out.write ⟨outcome.out.toArray⟩
  out.flush
  let err ← IO.getStderr
  err.write ⟨outcome.err.toArray⟩
  err.flush
  match outcome.code, outcome.signal with
  | some code, _ => return UInt32.ofNat code.toNat
  | none, some signal => return UInt32.ofNat (128 + signal.number.toNat)
  | none, none => return 1

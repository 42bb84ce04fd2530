import JobControl.Files
import JobControl.Host

/-!
# A host that follows a script

* `Scripted` : the answers that a host will give: the next process id, failures, and the batches of
  news for waits (`events`) and for looks without waiting (`pending`);
* its `Host` instance. Nothing is executed; files are kept.

When the events run out, a wait fails: it would sleep forever.
-/

set_option autoImplicit false

namespace JobControl

abbrev Batch := Except Error (List Notification)

structure Scripted where
  /-- The process id of the next process. -/
  nextPid : Pid := ⟨1000⟩
  /-- The next start of a process fails. -/
  spawnFailure : Option SystemError := none
  /-- The next deferral fails. -/
  deferFailure : Option SystemError := none
  /-- Sending a signal fails, time after time. -/
  signalFailure : Option SystemError := none
  events : List Batch := []
  pending : List Batch := []
  files : Files := Files.system

namespace Scripted

/-- Process ids are signed numbers of 32 bits, and count around. -/
def pidAfter (p : Pid) : Pid := ⟨(p.val + 1).bmod 0x100000000⟩

/-- What a wait answers that would never end. -/
def wouldBlock : Error := .fatal "would block" .again

def defer (s : Scripted) : Except SystemError Unit × Scripted :=
  match s.deferFailure with
  | some e => (.error e, { s with deferFailure := none })
  | none => (.ok (), s)

def spawn (s : Scripted) : Except SystemError Pid × Scripted :=
  match s.spawnFailure with
  | some e => (.error e, { s with spawnFailure := none })
  | none => (.ok s.nextPid, { s with nextPid := pidAfter s.nextPid })

def signalGroup (s : Scripted) : Except SystemError Unit :=
  match s.signalFailure with
  | some e => .error e
  | none => .ok ()

def await (s : Scripted) : Batch × Scripted :=
  match s.events with
  | [] => (.error wouldBlock, s)
  | batch :: rest => (batch, { s with events := rest })

def takePending (s : Scripted) : Batch × Scripted :=
  match s.pending with
  | [] => (.ok [], s)
  | batch :: rest => (batch, { s with pending := rest })

def writeFile (s : Scripted) (path text : String) : Except SystemError Unit × Scripted :=
  match s.files.save path text with
  | .ok files => (.ok (), { s with files })
  | .error e => (.error e, s)

end Scripted

instance : Host Scripted where
  defer := Scripted.defer
  release s := s
  spawn _ s := s.spawn
  signalGroup _ _ s := (s.signalGroup, s)
  await := Scripted.await
  pending := Scripted.takePending
  writeFile path text s := s.writeFile path text
  hear _ s := s
  patience s := s.events.length
  patience_await s news h := by
    unfold Scripted.await at h ⊢
    split at h
    · cases h
    · next e => simp [e]
  patience_hear _ _ := Nat.le_refl _
  patience_signalGroup _ _ _ := Nat.le_refl _

end JobControl

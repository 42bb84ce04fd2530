import JobControl.Notification
import JobControl.Signal.Set

/-!
# Signals on their way to the shell

* `Inbox` : the mask, the signals it holds back, and the records of those that have arrived;
* `Inbox.raise` : a signal is sent. A blocked signal is held back, once however often it is sent;
* `Inbox.defer`, `Inbox.release` : block the deferrable signals, and restore the mask of before.
  Held signals that are no longer blocked arrive by increasing number;
* `Inbox.news`, `Inbox.next` : what all the records, or the oldest one, stand for.
-/

set_option autoImplicit false

namespace JobControl

structure Inbox where
  mask : SignalSet := .empty
  /-- The masks to be restored, the latest first. -/
  saved : List SignalSet := []
  /-- Sent, but blocked. -/
  held : SignalSet := .empty
  /-- Arrived, oldest first. -/
  records : List Signal := []
  deriving DecidableEq, Repr

namespace Inbox

/-- A signal is sent to the shell. -/
def raise (b : Inbox) (s : Signal) : Inbox :=
  if b.mask.contains s then { b with held := b.held.insert s }
  else { b with records := b.records ++ [s] }

/-- Change the mask; held signals that it does not block arrive. -/
def setMask (b : Inbox) (mask : SignalSet) : Inbox :=
  { b with
    mask
    held := b.held.inter mask
    records := b.records ++ (b.held.diff mask).members }

def defer (b : Inbox) : Inbox :=
  { b with mask := Mask.block b.mask .deferrable, saved := b.mask :: b.saved }

/-- Restore the mask that was saved last. -/
def release (b : Inbox) : Inbox :=
  match b.saved with
  | [] => b
  | mask :: rest => { b.setMask (Mask.set b.mask mask) with saved := rest }

def depth (b : Inbox) : Nat := b.saved.length

/-- What all the records stand for, given the answers to asking for children. -/
def news (b : Inbox) (waits : List Wait) :
    Except Error (List Notification) × Inbox × List Wait :=
  match Notification.ofSignals b.records waits with
  | (answer, records, left) => (answer, { b with records }, left)

/-- What the oldest record stands for; none if nothing has arrived. -/
def next (b : Inbox) (waits : List Wait) :
    Option (Except Error (List Notification) × Inbox × List Wait) :=
  match b.records with
  | [] => none
  | s :: records =>
    match Notification.ofSignal s waits with
    | (answer, left) => some (answer, { b with records }, left)

/-- Restore every saved mask. -/
def releaseAll (b : Inbox) : Inbox := b.saved.foldl (fun b _ => b.release) b

end Inbox
end JobControl

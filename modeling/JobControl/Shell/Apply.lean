import JobControl.Shell

/-!
# Applying notifications

* `Shell.applyChange` : what the table and the user learn of a child that changed;
* `Shell.passKey` : a key goes to the foreground job;
* `Shell.apply`, `Shell.applyAll` : one notification, and a batch up to a stop;
* `Shell.drain` : apply all the news there is;
* `Shell.waitForeground` : apply news until no job is in the foreground.
-/

set_option autoImplicit false

namespace JobControl.Shell
variable {σ : Type}

def dropJob (s : Shell σ) (pid : Pid) : Shell σ :=
  match s.jobs.remove pid with
  | some (_, jobs) => { s with jobs }
  | none => s

def markStopped (s : Shell σ) (pid : Pid) : Shell σ :=
  match s.jobs.setState pid .stopped with
  | .ok jobs => { s with jobs }
  | .error _ => s

/-- Take up the change of a child. A job that ends leaves the table. -/
def applyChange (s : Shell σ) (pid : Pid) (change : ChildChange) : Shell σ :=
  match s.jobs.findByPid? pid with
  | none => s.complain (.strayChild pid)
  | some job =>
    match change with
    | .exited _ => (s.report (.deleted job)).dropJob pid
    | .signaled sig => (s.say (.terminated job.id pid sig)).dropJob pid
    | .stopped sig => (s.say (.stopped job.id pid sig)).markStopped pid

/-- What the shell was doing when it could not pass on a key. -/
def keyContext (sig : Signal) : String := if sig = .int then "sigint error" else "sigtstp error"

/-! ## Frames -/

@[simp] theorem note_host (s : Shell σ) (d : Deed) : (s.note d).host = s.host := rfl

@[simp] theorem say_host (s : Shell σ) (n : Notice) : (s.say n).host = s.host := rfl

@[simp] theorem report_host (s : Shell σ) (n : Notice) : (s.report n).host = s.host := rfl

@[simp] theorem complain_host (s : Shell σ) (m : Complaint) : (s.complain m).host = s.host := rfl

@[simp] theorem dropJob_host (s : Shell σ) (pid : Pid) : (s.dropJob pid).host = s.host := by
  unfold dropJob; split <;> rfl

@[simp] theorem markStopped_host (s : Shell σ) (pid : Pid) : (s.markStopped pid).host = s.host := by
  unfold markStopped; split <;> rfl

@[simp] theorem applyChange_host (s : Shell σ) (pid : Pid) (change : ChildChange) :
    (s.applyChange pid change).host = s.host := by
  unfold applyChange; split
  · rfl
  · cases change <;> simp

/-! ## Applying -/

variable [Host σ]

/-- Pass a key on to the foreground job; without one it is meant for nobody. -/
def passKey (s : Shell σ) (sig : Signal) : Except Error Flow × Shell σ :=
  match s.jobs.foreground? with
  | none => (.ok .continue, s)
  | some pid =>
    match s.signal .keyboard pid sig with
    | (.ok (), s) => (.ok .continue, s)
    | (.error e, s) => (.error (.fatal (keyContext sig) e), s)

def react (s : Shell σ) : Notification → Except Error Flow × Shell σ
  | .child pid change => (.ok .continue, s.applyChange pid change)
  | .keyboard sig => s.passKey sig
  | .quit => (.ok (.exit 1), s.say .quitting)

def apply (s : Shell σ) (n : Notification) : Except Error Flow × Shell σ :=
  (s.note (.apply n)).react n

/-- Apply notifications in order, up to the first that stops the shell. -/
def applyAll (s : Shell σ) : List Notification → Except Error Flow × Shell σ
  | [] => (.ok .continue, s)
  | n :: rest =>
    match s.apply n with
    | (.ok .continue, s) => s.applyAll rest
    | stopped => stopped

/-- Apply all the news there is, without waiting for more. -/
def drain (s : Shell σ) : Except Error Flow × Shell σ :=
  match (s.note .drain).pending with
  | (.ok batch, s) => s.applyAll batch
  | (.error e, s) => (.error e, s)

/-! ## Waiting comes to an end -/

theorem patience_passKey (s : Shell σ) (sig : Signal) :
    Host.patience (s.passKey sig).2.host ≤ Host.patience s.host := by
  unfold passKey
  split
  · exact Nat.le_refl _
  · next pid _ =>
    have h := Host.patience_signalGroup pid sig s.host
    split <;> next e => simp only [signal, Prod.mk.injEq] at e; rw [← e.2]; exact h

theorem patience_apply (s : Shell σ) (n : Notification) :
    Host.patience (s.apply n).2.host ≤ Host.patience s.host := by
  cases n with
  | child pid change => simp [apply, react]
  | keyboard sig => exact (s.note _).patience_passKey sig
  | quit => exact Nat.le_refl _

theorem patience_applyAll (s : Shell σ) (batch : List Notification) :
    Host.patience (s.applyAll batch).2.host ≤ Host.patience s.host := by
  induction batch generalizing s with
  | nil => exact Nat.le_refl _
  | cons n rest ih =>
    have h := s.patience_apply n
    unfold applyAll
    split
    · next e => rw [e] at h; exact Nat.le_trans (ih _) h
    · exact h

theorem patience_await {s s' : Shell σ} {batch : List Notification}
    (h : s.await = (.ok batch, s')) : Host.patience s'.host < Host.patience s.host := by
  simp only [await, Prod.mk.injEq] at h
  rw [← h.2]
  exact Nat.lt_of_lt_of_le (Host.patience_await _ batch h.1) (Host.patience_hear s.console s.host)

/-- Sleep until no job is in the foreground. The table changes only by applying news, so there is
nothing to look at in between. -/
def waitForeground (s : Shell σ) : Except Error Flow × Shell σ :=
  match s.jobs.foreground? with
  | none => (.ok .continue, s)
  | some _ =>
    match _h : s.await with
    | (.error e, s') => (.error e, s')
    | (.ok batch, s') =>
      match _h' : s'.applyAll batch with
      | (.ok .continue, s'') => s''.waitForeground
      | stopped => stopped
  termination_by Host.patience s.host
  decreasing_by
    have := patience_await _h
    have := s'.patience_applyAll batch
    rw [_h'] at this
    simp only at this
    omega

end JobControl.Shell

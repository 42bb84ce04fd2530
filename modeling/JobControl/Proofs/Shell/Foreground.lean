import JobControl.Proofs.Shell.Lifecycle
import JobControl.Proofs.Table.Foreground

/-!
# Jobs in the foreground

* `Past.Recorded.oneForeground` : at most one job is in the foreground;
* `Journal.Orderly` : the shell looks for news, and evaluates lines, only while no job is in the
  foreground; it applies what it fetched last, and passes on only keys that it waited for;
* `Journal.FatalWaits` : the waits that failed did so with a fatal error;
* `Shell.Ends` : how an operation ends that began with no job in the foreground: in order, and again
  with none in the foreground if the shell goes on;
* `ends_eval`, `orderly_perform`, `calm_perform` : the operations do.
-/

set_option autoImplicit false

namespace JobControl

theorem Past.Recorded.oneForeground {σ : Type} [Host σ] {p : Past} (h : Past.Recorded σ p)
    (fresh : p.journal.SpawnsFresh) : p.jobs.OneForeground := by
  induction h with
  | refl => exact .empty _
  | tail hpast hstep ih =>
    obtain ⟨deed, hj⟩ := hstep.move.journal
    have hpast : Past.Recorded σ _ := hpast
    have hfresh := fresh.earlier hj
    exact (ih hfresh).update (hpast.distinct hfresh) hstep.move.update

theorem Table.foreground?_applied {t : Table} (h : t.foreground? = none) (n : Notification) :
    (t.applied n).foreground? = none := by
  rcases t.applied_cases n with he | ⟨pid, job, hfind, he | he⟩ <;> rw [he]
  · exact h
  · exact foreground?_removed h hfind
  · exact foreground?_moved h (found_of_findByPid? hfind) nofun

/-- The failure that a wait ended with. -/
def Deed.failedWait? : Deed → Option Error
  | .fetch true (.error e) => some e
  | _ => none

namespace Journal

/-- The latest answer to fetching news, and whether it was waited for. -/
def lastFetch? (j : Journal) : Option (Bool × Except Error (List Notification)) :=
  j.findSome? fun e =>
    match e.deed with
    | .fetch waiting answer => some (waiting, answer)
    | _ => none

/-- A look for news, or a line, finds no job in the foreground; what is applied was fetched last; a
key that is passed on was fetched last, by a wait. -/
def Entry.Orderly (e : Entry) (earlier : Journal) : Prop :=
  match e.deed with
  | .drain => e.jobs.foreground? = none
  | .evaluate _ => e.jobs.foreground? = none
  | .apply n => ∃ waiting batch, earlier.lastFetch? = some (waiting, .ok batch) ∧ n ∈ batch
  | .signal .keyboard _ sig _ =>
    ∃ batch, earlier.lastFetch? = some (true, .ok batch) ∧ .keyboard sig ∈ batch
  | _ => True

def Orderly : Journal → Prop
  | [] => True
  | e :: earlier => e.Orderly earlier ∧ Orderly earlier

/-- The waits that failed did so with a fatal error. -/
def FatalWaits (j : Journal) : Prop := ∀ e ∈ j, ∀ err ∈ e.deed.failedWait?, err.isFatal

instance (j : Journal) : Decidable j.FatalWaits :=
  inferInstanceAs (Decidable (∀ e ∈ j, ∀ err ∈ e.deed.failedWait?, err.isFatal))

theorem FatalWaits.suffix {j earlier : Journal} (h : j.FatalWaits) (hj : earlier <:+ j) :
    earlier.FatalWaits :=
  fun e he => h e (hj.subset he)

theorem Orderly.entry {j newer earlier : Journal} {e : Entry} (h : j.Orderly)
    (hj : j = newer ++ e :: earlier) : e.Orderly earlier := by
  subst hj
  induction newer with
  | nil => exact h.1
  | cons _ newer ih => exact ih h.2

end Journal

theorem Past.Move.fatalWait {σ : Type} [Host σ] {p q : Past} {e : Journal.Entry}
    (h : Past.Move σ p q) (hj : q.journal = e :: p.journal)
    (fatal : ∀ (host : σ) (err : Error), (Host.await host).1 = .error err → err.isFatal) :
    ∀ err ∈ e.deed.failedWait?, err.isFatal := by
  cases h with
  | await host =>
    obtain ⟨rfl, -⟩ := List.cons.inj hj
    intro err herr
    cases hanswer : (Host.await host).1 with
    | ok batch => simp [Deed.failedWait?, hanswer] at herr
    | error err' =>
      obtain rfl : err' = err := by simpa [Deed.failedWait?, hanswer] using herr
      exact fatal host err' hanswer
  | _ =>
    obtain ⟨rfl, -⟩ := List.cons.inj hj
    intro err herr
    cases herr

/-- On a host whose waits fail only with fatal errors, those of every journal do. -/
theorem Past.Recorded.fatalWaits {σ : Type} [Host σ] {p : Past} (h : Past.Recorded σ p)
    (fatal : ∀ (host : σ) (err : Error), (Host.await host).1 = .error err → err.isFatal) :
    p.journal.FatalWaits := by
  induction h with
  | refl => exact fun e he => by cases he
  | tail _ hstep ih =>
    obtain ⟨deed, hj⟩ := hstep.move.journal
    have hlatest := hstep.move.fatalWait hj fatal
    rw [hj]
    intro e he
    rcases List.mem_cons.1 he with rfl | he
    · exact hlatest
    · exact ih e he

namespace Shell
variable {σ : Type} [Host σ] {s s' : Shell σ}

/-! ## Taking up news -/

/-- The shell has just fetched a batch of news, by a wait if a job is in the foreground. -/
structure Listens (s : Shell σ) (batch : List Notification) : Prop where
  orderly : s.journal.Orderly
  fetched : ∃ waiting, s.journal.lastFetch? = some (waiting, .ok batch) ∧
    (s.jobs.foreground? = none ∨ waiting = true)

variable {batch : List Notification}

theorem Listens.passKey (h : s.Listens batch) {sig : Signal} (hsig : .keyboard sig ∈ batch) :
    (s.passKey sig).2.Listens batch := by
  obtain ⟨waiting, hlast, hsource⟩ := h.fetched
  rw [passKey_snd]
  cases hf : s.jobs.foreground? with
  | none => exact h
  | some target =>
    obtain rfl : waiting = true := by
      rcases hsource with hnone | hwaiting
      · rw [hnone] at hf
        cases hf
      · exact hwaiting
    exact ⟨⟨⟨batch, hlast, hsig⟩, h.orderly⟩, true, hlast, .inr rfl⟩

theorem Listens.apply (h : s.Listens batch) {n : Notification} (hn : n ∈ batch) :
    (s.apply n).2.Listens batch := by
  obtain ⟨waiting, hlast, hsource⟩ := h.fetched
  have hnote : (s.note (.apply n)).Listens batch :=
    ⟨⟨⟨waiting, batch, hlast, hn⟩, h.orderly⟩, waiting, hlast, hsource⟩
  cases n with
  | keyboard sig => exact hnote.passKey hn
  | quit => exact ⟨hnote.orderly, hnote.fetched⟩
  | child pid change =>
    have hp := s.past_apply_child pid change
    refine ⟨?_, waiting, ?_, ?_⟩
    · change (past _).journal.Orderly
      rw [hp]
      exact hnote.orderly
    · change (past _).journal.lastFetch? = _
      rw [hp]
      exact hlast
    · change (past _).jobs.foreground? = none ∨ _
      rw [hp]
      exact hsource.imp_left fun hnone => Table.foreground?_applied hnone _

theorem Listens.applyAll (h : s.Listens batch) {rest : List Notification} (hrest : rest ⊆ batch) :
    (s.applyAll rest).2.Listens batch := by
  induction rest generalizing s with
  | nil => exact h
  | cons n rest ih =>
    have hn := h.apply (hrest List.mem_cons_self)
    unfold Shell.applyAll
    split
    · next e =>
      rw [e] at hn
      exact ih hn fun n' hn' => hrest (List.mem_cons_of_mem _ hn')
    · exact hn

theorem jobs_apply (s : Shell σ) (n : Notification) :
    (s.apply n).2.jobs = s.jobs.applied n := by
  cases n with
  | child pid change => exact congrArg Past.jobs (s.past_apply_child pid change)
  | quit => rfl
  | keyboard sig =>
    change ((s.note (.apply (.keyboard sig))).passKey sig).2.jobs = s.jobs
    rw [passKey_snd]
    split <;> rfl

section News
variable (fetched : Except Error (List Notification) × Shell σ)

theorem calm_takeUp (h : fetched.2.jobs.foreground? = none) :
    (takeUp fetched).2.jobs.foreground? = none := by
  refine takeUp_keeps (K := fun s => s.jobs.foreground? = none) (fun s n h => ?_) h
  rw [jobs_apply]
  exact Table.foreground?_applied h n

theorem orderly_takeUp {waiting : Bool} (orderly : fetched.2.journal.Orderly)
    (hlast : fetched.2.journal.lastFetch? = some (waiting, fetched.1))
    (source : fetched.2.jobs.foreground? = none ∨ waiting = true) :
    (takeUp fetched).2.journal.Orderly := by
  obtain ⟨e | batch, s⟩ := fetched
  · exact orderly
  · have listens : s.Listens batch := ⟨orderly, waiting, hlast, source⟩
    exact (listens.applyAll (List.Subset.refl batch)).orderly

end News

/-! ## Operations that begin with no job in the foreground -/

/-- How an operation on `s` ends with `r`. -/
structure Ends (s : Shell σ) (r : Except Error Flow × Shell σ) : Prop where
  orderly : s.journal.Orderly → r.2.journal.Orderly
  calm : r.1 = .ok .continue → r.2.jobs.foreground? = none
  fatal : ∀ e, r.1 = .error e → r.2.journal.FatalWaits → e.isFatal

/-- On the way, a job may be in the foreground only while the shell waits. -/
structure Proceeds (orderly : Prop) (waits : Bool) (p : Past) : Prop where
  orderly : orderly → p.journal.Orderly
  calm : waits = false → p.jobs.foreground? = none

theorem Proceeds.record {orderly : Prop} {waits waits' : Bool} {p : Past}
    (h : Proceeds orderly waits p) (d : Deed)
    (hd : (⟨d, p.jobs, p.deferrals⟩ : Journal.Entry).Orderly p.journal) {jobs : Table}
    (calm : waits' = false → jobs.foreground? = none) (n : Nat) :
    Proceeds orderly waits' (p.record d jobs n) :=
  ⟨fun ho => ⟨hd, h.orderly ho⟩, calm⟩

section Wakes
variable {line : String} {state : Job.State} {job : Job}

omit [Host σ] in
/-- With no job in the foreground, the table admits that a job in it goes on. -/
theorem Wakes.moves (wakes : s.Wakes line state job s') (calm : s.jobs.foreground? = none)
    (state' : Job.State) : s'.jobs.Moves job.pid state' := by
  obtain ⟨reference, -, found⟩ := wakes.named
  rw [wakes.jobs]
  exact ⟨fun _ owner ho => (by rw [calm] at ho; cases ho), job, Table.mem_jobs_of_find? found, rfl⟩

omit [Host σ] in
theorem Wakes.setState_ne_error (wakes : s.Wakes line state job s')
    (calm : s.jobs.foreground? = none) (reason : Table.Refusal) :
    s'.jobs.setState job.pid state ≠ .error reason := by
  rw [Table.setState_eq_ok_iff.2 ⟨wakes.moves calm state, rfl⟩]
  nofun

omit [Host σ] in
theorem Proceeds.noted {orderly : Prop} (h : Proceeds orderly false s.past)
    (wakes : s.Wakes line state job s') : Proceeds orderly false s'.past := by
  rw [wakes.noted.past]
  exact h.record (.evaluate line) (h.calm rfl) h.calm _

end Wakes

theorem conduct_ends (s₀ : Shell σ) (line : String) :
    Conduct line (fun waits s => Proceeds s₀.journal.Orderly waits s.past) s₀.Ends where
  quiet h quiet := quiet.past ▸ h
  idle h _ := h.record (.evaluate line) (h.calm rfl) h.calm _
  defer s h := by
    obtain ⟨n, hpast, -⟩ := s.past_defer
    rw [hpast]
    exact h.record (.defer s.defer.1) trivial h.calm n
  start s request h room _ _ := by
    have hrelease {waits : Bool} {s : Shell σ} (h : Proceeds s₀.journal.Orderly waits s.past) :
        Proceeds s₀.journal.Orderly waits s.release.past :=
      h.record .release trivial h.calm _
    rcases s.start_cases request with
      ⟨e, hout, hpast⟩ | ⟨pid, ⟨reason, -, hout, hpast⟩ | ⟨i, jobs, hadd, hout, hpast⟩⟩ <;>
      rw [hout] <;> refine hrelease ?_ <;> rw [hpast]
    · exact h.record (.spawn request (.error e)) trivial h.calm _
    · exact h.record (.spawn request (.ok pid)) trivial h.calm _
    · obtain ⟨admits, -, rfl⟩ := Table.add_eq_ok_iff.1 hadd
      have hspawn := h.record (.spawn request (.ok pid)) trivial h.calm s.deferrals
      refine hspawn.record (.register ⟨i, pid, _, _⟩) trivial (fun background => ?_) _
      have hstate : request.state ≠ .foreground := by
        have hb : request.background = true := by simpa [Except.isOk, Except.toBool] using background
        simp [LaunchRequest.state, hb]
      exact Table.foreground?_placed (h.calm rfl) admits.free hstate
  unsent {s state job s' e} h wakes _ :=
    (h.noted wakes).record (.signal .resume job.pid .cont (s'.signal .resume job.pid .cont).1) trivial
      (h.noted wakes).calm _
  refused h wakes _ hset := absurd hset (wakes.setState_ne_error (h.calm rfl) _)
  moved {s state job s' jobs} h wakes _ hset := by
    obtain ⟨moves, rfl⟩ := Table.setState_eq_ok_iff.1 hset
    have hnoted := h.noted wakes
    have hsignal := hnoted.record
      (.signal .resume job.pid .cont (s'.signal .resume job.pid .cont).1) trivial hnoted.calm
      s'.deferrals
    refine hsignal.record (.resume job.pid state) trivial (fun hstate => ?_) _
    exact Table.foreground?_moved (hnoted.calm rfl) moves.found (of_decide_eq_false hstate)
  round s h _ :=
    ⟨fun ho => orderly_takeUp s.await ⟨trivial, h.orderly ho⟩ rfl (.inr rfl), nofun⟩
  stop s h hne := by
    refine ⟨fun ho => orderly_takeUp s.await ⟨trivial, h.orderly ho⟩ rfl (.inr rfl),
      fun hcontinue => absurd hcontinue hne, fun e he hwaits => ?_⟩
    rcases error_takeUp he with hfatal | ⟨hawait, hsame⟩
    · exact hfatal
    · have hj : s.await.2.journal = ⟨.fetch true s.await.1, s.jobs, s.deferrals⟩ :: s.journal := rfl
      rw [hsame, hj, hawait] at hwaits
      exact hwaits _ List.mem_cons_self e rfl
  rest h hnone := ⟨h.orderly, fun _ => hnone, nofun⟩
  goOn h := ⟨h.orderly, fun _ => h.calm rfl, nofun⟩
  exit h := ⟨h.orderly, nofun, nofun⟩
  fatal h he := ⟨h.orderly, nofun, fun e' he' _ => Except.error.inj he' ▸ he⟩

theorem ends_eval (h : s.jobs.foreground? = none) (line : String) : Ends s (s.eval line) :=
  (conduct_ends s line).eval ⟨id, fun _ => h⟩

theorem orderly_perform (h : s.jobs.foreground? = none) (orderly : s.journal.Orderly) (op : Op) :
    (s.perform op).2.journal.Orderly := by
  cases op with
  | drain =>
    rw [perform, drain_eq]
    exact orderly_takeUp (s.note .drain).pending ⟨trivial, h, orderly⟩ rfl (.inl h)
  | eval line => exact (ends_eval h line).orderly orderly

/-- A shell that goes on after an operation still has no job in the foreground. -/
theorem calm_perform (h : s.jobs.foreground? = none) {op : Op} (goes : GoesOn (s.perform op).1)
    (waits : (s.perform op).2.journal.FatalWaits) : (s.perform op).2.jobs.foreground? = none := by
  cases op with
  | drain =>
    rw [perform, drain_eq]
    exact calm_takeUp (s.note .drain).pending h
  | eval line =>
    have hends := ends_eval h line
    rcases goes with hcontinue | ⟨e, he, hne⟩
    · exact hends.calm hcontinue
    · exact absurd (hends.fatal e he waits) hne

end Shell
end JobControl

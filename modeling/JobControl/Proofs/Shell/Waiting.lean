import JobControl.Host.Scripted
import JobControl.Proofs.Shell.Foreground

/-!
# Waiting for the foreground

What a wait takes in, and when it ends, read off the deeds that it adds to the journal.

* `Journal.deeds` : the deeds of a journal, oldest first;
* `Taken` : a notification that was applied, with what became of it if it was a key; `Routed` : where
  keys go;
* `Round` : a batch that a wait fetched and what it applied of it; `Round.Ends` : whether the wait is
  over then;
* `exists_taken` : what applying one notification does; `takes_applyAll` : and a batch of them;
* `waitForeground_rounds` : a wait fetches up to the first batch that ends it.
-/

set_option autoImplicit false

namespace JobControl

namespace Journal

/-- The deeds, oldest first. -/
def deeds (j : Journal) : List Deed := j.reverse.map Entry.deed

@[simp] theorem deeds_cons (e : Entry) (j : Journal) : deeds (e :: j) = deeds j ++ [e.deed] := by
  simp [deeds]

end Journal

namespace Table
variable {t : Table} {pid : Pid}

theorem HeldBy.applied (h : t.HeldBy pid) (n : Notification) : (t.applied n).HeldBy pid := by
  rcases t.applied_cases n with he | ⟨p, job, hfind, he | he⟩ <;> rw [he]
  · exact h
  · exact h.removed hfind
  · exact h.moved_away (found_of_findByPid? hfind) fun hs => by cases hs

/-- A change of the process that holds the foreground leaves it to none. -/
theorem HeldBy.foreground?_change (h : t.HeldBy pid) (distinct : t.Distinct) (sound : t.Sound)
    (change : ChildChange) : (t.applied (.child pid change)).foreground? = none := by
  rw [foreground?_eq_none]
  intro k hk hstate
  have hheld := h.applied (.child pid change) k hk hstate
  obtain ⟨k', -, hends, rfl⟩ := (mem_jobs_applied distinct sound.valid _).1 hk
  have hpid : k'.pid = pid := hheld
  cases change with
  | exited code => simp [Deed.ends, hpid] at hends
  | signaled sig => simp [Deed.ends, hpid] at hends
  | stopped sig => simp [Deed.leaves, Deed.movesTo?, hpid] at hstate

/-- Nothing else does. -/
theorem HeldBy.foreground?_other (h : t.HeldBy pid) (distinct : t.Distinct) (sound : t.Sound)
    (held : t.foreground? = some pid) {n : Notification} (other : ∀ change, n ≠ .child pid change) :
    (t.applied n).foreground? = some pid := by
  obtain ⟨k, hk, rfl, hstate⟩ := foreground?_eq_some held
  suffices hmem : k ∈ (t.applied n).jobs from (h.applied n).foreground?_eq hmem hstate
  refine (mem_jobs_applied distinct sound.valid n).2 ⟨k, hk, ?_⟩
  cases n with
  | keyboard sig => exact ⟨rfl, rfl⟩
  | quit => exact ⟨rfl, rfl⟩
  | child p change =>
    have hne : p ≠ k.pid := by
      rintro rfl
      exact other change rfl
    cases change <;> simp [Deed.ends, Deed.leaves, Deed.movesTo?, hne]

end Table

namespace Shell

/-! ## What is taken in -/

/-- A notification that was applied. -/
inductive Taken where
  | child (pid : Pid) (change : ChildChange)
  /-- A key that was passed on, with the answer. -/
  | passed (signal : Signal) (answer : Except SystemError Unit)
  /-- A key that was meant for nobody. -/
  | dropped (signal : Signal)
  | quit

namespace Taken

def notification : Taken → Notification
  | child pid change => .child pid change
  | passed signal _ => .keyboard signal
  | dropped signal => .keyboard signal
  | quit => .quit

/-- The deeds of applying it while the foreground is that of `pid`. -/
def deeds (pid : Pid) (t : Taken) : List Deed :=
  .apply t.notification ::
    match t with
    | passed signal answer => [.signal .keyboard pid signal answer]
    | _ => []

def stop? : Taken → Option (Except Error Flow)
  | passed signal (.error e) => some (.error (.fatal (keyContext signal) e))
  | quit => some (.ok (.exit 1))
  | _ => none

theorem stop?_ne_continue (t : Taken) : t.stop? ≠ some (.ok .continue) := by
  intro h
  unfold stop? at h
  split at h <;> cases h

/-- A key is passed on just while process `pid`, which held the foreground, has not changed. -/
def Suits (changed : Bool) : Taken → Prop
  | passed _ _ => changed = false
  | dropped _ => changed = true
  | _ => True

def changes (pid : Pid) : Taken → Bool
  | child p _ => p == pid
  | _ => false

end Taken

/-- Keys are passed on until `pid` changes, and are dropped then. -/
def Routed (pid : Pid) (changed : Bool) : List Taken → Prop
  | [] => True
  | t :: rest => t.Suits changed ∧ Routed pid (changed || t.changes pid) rest

/-- The answer to fetching news, and what was applied of it. -/
structure Round where
  answer : Except Error (List Notification)
  taken : List Taken

namespace Round

def deeds (pid : Pid) (r : Round) : List Deed :=
  .fetch true r.answer :: r.taken.flatMap (Taken.deeds pid)

/-- What a wait for `pid` ends with after a round, if it ends then. -/
inductive Ends (pid : Pid) : Round → Option (Except Error Flow) → Prop where
  /-- News cannot be fetched. -/
  | failed (e : Error) : Ends pid ⟨.error e, []⟩ (some (.error e))
  /-- A notification stops the shell; what follows is left. -/
  | stopped {before : List Taken} {t : Taken} {answer : Except Error Flow}
      (rest : List Notification) : (∀ t' ∈ before, t'.stop? = none) → t.stop? = some answer →
      Ends pid ⟨.ok ((before ++ [t]).map Taken.notification ++ rest), before ++ [t]⟩ (some answer)
  /-- All is applied, a change of `pid` with it. -/
  | changed {taken : List Taken} {change : ChildChange} : (∀ t ∈ taken, t.stop? = none) →
      .child pid change ∈ taken → Ends pid ⟨.ok (taken.map Taken.notification), taken⟩
        (some (.ok .continue))
  /-- All is applied, with no change of `pid`. -/
  | more {taken : List Taken} : (∀ t ∈ taken, t.stop? = none) →
      (∀ change, .child pid change ∉ taken) →
      Ends pid ⟨.ok (taken.map Taken.notification), taken⟩ none

end Round

/-! ## Applying -/

variable {σ : Type} [Host σ] {s s' : Shell σ} {pid : Pid}

/-- The foreground is that of `pid`, or nobody's since `pid` changed. -/
structure Waits (s : Shell σ) (pid : Pid) (changed : Bool) : Prop where
  sound : s.jobs.Sound
  distinct : s.jobs.Distinct
  held : s.jobs.HeldBy pid
  foreground : s.jobs.foreground? = if changed then none else some pid

omit [Host σ] in
theorem Waits.next {changed : Bool} (h : s.Waits pid changed) {n : Notification}
    (jobs : s'.jobs = s.jobs.applied n) {b : Bool} (hb : b = true ↔ ∃ change, n = .child pid change) :
    s'.Waits pid (changed || b) where
  sound := jobs ▸ h.sound.update (s.jobs.update_applied n)
  distinct := jobs ▸ h.distinct.applied n
  held := jobs ▸ h.held.applied n
  foreground := by
    have hf := h.foreground
    rw [jobs]
    cases changed with
    | true => exact Table.foreground?_applied hf n
    | false =>
      cases b with
      | true =>
        obtain ⟨change, rfl⟩ := hb.1 rfl
        exact h.held.foreground?_change h.distinct h.sound change
      | false =>
        refine h.held.foreground?_other h.distinct h.sound hf fun change hn => ?_
        exact absurd (hb.2 ⟨change, hn⟩) Bool.false_ne_true

/-- A key goes to the process that holds the foreground. -/
theorem passKey_held (hf : s.jobs.foreground? = some pid) (sig : Signal) :
    (s.passKey sig).1 =
        (Taken.passed sig (Host.signalGroup pid sig s.host).1).stop?.getD (.ok .continue) ∧
      (s.passKey sig).2 = (s.signal .keyboard pid sig).2 := by
  have hanswer : (s.signal .keyboard pid sig).1 = (Host.signalGroup pid sig s.host).1 := rfl
  rw [← hanswer]
  unfold passKey
  rw [hf]
  dsimp only
  split <;> next e => rw [e]; exact ⟨rfl, rfl⟩

/-- What applying a notification does. -/
theorem exists_taken {changed : Bool} (h : s.Waits pid changed) (n : Notification) :
    ∃ t : Taken, t.notification = n ∧ t.Suits changed ∧
      (s.apply n).1 = t.stop?.getD (.ok .continue) ∧
      (s.apply n).2.journal.deeds = s.journal.deeds ++ t.deeds pid ∧
      (s.apply n).2.jobs = s.jobs.applied n ∧ (s.apply n).2.Waits pid (changed || t.changes pid) := by
  have hjobs := s.jobs_apply n
  cases n with
  | child p change =>
    have hjournal : (s.apply (.child p change)).2.journal =
        ⟨.apply (.child p change), s.jobs, s.deferrals⟩ :: s.journal :=
      congrArg Past.journal (s.past_apply_child p change)
    refine ⟨.child p change, rfl, trivial, rfl, ?_, hjobs, h.next hjobs ?_⟩
    · rw [hjournal, Journal.deeds_cons]
      rfl
    · simp [Taken.changes]
  | quit =>
    refine ⟨.quit, rfl, trivial, rfl, ?_, hjobs, h.next hjobs (by simp [Taken.changes])⟩
    exact Journal.deeds_cons _ _
  | keyboard sig =>
    have hf : (s.note (.apply (.keyboard sig))).jobs.foreground? =
        if changed then none else some pid := h.foreground
    cases changed with
    | true =>
      have happly : s.apply (.keyboard sig) =
          (.ok .continue, s.note (.apply (.keyboard sig))) := by
        simp [apply, react, passKey, hf]
      refine ⟨.dropped sig, rfl, rfl, congrArg Prod.fst happly, ?_, hjobs,
        h.next hjobs (by simp [Taken.changes])⟩
      rw [happly]
      exact Journal.deeds_cons _ _
    | false =>
      obtain ⟨hanswer, hsignal⟩ := passKey_held hf sig
      refine ⟨.passed sig (Host.signalGroup pid sig s.host).1, rfl, rfl, hanswer, ?_, hjobs,
        h.next hjobs (by simp [Taken.changes])⟩
      have hjournal : (s.apply (.keyboard sig)).2.journal =
          ⟨.signal .keyboard pid sig (Host.signalGroup pid sig s.host).1, s.jobs, s.deferrals⟩ ::
            ⟨.apply (.keyboard sig), s.jobs, s.deferrals⟩ :: s.journal :=
        congrArg Shell.journal hsignal
      rw [hjournal, Journal.deeds_cons, Journal.deeds_cons, List.append_assoc]
      rfl

/-- What applying a batch to `s` does, with the result `r`. -/
structure Takes (s : Shell σ) (pid : Pid) (changed : Bool) (batch : List Notification)
    (taken : List Taken) (r : Except Error Flow × Shell σ) : Prop where
  routed : Routed pid changed taken
  deeds : r.2.journal.deeds = s.journal.deeds ++ taken.flatMap (Taken.deeds pid)
  jobs : r.2.jobs = (taken.map Taken.notification).foldl Table.applied s.jobs
  waits : r.2.Waits pid (changed || taken.any (Taken.changes pid))
  /-- All is applied, or all up to a notification that stops the shell. -/
  ends : (∀ t ∈ taken, t.stop? = none) ∧ batch = taken.map Taken.notification ∧
      r.1 = .ok .continue ∨
    ∃ before t rest, taken = before ++ [t] ∧ (∀ t' ∈ before, t'.stop? = none) ∧
      t.stop? = some r.1 ∧ batch = taken.map Taken.notification ++ rest

theorem takes_applyAll {changed : Bool} (h : s.Waits pid changed) (batch : List Notification) :
    ∃ taken, s.Takes pid changed batch taken (s.applyAll batch) := by
  induction batch generalizing s changed with
  | nil =>
    refine ⟨[], trivial, by simp [applyAll], rfl, by simpa [applyAll] using h, .inl ?_⟩
    exact ⟨List.forall_mem_nil _, rfl, rfl⟩
  | cons n batch ih =>
    obtain ⟨t, rfl, suits, hanswer, hdeeds, hjobs, hwaits⟩ := exists_taken h n
    cases hstop : t.stop? with
    | none =>
      have happly : s.apply t.notification = (.ok .continue, (s.apply t.notification).2) := by
        rw [hstop] at hanswer
        exact Prod.ext hanswer rfl
      obtain ⟨taken, htaken⟩ := ih hwaits
      have hrest : s.applyAll (t.notification :: batch) =
          (s.apply t.notification).2.applyAll batch := by
        rw [applyAll, happly]
      rw [hrest]
      refine ⟨t :: taken, ⟨suits, htaken.routed⟩, ?_, ?_, ?_, ?_⟩
      · rw [htaken.deeds, hdeeds, List.flatMap_cons, List.append_assoc]
      · rw [htaken.jobs, hjobs, List.map_cons, List.foldl_cons]
      · rw [List.any_cons, ← Bool.or_assoc]
        exact htaken.waits
      · refine htaken.ends.imp ?_ ?_
        · rintro ⟨hgo, rfl, hcontinue⟩
          exact ⟨by simpa [hstop] using hgo, rfl, hcontinue⟩
        · rintro ⟨before, t', rest, rfl, hgo, hstop', rfl⟩
          exact ⟨t :: before, t', rest, rfl, by simpa [hstop] using hgo, hstop', rfl⟩
    | some answer =>
      rw [hstop, Option.getD_some] at hanswer
      have hall : s.applyAll (t.notification :: batch) = s.apply t.notification := by
        rw [applyAll]
        split
        · next e =>
          rw [e] at hanswer
          exact absurd (hstop.trans (congrArg some hanswer.symm)) t.stop?_ne_continue
        · rfl
      rw [hall]
      refine ⟨[t], ⟨suits, trivial⟩, by simpa using hdeeds, hjobs, by simpa using hwaits, .inr ?_⟩
      exact ⟨[], t, batch, rfl, List.forall_mem_nil _, by rw [hstop, hanswer], rfl⟩

/-! ## Waiting -/

/-- From `s` to `s'`, the rounds are all that has happened. -/
structure Passes (s : Shell σ) (pid : Pid) (rounds : List Round) (s' : Shell σ) : Prop where
  routed : ∀ r ∈ rounds, Routed pid false r.taken
  deeds : s'.journal.deeds = s.journal.deeds ++ rounds.flatMap (Round.deeds pid)
  jobs : s'.jobs = ((rounds.flatMap Round.taken).map Taken.notification).foldl Table.applied s.jobs

omit [Host σ] in
theorem Passes.cons {s'' : Shell σ} {r : Round} {rounds : List Round} (h : s.Passes pid [r] s')
    (h' : s'.Passes pid rounds s'') : s.Passes pid (r :: rounds) s'' where
  routed := List.forall_mem_cons.2 ⟨h.routed r List.mem_cons_self, h'.routed⟩
  deeds := by simp [h'.deeds, h.deeds]
  jobs := by simp [h'.jobs, h.jobs]

theorem deeds_await {answer : Except Error (List Notification)} (h : s.await = (answer, s')) :
    s'.journal.deeds = s.journal.deeds ++ [.fetch true answer] ∧ s'.jobs = s.jobs := by
  have hawait : s.await.2.journal.deeds = s.journal.deeds ++ [.fetch true s.await.1] ∧
      s.await.2.jobs = s.jobs := ⟨Journal.deeds_cons _ _, rfl⟩
  rwa [h] at hawait

theorem Waits.await {answer : Except Error (List Notification)} (h : s.Waits pid false)
    (hawait : s.await = (answer, s')) : s'.Waits pid false := by
  have hjobs := (deeds_await hawait).2
  exact ⟨hjobs ▸ h.sound, hjobs ▸ h.distinct, hjobs ▸ h.held, hjobs ▸ h.foreground⟩

/-- A batch, fetched and applied, is a round. -/
theorem Takes.passes {batch : List Notification} {taken : List Taken}
    {r : Except Error Flow × Shell σ} (h : s'.Takes pid false batch taken r)
    (hawait : s.await = (.ok batch, s')) : s.Passes pid [⟨.ok batch, taken⟩] r.2 := by
  obtain ⟨hdeeds, hjobs⟩ := deeds_await hawait
  refine ⟨by simpa using h.routed, ?_, ?_⟩
  · simp [h.deeds, hdeeds, Round.deeds]
  · simp [h.jobs, hjobs]

/-- The rounds of a wait for a process that holds the foreground. -/
theorem Waits.rounds (h : s.Waits pid false) :
    ∃ earlier last, (∀ r ∈ earlier, Round.Ends pid r none) ∧
      Round.Ends pid last (some s.waitForeground.1) ∧
      s.Passes pid (earlier ++ [last]) s.waitForeground.2 := by
  fun_induction waitForeground s with
  | case1 s calm =>
    have hf : s.jobs.foreground? = some pid := h.foreground
    rw [calm] at hf
    cases hf
  | case2 s owner _ e s' hawait =>
    obtain ⟨hdeeds, hjobs⟩ := deeds_await hawait
    refine ⟨[], ⟨.error e, []⟩, List.forall_mem_nil _, .failed e, ?_, ?_, hjobs⟩
    · simp [Routed]
    · simpa [Round.deeds] using hdeeds
  | case3 s owner _ batch s' hawait s'' happly ih =>
    obtain ⟨taken, htakes⟩ := takes_applyAll (h.await hawait) batch
    have hpasses := htakes.passes hawait
    rw [happly] at htakes hpasses
    obtain ⟨hgo, rfl⟩ : (∀ t ∈ taken, t.stop? = none) ∧ batch = taken.map Taken.notification := by
      rcases htakes.ends with ⟨hgo, hbatch, -⟩ | ⟨before, t, rest, -, -, hstop, -⟩
      · exact ⟨hgo, hbatch⟩
      · exact absurd hstop t.stop?_ne_continue
    have hwaits := htakes.waits
    rw [Bool.false_or] at hwaits
    cases hchanged : taken.any (Taken.changes pid) with
    | true =>
      rw [hchanged] at hwaits
      have hover : s''.waitForeground = (.ok .continue, s'') := by
        rw [waitForeground_eq, hwaits.foreground]
        rfl
      obtain ⟨t, ht, hchange⟩ := List.any_eq_true.1 hchanged
      obtain ⟨change, rfl⟩ : ∃ change, t = .child pid change := by
        cases t with
        | child p change =>
          obtain rfl : p = pid := by simpa [Taken.changes] using hchange
          exact ⟨change, rfl⟩
        | _ => cases hchange
      rw [hover]
      exact ⟨[], _, List.forall_mem_nil _, .changed hgo ht, hpasses⟩
    | false =>
      rw [hchanged] at hwaits
      obtain ⟨earlier, last, hearlier, hlast, hrest⟩ := ih hwaits
      have hmore : ∀ change, Taken.child pid change ∉ taken := by
        intro change hmem
        have hother := List.any_eq_false.1 hchanged _ hmem
        simp [Taken.changes] at hother
      exact ⟨_ :: earlier, last, List.forall_mem_cons.2 ⟨.more hgo hmore, hearlier⟩, hlast,
        hpasses.cons hrest⟩
  | case4 s owner _ batch s' hawait hstop =>
    obtain ⟨taken, htakes⟩ := takes_applyAll (h.await hawait) batch
    have hpasses := htakes.passes hawait
    rcases htakes.ends with ⟨-, -, hcontinue⟩ | ⟨before, t, rest, rfl, hgo, hanswer, rfl⟩
    · exact (hstop _ (Prod.ext hcontinue rfl)).elim
    · exact ⟨[], _, List.forall_mem_nil _, .stopped rest hgo hanswer, hpasses⟩

omit [Host σ] in
theorem waits_of_reachable {c : Nat} (reachable : Table.Reachable c s.jobs)
    (distinct : s.jobs.Distinct) {k : Job} (hk : k ∈ s.jobs.jobs) (hstate : k.state = .foreground) :
    s.Waits k.pid false := by
  have held := reachable.heldBy hk hstate
  have pos : 1 ≤ c := by
    rw [← reachable.capacity]
    exact Nat.le_trans (List.length_pos_of_mem hk) s.jobs.size_le_capacity
  exact ⟨reachable.sound pos, distinct, held, held.foreground?_eq hk hstate⟩

/-- **A wait consumes what it must.** With no job in the foreground it fetches nothing. Otherwise it
fetches batches up to the first that holds a change of the foreground job, stops the shell or is a
failure, and no further one. Each batch is applied in order and whole, but for what follows a
notification that stops the shell. The answer is that of the notification or the failure, or else to
go on. The deeds and the table say that nothing else happens. -/
theorem waitForeground_rounds {c : Nat} {s : Shell σ} (reachable : Table.Reachable c s.jobs)
    (distinct : s.jobs.Distinct) :
    (s.jobs.foreground? = none → s.waitForeground = (.ok .continue, s)) ∧
      ∀ k ∈ s.jobs.jobs, k.state = .foreground → ∃ earlier last,
        (∀ r ∈ earlier, Round.Ends k.pid r none) ∧
          Round.Ends k.pid last (some s.waitForeground.1) ∧
          s.Passes k.pid (earlier ++ [last]) s.waitForeground.2 := by
  refine ⟨fun calm => ?_, fun k hk hstate => ?_⟩
  · rw [waitForeground_eq, calm]
  · exact (waits_of_reachable reachable distinct hk hstate).rounds

/-- A key is passed on, the next one is not, and the last batch is left to the next wait. -/
theorem waitForeground_rounds_of_two :
    let s : Shell Scripted :=
      { host :=
          { events :=
              [.ok [.child ⟨7⟩ (.stopped .tstp), .keyboard .int],
                .ok [.child ⟨8⟩ (.exited 0), .keyboard .tstp, .child ⟨7⟩ (.exited 3)],
                .ok [.quit]] }
        jobs := Table.after 16 [.add ⟨7⟩ .background "b", .add ⟨8⟩ .foreground "a"] }
    let job : Job := ⟨2, ⟨8⟩, .foreground, "a"⟩
    (Table.Reachable 16 s.jobs ∧ s.jobs.Distinct ∧ job ∈ s.jobs.jobs) ∧
      (∃ earlier last, (∀ r ∈ earlier, Round.Ends job.pid r none) ∧
        Round.Ends job.pid last (some s.waitForeground.1) ∧
        s.Passes job.pid (earlier ++ [last]) s.waitForeground.2) ∧
      s.waitForeground.1 = .ok .continue ∧
      s.waitForeground.2.journal.signalled = [(⟨8⟩, .int)] ∧
      s.waitForeground.2.jobs.jobs = [] ∧ s.waitForeground.2.host.events = [.ok [.quit]] := by
  intro s job
  have reachable : Table.Reachable 16 s.jobs := ⟨_, rfl⟩
  have distinct : s.jobs.Distinct := by
    unfold Table.Distinct
    decide +kernel
  have hjob : job ∈ s.jobs.jobs := by decide +kernel
  exact ⟨⟨reachable, distinct, hjob⟩,
    (waitForeground_rounds reachable distinct).2 job hjob rfl,
    by decide +kernel, by decide +kernel, by decide +kernel, by decide +kernel⟩

end Shell
end JobControl

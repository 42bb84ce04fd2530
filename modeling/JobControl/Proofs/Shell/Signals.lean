import JobControl.Host.Scripted
import JobControl.Proofs.Shell.Lifecycle
import Mathlib.Data.List.Induction

/-!
# The signals that a shell sends

* `Journal.Entry.Calls` : what happens at an entry calls for a signal to a job: a key is taken up
  while the job is in the foreground, or a line lets the job, which is stopped, go on;
* `Journal.Answered` : a signal is sent just after each entry that calls for one, and at no other
  moment; `Answered.split`, `Answered.calledSince` read it at any entry;
* `Shell.carried_answered` : whatever the shell does keeps to it;
* `Shell.signals_after` : so every signal goes to a live job, for a cause just before, once.
-/

set_option autoImplicit false

namespace JobControl

/-! ## Deeds -/

def Deed.call? : Deed → Option (Origin × Pid × Signal)
  | .signal origin target sig _ => some (origin, target, sig)
  | _ => none

/-- The deed may call for a signal: a notification or a line is taken up. -/
def Deed.isOccasion : Deed → Bool
  | .apply _ | .evaluate _ => true
  | _ => false

namespace Journal

/-- What happens at the entry calls for a signal to a job. -/
inductive Entry.Calls (e : Entry) : Origin → Job → Signal → Prop where
  | key {sig : Signal} {k : Job} : e.deed = .apply (.keyboard sig) →
      e.jobs.jobs.find? Job.isForeground = some k → Calls e .keyboard k sig
  | resume {line : String} {reference : Job.Reference} {state : Job.State} {k : Job} :
      e.deed = .evaluate line → Command.Resumes line reference state →
      e.jobs.find? reference = some k → k.state = .stopped → Calls e .resume k .cont

namespace Entry
variable {e : Entry} {origin origin' : Origin} {k k' : Job} {sig sig' : Signal}

def Idle (e : Entry) : Prop := ∀ origin k sig, ¬ e.Calls origin k sig

theorem Calls.isOccasion (h : e.Calls origin k sig) : e.deed.isOccasion := by
  cases h with
  | key deed => rw [deed]; rfl
  | resume deed => rw [deed]; rfl

theorem Calls.call?_eq_none (h : e.Calls origin k sig) : e.deed.call? = none := by
  cases h with
  | key deed => rw [deed]; rfl
  | resume deed => rw [deed]; rfl

theorem Calls.mem_jobs (h : e.Calls origin k sig) : k ∈ e.jobs.jobs := by
  cases h with
  | key _ found => exact List.mem_of_find?_eq_some found
  | resume _ _ found => exact Table.mem_jobs_of_find? found

theorem Calls.state (h : e.Calls origin k sig) :
    (origin = .keyboard → k.state = .foreground) ∧
      (origin = .resume → k.state = .stopped ∧ sig = .cont) := by
  cases h with
  | key _ found =>
    have hforeground : k.isForeground := List.find?_some found
    have hstate : k.state = .foreground := by simpa [Job.isForeground] using hforeground
    exact ⟨fun _ => hstate, fun h => by cases h⟩
  | resume _ _ _ stopped => exact ⟨fun h => (by cases h), fun _ => ⟨stopped, rfl⟩⟩

/-- An entry calls for one signal at most. -/
theorem Calls.unique (h : e.Calls origin k sig) (h' : e.Calls origin' k' sig') :
    origin = origin' ∧ k = k' ∧ sig = sig' := by
  cases h with
  | key deed found =>
    cases h' with
    | key deed' found' =>
      rw [deed] at deed'
      cases deed'
      exact ⟨rfl, Option.some.inj (found.symm.trans found'), rfl⟩
    | resume deed' =>
      rw [deed] at deed'
      cases deed'
  | resume deed resumes found =>
    cases h' with
    | key deed' =>
      rw [deed] at deed'
      cases deed'
    | resume deed' resumes' found' =>
      rw [deed] at deed'
      cases deed'
      obtain ⟨rfl, -⟩ := resumes.unique resumes'
      exact ⟨rfl, Option.some.inj (found.symm.trans found'), rfl⟩

theorem idle_of_isOccasion (h : e.deed.isOccasion = false) : e.Idle := by
  intro origin k sig hcalls
  rw [hcalls.isOccasion] at h
  cases h

/-- A key is meant for nobody if no job is in the foreground. -/
theorem idle_key {sig : Signal} (deed : e.deed = .apply (.keyboard sig))
    (nobody : e.jobs.foreground? = none) : e.Idle := by
  rintro origin k sig' (⟨-, found⟩ | ⟨deed', -⟩)
  · simp [Table.foreground?, found] at nobody
  · rw [deed] at deed'
    cases deed'

end Entry

/-! ## Journals -/

/-- A signal is sent just after each entry that calls for one, and at no other moment. -/
inductive Answered : Journal → Prop where
  | nil : Answered []
  | idle {e : Entry} {j : Journal} : Answered j → e.deed.call? = none → e.Idle →
      Answered (e :: j)
  | call {c : Entry} {j : Journal} {origin : Origin} {k : Job} {sig : Signal}
      {answer : Except SystemError Unit} : Answered j → c.Calls origin k sig →
      Answered (⟨.signal origin k.pid sig answer, c.jobs, c.deferrals⟩ :: c :: j)

/-- The signals sent since a moment, up to the next occasion for one, oldest first, given the
entries since. -/
def calledSince (newer : Journal) : List (Origin × Pid × Signal) :=
  (newer.reverse.takeWhile fun e => !e.deed.isOccasion).filterMap (·.deed.call?)

theorem calledSince_concat (newer : Journal) (e : Entry) :
    calledSince (newer ++ [e]) =
      if e.deed.isOccasion then [] else e.deed.call?.toList ++ calledSince newer := by
  unfold calledSince
  rw [List.reverse_append, List.reverse_singleton, List.singleton_append, List.takeWhile_cons]
  cases e.deed.isOccasion with
  | true => rfl
  | false =>
    cases hcall : e.deed.call? with
    | none => simp [hcall]
    | some call => simp [hcall]

variable {e : Entry} {j newer earlier : Journal}

/-- Nothing is called for at the end. -/
theorem Answered.latest (h : Answered (e :: j)) : e.Idle := by
  cases h with
  | idle _ _ idle => exact idle
  | call => exact Entry.idle_of_isOccasion rfl

/-- A signal has its cause just before. -/
theorem Answered.cause {origin : Origin} {target : Pid} {sig : Signal} (h : Answered (e :: j))
    (call : e.deed.call? = some (origin, target, sig)) :
    ∃ c older k, j = c :: older ∧ c.jobs = e.jobs ∧ c.Calls origin k sig ∧ k.pid = target := by
  cases h with
  | idle _ none _ => cases none.symm.trans call
  | call _ calls =>
    cases call
    exact ⟨_, _, _, rfl, rfl, calls, rfl⟩

/-- At an entry the journal is answered, or else the next entry is the signal that it calls for. -/
theorem Answered.split (h : Answered j) (hj : j = newer ++ e :: earlier) :
    Answered (e :: earlier) ∨ ∃ later origin k sig answer,
      newer = later ++ [⟨.signal origin k.pid sig answer, e.jobs, e.deferrals⟩] ∧
        e.Calls origin k sig := by
  induction h generalizing newer with
  | nil => cases newer <;> cases hj
  | @idle e' j' hanswered call idle ih =>
    cases newer with
    | nil =>
      rw [List.nil_append] at hj
      exact .inl (hj ▸ .idle hanswered call idle)
    | cons x newer =>
      obtain ⟨rfl, hj'⟩ := List.cons.inj hj
      rcases ih hj' with hanswered' | ⟨later, origin, k, sig, answer, rfl, hcalls⟩
      · exact .inl hanswered'
      · exact .inr ⟨e' :: later, origin, k, sig, answer, rfl, hcalls⟩
  | @call c j' origin k sig answer hanswered calls ih =>
    cases newer with
    | nil =>
      rw [List.nil_append] at hj
      exact .inl (hj ▸ .call hanswered calls)
    | cons x newer =>
      obtain ⟨rfl, hj'⟩ := List.cons.inj hj
      cases newer with
      | nil =>
        obtain ⟨rfl, rfl⟩ := List.cons.inj hj'
        exact .inr ⟨[], origin, k, sig, answer, rfl, calls⟩
      | cons x newer =>
        obtain ⟨rfl, hj''⟩ := List.cons.inj hj'
        rcases ih hj'' with hanswered' | ⟨later, origin', k', sig', answer', rfl, hcalls⟩
        · exact .inl hanswered'
        · exact .inr ⟨_ :: c :: later, origin', k', sig', answer', rfl, hcalls⟩

/-- From an answered journal on, no signal is sent before the next occasion. -/
theorem Answered.calledSince_eq_nil (h : Answered (newer ++ j)) (hj : Answered j) :
    calledSince newer = [] := by
  induction newer using List.reverseRecOn generalizing j with
  | nil => rfl
  | append_singleton newer e ih =>
    rw [calledSince_concat]
    split
    · rfl
    · next hoccasion =>
      rw [List.append_assoc, List.singleton_append] at h
      rcases h.split rfl with hanswered | ⟨_, origin, k, sig, _, -, hcalls⟩
      · have hcall : e.deed.call? = none := by
          cases hanswered with
          | idle _ call _ => exact call
          | call _ calls => exact absurd calls (hj.latest _ _ _)
        rw [hcall, ih h hanswered]
        rfl
      · exact absurd hcalls.isOccasion hoccasion

/-- After an entry that calls for a signal this one is sent, and after another entry none. -/
theorem Answered.calledSince (h : Answered (newer ++ e :: earlier)) :
    (∀ origin k sig, e.Calls origin k sig → Journal.calledSince newer = [(origin, k.pid, sig)]) ∧
      (e.Idle → Journal.calledSince newer = []) := by
  rcases h.split rfl with hanswered | ⟨later, origin, k, sig, answer, rfl, hcalls⟩
  · exact ⟨fun origin k sig hcalls => absurd hcalls (hanswered.latest origin k sig),
      fun _ => h.calledSince_eq_nil hanswered⟩
  · refine ⟨fun origin' k' sig' hcalls' => ?_, fun idle => absurd hcalls (idle origin k sig)⟩
    obtain ⟨rfl, rfl, rfl⟩ := hcalls.unique hcalls'
    rw [List.append_assoc, List.singleton_append] at h
    have hlater : Journal.calledSince later = [] := by
      rcases h.split rfl with hanswered | ⟨_, _, _, _, _, -, hcalls''⟩
      · exact h.calledSince_eq_nil hanswered
      · cases hcalls''.isOccasion
    rw [calledSince_concat, hlater]
    rfl

end Journal

/-! ## One function after another -/

namespace Shell
open Journal
variable {σ : Type} {s s' : Shell σ}

theorem answered_note (h : s.journal.Answered) {d : Deed} (call : d.call? = none)
    (occasion : d.isOccasion = false) : (s.note d).journal.Answered :=
  .idle h call (Entry.idle_of_isOccasion occasion)

variable [Host σ]

theorem answered_apply (h : s.journal.Answered) (n : Notification) :
    (s.apply n).2.journal.Answered := by
  have hidle (other : ∀ sig, n ≠ .keyboard sig) :
      (⟨.apply n, s.jobs, s.deferrals⟩ : Entry).Idle := by
    rintro origin k sig (⟨deed, -⟩ | ⟨deed, -⟩)
    · exact other _ (Deed.apply.inj deed)
    · cases deed
  cases n with
  | child pid change =>
    have hjournal := congrArg Past.journal (s.past_apply_child pid change)
    show (past _).journal.Answered
    rw [hjournal]
    exact .idle h rfl (hidle fun sig hn => by cases hn)
  | quit => exact .idle h rfl (hidle fun sig hn => by cases hn)
  | keyboard sig =>
    show ((s.note (.apply (.keyboard sig))).passKey sig).2.journal.Answered
    rw [passKey_snd]
    cases hfind : s.jobs.jobs.find? Job.isForeground with
    | none =>
      have hnobody : (s.note (.apply (.keyboard sig))).jobs.foreground? = none :=
        congrArg (Option.map Job.pid) hfind
      rw [hnobody]
      exact .idle h rfl (Entry.idle_key rfl hnobody)
    | some k =>
      have htarget : (s.note (.apply (.keyboard sig))).jobs.foreground? = some k.pid :=
        congrArg (Option.map Job.pid) hfind
      rw [htarget]
      exact .call (c := ⟨.apply (.keyboard sig), s.jobs, s.deferrals⟩) h (.key rfl hfind)

theorem answered_start (h : s.journal.Answered) (request : LaunchRequest) :
    (s.start request).2.journal.Answered := by
  have hspawn (answer : Except SystemError Pid) :
      Answered (⟨.spawn request answer, s.jobs, s.deferrals⟩ :: s.journal) := answered_note h rfl rfl
  change (s.start request).2.past.journal.Answered
  rcases s.start_cases request with
    ⟨e, -, hpast⟩ | ⟨pid, ⟨reason, -, -, hpast⟩ | ⟨i, jobs, -, -, hpast⟩⟩ <;> rw [hpast]
  · exact hspawn _
  · exact hspawn _
  · exact .idle (hspawn _) rfl (Entry.idle_of_isOccasion rfl)

/-- A line that is taken up is answered if it lets a job go on. -/
theorem answered_wakes (h : s.journal.Answered) {line : String} {state : Job.State} {job : Job}
    (wakes : s.Wakes line state job s') :
    (s'.signal .resume job.pid .cont).2.journal.Answered := by
  obtain ⟨reference, resumes, found⟩ := wakes.named
  rw [← wakes.jobs] at found
  have calls : Entry.Calls ⟨.evaluate line, s'.jobs, s'.deferrals⟩ .resume job .cont :=
    .resume rfl resumes found wakes.stopped
  have hjust : s'.journal = ⟨.evaluate line, s'.jobs, s'.deferrals⟩ :: s.journal := wakes.just
  show Answered (_ :: s'.journal)
  rw [hjust]
  exact .call h calls

theorem carried_answered : Carried σ (fun _ => True) fun p => p.journal.Answered where
  apply _ n h := answered_apply h n
  drain s h := answered_note (answered_note h rfl rfl) rfl rfl
  await s h := answered_note h rfl rfl
  idle s line h hnone := by
    refine .idle h rfl ?_
    rintro origin k sig (⟨deed, -⟩ | ⟨deed, resumes, found, stopped⟩)
    · cases deed
    · cases deed
      exact hnone _ _ ⟨.refl _, ⟨_, resumes, found⟩, stopped⟩
  defer s h := by
    obtain ⟨n, hpast, -⟩ := s.past_defer
    rw [hpast]
    exact answered_note h rfl rfl
  start s request h _ _ _ := answered_note (answered_start h request) rfl rfl
  unmoved h wakes _ := answered_wakes h wakes
  moved h wakes _ _ := answered_note (answered_wakes h wakes) rfl rfl

/-! ## Every signal -/

/-- **Signals.** Whatever lines are evaluated and news is taken up on whatever host, each signal is
sent, or tried to be, to the process of a live job, which is positive, just after an entry of the
journal that calls for it: the same signal was typed while the job is in the foreground, or a line
names the job, which is stopped, to go on. Between an entry and the next occasion exactly the signal
that the entry calls for is sent, and none if it calls for none, as a key does with no job in the
foreground. -/
theorem signals_after (host : σ) (console : Console) (ops : List Op) {newer earlier : Journal}
    {e : Entry} (hj : (Shell.after { host, console } ops).journal = newer ++ e :: earlier) :
    (∀ origin target sig, e.deed.call? = some (origin, target, sig) →
      target.Valid ∧ ∃ k ∈ e.jobs.jobs, k.pid = target ∧
        (origin = .keyboard → k.state = .foreground) ∧
        (origin = .resume → k.state = .stopped ∧ sig = .cont) ∧
        ∃ c older, earlier = c :: older ∧ c.jobs = e.jobs ∧ c.Calls origin k sig) ∧
    (∀ origin k sig, e.Calls origin k sig → calledSince newer = [(origin, k.pid, sig)]) ∧
    (e.Idle → calledSince newer = []) ∧
    ∀ sig, e.deed = .apply (.keyboard sig) → e.jobs.foreground? = none →
      calledSince newer = [] := by
  have hanswered : (Shell.after { host, console } ops).journal.Answered :=
    carried_answered.after (fun _ _ => trivial) .nil
  have hvalid : ∀ k ∈ e.jobs.jobs, k.pid.Valid :=
    ((recorded_after host console ops).1.includes (.before hj)).sound.valid
  rw [hj] at hanswered
  obtain ⟨hcalled, hidle⟩ := hanswered.calledSince
  refine ⟨fun origin target sig call => ?_, hcalled, hidle, fun sig deed nobody =>
    hidle (Entry.idle_key deed nobody)⟩
  have hthis : Answered (e :: earlier) := by
    rcases hanswered.split rfl with hthis | ⟨_, _, _, _, _, -, hcalls⟩
    · exact hthis
    · cases hcalls.call?_eq_none.symm.trans call
  obtain ⟨c, older, k, hearlier, hjobs, hcalls, rfl⟩ := hthis.cause call
  have hmem : k ∈ e.jobs.jobs := hjobs ▸ hcalls.mem_jobs
  exact ⟨hvalid k hmem, k, hmem, rfl, hcalls.state.1, hcalls.state.2, c, older, hearlier, hjobs,
    hcalls⟩

/-- A job is stopped by a key and called back to the foreground, where another key ends it. -/
theorem signals_after_fg :
    let host : Scripted :=
      { events := [.ok [.keyboard .tstp, .child ⟨1000⟩ (.stopped .tstp)],
          .ok [.keyboard .int, .child ⟨1000⟩ (.signaled .int)]] }
    let s := Shell.after { host } [.eval "a", .eval "fg %1"]
    ∃ newer e c older, (s.journal = newer ++ e :: c :: older ∧
        e.deed.call? = some (.resume, ⟨1000⟩, .cont)) ∧
      (∃ k ∈ e.jobs.jobs, k.pid = ⟨1000⟩ ∧ k.state = .stopped ∧ c.Calls .resume k .cont) ∧
      calledSince (newer ++ [e]) = [(.resume, ⟨1000⟩, .cont)] := by
  intro host s
  have hfive : s.journal[5]?.bind (·.deed.call?) = some (.resume, ⟨1000⟩, .cont) := by
    decide +kernel
  obtain ⟨e, he, hcall⟩ := Option.bind_eq_some_iff.1 hfive
  obtain ⟨hlength, rfl⟩ := List.getElem?_eq_some_iff.1 he
  have hj : s.journal = s.journal.take 5 ++ s.journal[5] :: s.journal.drop 6 := by
    rw [← List.drop_eq_getElem_cons hlength, List.take_append_drop]
  obtain ⟨-, k, hk, hpid, -, hstate, c, older, hdrop, -, hcalls⟩ :=
    (signals_after host {} _ hj).1 _ _ _ hcall
  rw [hdrop] at hj
  have hj' : s.journal = (s.journal.take 5 ++ [s.journal[5]]) ++ c :: older := by
    rw [List.append_assoc]
    exact hj
  have hcalled := (signals_after host {} _ hj').2.1 _ _ _ hcalls
  rw [hpid] at hcalled
  exact ⟨_, _, c, older, ⟨hj, hcall⟩, ⟨k, hk, hpid, (hstate rfl).1, hcalls⟩, hcalled⟩

end Shell
end JobControl

import JobControl.Host.Fed
import JobControl.Host.Scripted
import JobControl.Machine
import JobControl.Proofs.ReadLoop.Run
import JobControl.Proofs.Shell.Foreground

/-!
# The foreground in the read loop

* `Reader.orderly_run` : a loop whose waits fail only with fatal errors looks for news and evaluates
  lines only while no job is in the foreground, and passes on only keys that it waited for;
* `Reader.foreground_discipline` : what is known of the foreground, for operations and for loops;
* `Machine.orderly_run` : on the machine, waits fail only with fatal errors.
-/

set_option autoImplicit false

namespace JobControl

namespace Reader
variable {σ : Type} [Host σ]

/-- As long as it goes on, a loop whose waits fail only with fatal errors has no job in the
foreground between operations. -/
theorem keeps_orderly : Shell.Keeps σ
    (fun s => s.past.Settled ∧ (s.journal.FatalWaits → s.journal.Orderly ∧ s.jobs.foreground? = none))
    (fun s => s.journal.FatalWaits → s.journal.Orderly) := by
  refine .ofPast
    (K := fun p => p.Settled ∧
      (p.journal.FatalWaits → p.journal.Orderly ∧ p.jobs.foreground? = none))
    (J := fun p => p.journal.FatalWaits → p.journal.Orderly) (fun _ h hw => (h.2 hw).1)
    fun s op h => ?_
  obtain ⟨hpath, hsettled⟩ := s.reach_perform op h.1
  have before (hw : (s.perform op).2.past.journal.FatalWaits) :
      s.journal.Orderly ∧ s.jobs.foreground? = none := h.2 (hw.suffix (Past.journal_suffix hpath))
  have orderly (hw : (s.perform op).2.past.journal.FatalWaits) :
      (s.perform op).2.journal.Orderly := Shell.orderly_perform (before hw).2 (before hw).1 op
  exact ⟨orderly, fun hgo =>
    ⟨hsettled, fun hw => ⟨orderly hw, Shell.calm_perform (before hw).2 hgo hw⟩⟩⟩

variable [Input σ]

/-- Between the operations of a loop that goes on, no job is in the foreground. -/
theorem orderly_run (host : σ) (console : Console) (prompt : Bool)
    (polls : List (EventLoop.Poll (Reader σ) Channel)) :
    (run { shell := { host, console }, prompt } polls).2.journal.FatalWaits →
      (run { shell := { host, console }, prompt } polls).2.journal.Orderly :=
  holds_run (l := { shell := { host, console }, prompt }) keeps_orderly
    ⟨Past.settled_nil _ _, fun _ => ⟨trivial, rfl⟩⟩ polls

/-- At most one job is in the foreground. A line that is evaluated with none there leaves none there
if the shell goes on. So a loop whose waits fail only with fatal errors looks for news, and
evaluates lines, with no job in the foreground, and passes on only keys that it waited for. -/
theorem foreground_discipline (host : σ) (console : Console) :
    (∀ p : Past, ((∃ ops, p = (Shell.after { host, console } ops).past) ∨
        ∃ prompt polls, p = (run { shell := { host, console }, prompt } polls).2.past) →
      p.journal.SpawnsFresh → ∀ q, p.Includes q → q.jobs.OneForeground) ∧
    (∀ (s : Shell σ) (line : String), (∀ k ∈ s.jobs.jobs, k.state ≠ .foreground) →
      (s.eval line).1 = .ok .continue → ∀ k ∈ (s.eval line).2.jobs.jobs, k.state ≠ .foreground) ∧
    ∀ prompt polls, (run { shell := { host, console }, prompt } polls).2.journal.FatalWaits →
      ∀ (newer : Journal) (e : Journal.Entry) (earlier : Journal),
        (run { shell := { host, console }, prompt } polls).2.journal = newer ++ e :: earlier →
        ((e.deed = .drain ∨ ∃ line, e.deed = .evaluate line) →
          ∀ k ∈ e.jobs.jobs, k.state ≠ .foreground) ∧
        ∀ target sig answer, e.deed = .signal .keyboard target sig answer →
          ∃ batch, earlier.lastFetch? = some (true, .ok batch) ∧ .keyboard sig ∈ batch := by
  refine ⟨fun p hp fresh q hq => ?_, fun s line h hcontinue => ?_,
    fun prompt polls hwaits newer e earlier hj => ?_⟩
  · have hrecorded : p.Recorded σ := by
      rcases hp with ⟨ops, rfl⟩ | ⟨prompt, polls, rfl⟩
      · exact (Shell.recorded_after host console ops).1
      · exact recorded_run host console prompt polls
    exact (hrecorded.includes hq).oneForeground (fresh.includes hq)
  · rw [← Table.foreground?_eq_none] at h ⊢
    exact (Shell.ends_eval h line).calm hcontinue
  · have horderly := (orderly_run host console prompt polls hwaits).entry hj
    refine ⟨fun hdeed => ?_, fun target sig answer hdeed => ?_⟩
    · rw [← Table.foreground?_eq_none]
      rcases hdeed with hdeed | ⟨line, hdeed⟩
      · simpa [Journal.Entry.Orderly, hdeed] using horderly
      · simpa [Journal.Entry.Orderly, hdeed] using horderly
    · simpa [Journal.Entry.Orderly, hdeed] using horderly

/-- A key that is pressed while no job runs is passed on to none, unlike one that ends a wait. -/
theorem foreground_discipline_idle_key :
    let host : Fed Scripted :=
      { host := { events := [.ok [.keyboard .int, .child ⟨1000⟩ (.signaled .int)]]
                  pending := [.ok [.keyboard .tstp]] }
        reads := [.ok [97, 10]] }
    let s := (run { shell := { host } } (host.polls true)).2
    s.journal.signalled = [(⟨1000⟩, .int)] ∧
      (s.journal.SpawnsFresh ∧ ∀ q, s.past.Includes q → q.jobs.OneForeground) ∧
      s.journal.FatalWaits ∧ ∀ (newer : Journal) (e : Journal.Entry) (earlier : Journal),
        s.journal = newer ++ e :: earlier →
        ∀ target sig answer, e.deed = .signal .keyboard target sig answer →
          ∃ batch, earlier.lastFetch? = some (true, .ok batch) ∧ .keyboard sig ∈ batch := by
  intro host s
  have hfresh : s.journal.SpawnsFresh := by decide +kernel
  have hwaits : s.journal.FatalWaits := by decide +kernel
  obtain ⟨hone, -, hloop⟩ := foreground_discipline host {}
  refine ⟨by decide +kernel, ⟨hfresh, hone s.past (.inr ⟨true, _, rfl⟩) hfresh⟩, hwaits,
    fun newer e earlier hj => ?_⟩
  exact (hloop true _ hwaits newer e earlier hj).2

end Reader

/-! ## The machine -/

theorem Notification.fatal_reap {waits : List Wait} {e : Error} (h : (reap waits).1 = .error e) :
    e.isFatal := by
  fun_induction reap waits with
  | case4 _ _ _ _ ih => exact ih h
  | case5 =>
    cases h
    rfl
  | case8 _ _ _ e' left hreap ih =>
    rw [hreap] at ih
    exact ih h
  | _ => cases h

theorem Notification.fatal_ofSignal {signal : Signal} {waits : List Wait} {e : Error}
    (h : (ofSignal signal waits).1 = .error e) : e.isFatal := by
  unfold ofSignal at h
  split at h
  · exact fatal_reap h
  · split at h
    · cases h
    · split at h <;> cases h

theorem Inbox.fatal_next {b b' : Inbox} {waits left : List Wait} {e : Error}
    (h : b.next waits = some (.error e, b', left)) : e.isFatal := by
  unfold next at h
  split at h
  · cases h
  · next signal records _ =>
    have hanswer : (Notification.ofSignal signal waits).1 = .error e := by
      simpa using congrArg (fun out => out.map Prod.fst) h
    exact Notification.fatal_ofSignal hanswer

theorem Machine.fatal_await {m : Machine} {e : Error} (h : m.await.1 = .error e) : e.isFatal := by
  unfold await at h
  split at h
  · cases h
    rfl
  · dsimp only at h
    split at h
    · cases h
      rfl
    · next news inbox left hnext =>
      split at hnext
      · cases hnext
      · obtain rfl : news = .error e := h
        exact Inbox.fatal_next hnext

/-- The machine's waits fail only with fatal errors, so its keys go only to jobs that it waits
for. -/
theorem Machine.orderly_run (m : Machine) (console : Console) (prompt : Bool)
    (polls : List (EventLoop.Poll (Reader Machine) Channel)) :
    (Reader.run { shell := { host := m, console }, prompt } polls).2.journal.Orderly :=
  Reader.orderly_run m console prompt polls
    ((Reader.recorded_run m console prompt polls).fatalWaits fun _ _ => fatal_await)

end JobControl

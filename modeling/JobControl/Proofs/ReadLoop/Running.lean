import JobControl.Proofs.ReadLoop.Foreground
import JobControl.Proofs.Shell.Running

/-!
# Every process that the read loop starts is a job

* `Reader.keeps_balanced` : as long as the loop goes on, its table tracks the running processes;
* `Reader.keeps_grows` : the journal explains what the loop complains of;
* `Reader.no_process_lost` : every process is registered at once, and every child that changes is a
  job; so no complaint is that a child is none, or that a job is refused while there is room for it.
-/

set_option autoImplicit false

namespace JobControl

namespace Shell
variable {σ : Type} [Host σ] {s : Shell σ}

theorem grows_step (s : Shell σ) (op : Op) : s.Grows (s.step op).2 := by
  have htold := s.told_perform op
  unfold step
  rcases hout : s.perform op with ⟨e | flow, s'⟩ <;> rw [hout] at htold
  · dsimp only
    split
    · exact htold.grows
    · next hne => exact htold.grows.trans (grows_complain ((htold.error e rfl).resolve_left hne))
  · cases flow <;> exact htold.grows

end Shell

namespace Reader
variable {σ : Type} [Host σ]

/-- As long as it goes on, a loop whose waits fail only with fatal errors, on a host that is fair, is
in balance between operations. -/
theorem keeps_balanced : Shell.Keeps σ
    (fun s => s.past.Settled ∧ (s.journal.FatalWaits → s.journal.Fair →
      s.jobs.foreground? = none ∧ s.past.Balanced))
    (fun s => s.past.Settled ∧
      (s.journal.FatalWaits → s.journal.Fair → s.journal.Accounted)) := by
  refine .ofPast
    (K := fun p => p.Settled ∧ (p.journal.FatalWaits → p.journal.Fair →
      p.jobs.foreground? = none ∧ p.Balanced))
    (J := fun p => p.Settled ∧ (p.journal.FatalWaits → p.journal.Fair → p.journal.Accounted))
    (fun _ h => ⟨h.1, fun hw hf => (h.2 hw hf).2.accounted⟩) fun s op h => ?_
  obtain ⟨hpath, hsettled⟩ := s.reach_perform op h.1
  have hsuffix : s.journal <:+ (s.perform op).2.journal := Past.journal_suffix hpath
  have books (hw : (s.perform op).2.journal.FatalWaits) (hf : (s.perform op).2.journal.Fair) :
      s.jobs.foreground? = none ∧ Shell.Books (s.perform op) := by
    obtain ⟨hcalm, hbalanced⟩ := h.2 (hw.suffix hsuffix) (hf.suffix hsuffix)
    exact ⟨hcalm, Shell.books_perform hbalanced hcalm hf⟩
  refine ⟨⟨hsettled, fun hw hf => (books hw hf).2.accounted⟩,
    fun hgo => ⟨hsettled, fun hw hf => ⟨?_, (books hw hf).2.balanced hgo⟩⟩⟩
  exact Shell.calm_perform (books hw hf).1 hgo hw

theorem keeps_grows (s₀ : Shell σ) : Shell.Keeps σ (fun s => s₀.Grows s) (fun s => s₀.Grows s) where
  weaken _ h := h
  step s op h := by
    have hgrows := h.trans (s.grows_step op)
    exact ⟨hgrows, fun _ => hgrows⟩
  say s n h := h.trans (s.grows_say n)
  host _ _ h := ⟨h.journal, h.complaints⟩

variable [Input σ]

/-- **No process is lost.** In a loop whose waits fail only with fatal errors, and whose host starts
fresh processes and has news only of those that run: every process that is started is entered in
the table next, and every job that is told to go on is moved on next; when the shell looks for news
or evaluates a line, the jobs of the table are exactly the processes that run; a child that changes is
a job; and the shell does not complain that a child is none, or refuse a job but for want of room, and
the only other failures it complains of are those of fetching news. -/
theorem no_process_lost (host : σ) (console : Console) (prompt : Bool)
    (polls : List (EventLoop.Poll (Reader σ) Channel)) :
    let s := (run { shell := { host, console }, prompt } polls).2
    s.journal.FatalWaits → s.journal.SpawnsFresh → s.journal.Faithful →
      (∀ (newer : Journal) (e : Journal.Entry) (earlier : Journal),
        s.journal = newer ++ e :: earlier →
        (∀ request pid, e.deed = .spawn request (.ok pid) → ∃ i r, s.past.Includes r ∧
          ⟨i, pid, request.state, request.line⟩ ∈ r.jobs.jobs ∧ r.journal =
            ⟨.register ⟨i, pid, request.state, request.line⟩, e.jobs, e.deferrals⟩ :: e :: earlier) ∧
        (∀ pid sig, e.deed = .signal .resume pid sig (.ok ()) → ∃ state r, s.past.Includes r ∧
          r.journal = ⟨.resume pid state, e.jobs, e.deferrals⟩ :: e :: earlier) ∧
        ((e.deed = .drain ∨ ∃ line, e.deed = .evaluate line) →
          ∀ pid, pid ∈ earlier.running ↔ ∃ k ∈ e.jobs.jobs, k.pid = pid) ∧
        ∀ pid change, e.deed = .apply (.child pid change) → ∃ k ∈ e.jobs.jobs, k.pid = pid) ∧
      ∃ new, s.console.err.written = new ++ console.err.written ∧
        (∀ pid, .strayChild pid ∉ new) ∧ (∀ reason, .refused reason ∈ new → reason = .full) ∧
        ∀ err, .failed err ∈ new →
          ∃ e ∈ s.journal, ∃ waiting, e.deed = .fetch waiting (.error err) := by
  intro s hwaits hfresh hfaithful
  have hrecorded : s.past.Recorded σ := recorded_run host console prompt polls
  obtain ⟨hsettled, hbooks⟩ :=
    holds_run (l := { shell := { host, console }, prompt }) keeps_balanced
      ⟨Past.settled_nil _ _, fun _ _ => ⟨rfl, trivial, .empty⟩⟩ polls
  have haccounted : s.journal.Accounted := hbooks hwaits ⟨hfresh, hfaithful⟩
  have hgrows : Shell.Grows { host, console } s :=
    holds_run (l := { shell := { host, console }, prompt }) (keeps_grows { host, console })
      (.refl _) polls
  refine ⟨fun newer e earlier hj => ⟨fun request pid hdeed => ?_, fun pid sig hdeed => ?_,
    fun hdeed => ?_, fun pid change hdeed => ?_⟩, ?_⟩
  · exact hrecorded.registers hsettled hfresh haccounted hj hdeed
  · exact hrecorded.resumes hsettled haccounted hj hdeed
  · have hentry := haccounted.entry hj
    rcases hdeed with hdeed | ⟨line, hdeed⟩
    · rw [Journal.Entry.Accounted, hdeed] at hentry
      exact hentry.mem_iff
    · rw [Journal.Entry.Accounted, hdeed] at hentry
      exact hentry.mem_iff
  · have hentry := haccounted.entry hj
    rw [Journal.Entry.Accounted, hdeed] at hentry
    obtain ⟨k, hfind⟩ := Option.ne_none_iff_exists'.1 hentry
    exact Table.found_of_findByPid? hfind
  · obtain ⟨new, hnew, hexplains⟩ := hgrows.complaints
    refine ⟨new, hnew, fun pid hm => ?_, fun reason hm => ?_, fun err hm => ?_⟩
    · exact haccounted.not_explains_strayChild pid (hexplains _ hm)
    · exact haccounted.full_of_explains (hexplains _ hm)
    · exact haccounted.fetch_of_explains (hexplains _ hm)

/-- A job is stopped by a key, another one starts and ends, and the first goes on and ends too. -/
theorem no_process_lost_stop_fg_exit :
    let host : Fed Scripted :=
      { host := { events := [.ok [.keyboard .tstp, .child ⟨1000⟩ (.stopped .tstp)],
                    .ok [.child ⟨1000⟩ (.exited 0)]]
                  pending := [.ok [], .ok [], .ok [.child ⟨1001⟩ (.exited 0)]] }
        reads := [.ok [97, 10, 98, 32, 38, 10, 102, 103, 32, 37, 49, 10]] }
    let s := (run { shell := { host } } (host.polls false)).2
    (s.journal.FatalWaits ∧ s.journal.SpawnsFresh ∧ s.journal.Faithful) ∧
      (s.journal.spawned.map (·.1.line) = ["a", "b &"] ∧
        s.journal.signalled = [(⟨1000⟩, .tstp), (⟨1000⟩, .cont)] ∧ s.journal.running = []) ∧
      (∀ (newer : Journal) (e : Journal.Entry) (earlier : Journal),
        s.journal = newer ++ e :: earlier → ∀ pid change, e.deed = .apply (.child pid change) →
          ∃ k ∈ e.jobs.jobs, k.pid = pid) ∧
      ∀ pid, .strayChild pid ∉ s.console.err.written := by
  intro host s
  have hwaits : s.journal.FatalWaits := by decide +kernel
  have hfresh : s.journal.SpawnsFresh := by decide +kernel
  have hfaithful : s.journal.Faithful := by decide +kernel
  obtain ⟨hentries, new, hnew, hstray, -⟩ := no_process_lost host {} true _ hwaits hfresh hfaithful
  refine ⟨⟨hwaits, hfresh, hfaithful⟩, ?_, fun newer e earlier hj => ?_, fun pid => ?_⟩
  · exact ⟨by decide +kernel, by decide +kernel, by decide +kernel⟩
  · exact (hentries newer e earlier hj).2.2.2
  · rw [hnew, List.append_nil]
    exact hstray pid

end Reader
end JobControl

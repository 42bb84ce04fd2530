import JobControl.Host.Scripted
import JobControl.Proofs.Shell.Run
import JobControl.Proofs.Table.Distinct
import JobControl.Proofs.Table.Ids

/-!
# The life of a job

* `Deed.ends`, `Deed.movesTo?` : the deeds that end a job, and that move it to another state;
* `Journal.Live` : a job was registered and has not ended since; its state is that of the last deed
  that moved it;
* `Journal.SpawnsFresh` : every process that was started is valid and belonged to no live job;
* `Past.Move.mem_jobs` : what a move makes of the live jobs;
* `lifecycle_after` : the table of a shell holds exactly the jobs that its journal says are live.
-/

set_option autoImplicit false

namespace JobControl

namespace Deed

def ends (pid : Pid) : Deed → Bool
  | .apply (.child p (.exited _)) => p == pid
  | .apply (.child p (.signaled _)) => p == pid
  | _ => false

def movesTo? (pid : Pid) : Deed → Option Job.State
  | .apply (.child p (.stopped _)) => if p = pid then some .stopped else none
  | .resume p state => if p = pid then some state else none
  | _ => none

def started? : Deed → Option Pid
  | .spawn _ (.ok pid) => some pid
  | _ => none

def leaves (d : Deed) (k : Job) : Job := { k with state := (d.movesTo? k.pid).getD k.state }

end Deed

namespace Journal

/-- The job was registered, no later deed has ended it, and its state is that of the last deed that
moved it, or else the one it was registered in. -/
def Live (j : Journal) (k : Job) : Prop :=
  ∃ newer e earlier k₀, j = newer ++ e :: earlier ∧ e.deed = .register k₀ ∧
    (∀ e' ∈ newer, e'.deed.ends k₀.pid = false) ∧
    k = { k₀ with state := (newer.findSome? fun e' => e'.deed.movesTo? k₀.pid).getD k₀.state }

/-- Every process that was started is valid and was that of no live job. -/
def SpawnsFresh (j : Journal) : Prop :=
  ∀ e ∈ j, ∀ pid ∈ e.deed.started?, pid.Valid ∧ ∀ k ∈ e.jobs.jobs, k.pid ≠ pid

instance (j : Journal) : Decidable j.SpawnsFresh :=
  inferInstanceAs (Decidable (∀ e ∈ j, ∀ pid ∈ e.deed.started?,
    pid.Valid ∧ ∀ k ∈ e.jobs.jobs, k.pid ≠ pid))

theorem SpawnsFresh.earlier {j earlier : Journal} {e : Entry} (h : j.SpawnsFresh)
    (hj : j = e :: earlier) : earlier.SpawnsFresh := by
  subst hj
  exact fun e' he' => h e' (List.mem_cons_of_mem e he')

theorem SpawnsFresh.includes {p q : Past} (h : p.journal.SpawnsFresh) (hq : p.Includes q) :
    q.journal.SpawnsFresh := by
  cases hq with
  | now => exact h
  | before hj =>
    intro e he
    refine h e ?_
    rw [hj]
    exact List.mem_append_right _ (List.mem_cons_of_mem _ he)

theorem live_cons {e : Entry} {j : Journal} {k : Job} :
    Live (e :: j) k ↔
      e.deed = .register k ∨
        ∃ k', j.Live k' ∧ e.deed.ends k'.pid = false ∧ k = e.deed.leaves k' := by
  constructor
  · rintro ⟨newer, e₀, earlier, k₀, hj, hreg, hends, rfl⟩
    cases newer with
    | nil =>
      obtain ⟨rfl, rfl⟩ := List.cons.inj hj
      exact .inl hreg
    | cons e' newer =>
      obtain ⟨rfl, rfl⟩ := List.cons.inj hj
      refine .inr ⟨_, ⟨newer, e₀, earlier, k₀, rfl, hreg,
        fun e' he' => hends e' (List.mem_cons_of_mem _ he'), rfl⟩, hends e List.mem_cons_self, ?_⟩
      cases h : e.deed.movesTo? k₀.pid <;> simp [Deed.leaves, h]
  · rintro (hreg | ⟨k', ⟨newer, e₀, earlier, k₀, rfl, hreg, hends, rfl⟩, hend, rfl⟩)
    · exact ⟨[], e, j, k, rfl, hreg, by simp, by simp⟩
    · refine ⟨e :: newer, e₀, earlier, k₀, rfl, hreg, fun e' he' => ?_, ?_⟩
      · rcases List.mem_cons.1 he' with rfl | he'
        · exact hend
        · exact hends e' he'
      · cases h : e.deed.movesTo? k₀.pid <;> simp [Deed.leaves, h]

end Journal

/-! ## One deed -/

theorem Deed.movesTo?_eq_some {d : Deed} {pid : Pid} {state : Job.State}
    (h : d.movesTo? pid = some state) : state = .stopped ∨ d = .resume pid state := by
  unfold movesTo? at h
  split at h
  · split at h
    · exact .inl (Option.some.inj h).symm
    · cases h
  · split at h
    · next he =>
      obtain rfl := Option.some.inj h
      exact .inr (by rw [he])
    · cases h
  · cases h

/-- The job is one of the table that the deed does not end, as the deed leaves it. -/
def Deed.Spares (d : Deed) (t : Table) (k : Job) : Prop :=
  ∃ k' ∈ t.jobs, d.ends k'.pid = false ∧ k = d.leaves k'

/-- A deed that neither ends nor moves a job of the table spares them all. -/
theorem Deed.spares_of_idle {d : Deed} {t : Table} {k : Job}
    (ends : ∀ k' ∈ t.jobs, d.ends k'.pid = false)
    (moves : ∀ k' ∈ t.jobs, d.movesTo? k'.pid = none) : d.Spares t k ↔ k ∈ t.jobs := by
  have hleaves : ∀ k' ∈ t.jobs, d.leaves k' = k' := by
    intro k' hk'
    simp [leaves, moves k' hk']
  constructor
  · rintro ⟨k', hk', -, rfl⟩
    rw [hleaves k' hk']
    exact hk'
  · intro hk
    exact ⟨k, hk, ends k hk, (hleaves k hk).symm⟩

/-- A deed that ends the job of a process spares the others. -/
theorem Deed.spares_of_end {d : Deed} {t : Table} {k : Job} {pid : Pid}
    (ends : ∀ p, d.ends p = (pid == p)) (moves : ∀ p, d.movesTo? p = none) :
    d.Spares t k ↔ k ∈ t.jobs ∧ k.pid ≠ pid := by
  have hleaves (k' : Job) : d.leaves k' = k' := by simp [leaves, moves]
  have hends (k' : Job) : d.ends k'.pid = false ↔ k'.pid ≠ pid := by
    rw [ends, beq_eq_false_iff_ne]
    exact ne_comm
  constructor
  · rintro ⟨k', hk', hend, rfl⟩
    rw [hleaves]
    exact ⟨hk', (hends k').1 hend⟩
  · rintro ⟨hk, hne⟩
    exact ⟨k, hk, (hends k).2 hne, (hleaves k).symm⟩

theorem Table.mem_jobs_applied {t : Table} (h : t.Distinct) (valid : ∀ k ∈ t.jobs, k.pid.Valid)
    (n : Notification) {k : Job} : k ∈ (t.applied n).jobs ↔ (Deed.apply n).Spares t k := by
  cases n with
  | keyboard sig => exact (Deed.spares_of_idle (fun _ _ => rfl) fun _ _ => rfl).symm
  | quit => exact (Deed.spares_of_idle (fun _ _ => rfl) fun _ _ => rfl).symm
  | child pid change =>
    cases hfind : t.findByPid? pid with
    | none =>
      have hne : ∀ k' ∈ t.jobs, pid ≠ k'.pid := by
        rintro k' hk' rfl
        exact (findByPid?_eq_none (valid k' hk')).1 hfind k' hk' rfl
      rw [applied_of_none hfind, Deed.spares_of_idle]
      · intro k' hk'
        cases change <;> simp [Deed.ends, hne k' hk']
      · intro k' hk'
        cases change <;> simp [Deed.movesTo?, hne k' hk']
    | some job =>
      rw [applied_of_some hfind]
      cases change with
      | exited code =>
        rw [mem_jobs_removed h hfind]
        exact (Deed.spares_of_end (fun _ => rfl) fun _ => rfl).symm
      | signaled sig =>
        rw [mem_jobs_removed h hfind]
        exact (Deed.spares_of_end (fun _ => rfl) fun _ => rfl).symm
      | stopped sig =>
        rw [mem_jobs_moved h (found_of_findByPid? hfind)]
        refine exists_congr fun k' => and_congr_right fun _ => ?_
        by_cases he : pid = k'.pid
        · simp [Deed.ends, Deed.leaves, Deed.movesTo?, he]
        · simp [Deed.ends, Deed.leaves, Deed.movesTo?, he, Ne.symm he]

theorem Table.Distinct.applied {t : Table} (h : t.Distinct) (n : Notification) :
    (t.applied n).Distinct := by
  rcases t.applied_cases n with he | ⟨pid, job, hfind, he | he⟩ <;> rw [he]
  · exact h
  · exact h.removed hfind
  · exact h.moved (found_of_findByPid? hfind) _

namespace Past
variable {σ : Type} [Host σ] {p q : Past}

/-- The live jobs after a move: the one it registers, and those before it that it does not end. -/
theorem Move.mem_jobs {e : Journal.Entry} (h : Move σ p q)
    (hj : q.journal = e :: p.journal) (distinct : p.jobs.Distinct)
    (valid : ∀ k ∈ p.jobs.jobs, k.pid.Valid) {k : Job} :
    k ∈ q.jobs.jobs ↔ e.deed = .register k ∨ e.deed.Spares p.jobs k := by
  have hidle (d : Deed) (register : ∀ k, d ≠ .register k) (ends : ∀ pid, d.ends pid = false)
      (moves : ∀ pid, d.movesTo? pid = none) :
      k ∈ p.jobs.jobs ↔ d = .register k ∨ d.Spares p.jobs k := by
    rw [Deed.spares_of_idle (fun k' _ => ends k'.pid) fun k' _ => moves k'.pid]
    exact ⟨.inr, fun hk => hk.resolve_left (register k)⟩
  cases h with
  | register just hadd =>
    obtain ⟨rfl, -⟩ := List.cons.inj hj
    obtain ⟨admits, -, rfl⟩ := Table.add_eq_ok_iff.1 hadd
    rw [record, Table.mem_jobs_placed admits.free, Deed.spares_of_idle (fun _ _ => rfl) fun _ _ => rfl]
    exact or_congr_left ⟨fun hk => hk ▸ rfl, fun hk => (Deed.register.inj hk).symm⟩
  | apply n =>
    obtain ⟨rfl, -⟩ := List.cons.inj hj
    rw [record, Table.mem_jobs_applied distinct valid]
    exact ⟨.inr, fun hk => hk.resolve_left nofun⟩
  | @resume line earlier reference state job jobs just line_resumes found stopped hset =>
    obtain ⟨rfl, -⟩ := List.cons.inj hj
    obtain ⟨moves, rfl⟩ := Table.setState_eq_ok_iff.1 hset
    rw [record, Table.mem_jobs_moved distinct moves.found]
    refine Iff.trans ?_ (or_iff_right nofun).symm
    refine exists_congr fun k' => and_congr_right fun _ => ?_
    by_cases he : job.pid = k'.pid
    · simp [Deed.ends, Deed.leaves, Deed.movesTo?, he]
    · simp [Deed.ends, Deed.leaves, Deed.movesTo?, he, Ne.symm he]
  | _ =>
    obtain ⟨rfl, -⟩ := List.cons.inj hj
    exact hidle _ nofun (fun _ => rfl) fun _ => rfl

/-- A process is entered in the table, and a job moved on, exactly when that is due. -/
theorem Step.owed_iff {e : Journal.Entry} (h : Step σ p q)
    (hj : q.journal = e :: p.journal) :
    (∀ k, e.deed = .register k ↔ p.Owes (.register k)) ∧
      ∀ pid state, e.deed = .resume pid state ↔ p.Owes (.resume pid state) := by
  have hprompt {d : Deed} (hd : p.Owes d) : e.deed = d := by
    obtain ⟨rfl, -⟩ := List.cons.inj (hj.symm.trans (h.prompt d hd))
    rfl
  refine ⟨fun k => ⟨fun he => ?_, hprompt⟩, fun pid state => ⟨fun he => ?_, hprompt⟩⟩
  · cases h.move with
    | register just hadd =>
      obtain ⟨rfl, -⟩ := List.cons.inj hj
      cases he
      exact .register just hadd
    | _ =>
      obtain ⟨rfl, -⟩ := List.cons.inj hj
      cases he
  · cases h.move with
    | resume just resumes found stopped hset =>
      obtain ⟨rfl, -⟩ := List.cons.inj hj
      cases he
      exact .resume just resumes found stopped hset
    | _ =>
      obtain ⟨rfl, -⟩ := List.cons.inj hj
      cases he

/-- The process of a job that is due to be registered is that of no live job. -/
theorem Owes.fresh {p : Past} {k : Job} (h : p.Owes (.register k))
    (fresh : p.journal.SpawnsFresh) : ∀ k' ∈ p.jobs.jobs, k'.pid ≠ k.pid := by
  cases h with
  | register just _ => exact (fresh _ (just ▸ List.mem_cons_self) _ rfl).2

/-- A job that is due to go on is stopped. -/
theorem Owes.stopped {p : Past} {pid : Pid} {state : Job.State} (h : p.Owes (.resume pid state)) :
    ∃ k ∈ p.jobs.jobs, k.pid = pid ∧ k.state = .stopped := by
  cases h with
  | resume _ _ found stopped _ => exact ⟨_, Table.mem_jobs_of_find? found, rfl, stopped⟩

theorem Step.distinct (h : Step σ p q) (distinct : p.jobs.Distinct)
    (fresh : p.journal.SpawnsFresh) : q.jobs.Distinct := by
  cases h.move with
  | register just hadd =>
    have hfresh := (Owes.register just hadd).fresh fresh
    obtain ⟨admits, -, rfl⟩ := Table.add_eq_ok_iff.1 hadd
    exact distinct.placed admits.free hfresh
  | apply n => exact distinct.applied n
  | resume _ _ _ _ hset =>
    obtain ⟨moves, rfl⟩ := Table.setState_eq_ok_iff.1 hset
    exact distinct.moved moves.found _
  | _ => exact distinct

/-- A job keeps its id and its line, and it goes from the foreground to the background, or back,
only by way of being stopped. -/
theorem Step.change (h : Step σ p q) (distinct : p.jobs.Distinct)
    (valid : ∀ k ∈ p.jobs.jobs, k.pid.Valid) (fresh : p.journal.SpawnsFresh) {k k' : Job}
    (hk : k ∈ p.jobs.jobs) (hk' : k' ∈ q.jobs.jobs) (hpid : k'.pid = k.pid) :
    k'.id = k.id ∧ k'.line = k.line ∧
      (k'.state = k.state ∨ k'.state = .stopped ∨ k.state = .stopped) := by
  obtain ⟨deed, hj⟩ := h.move.journal
  rcases (h.move.mem_jobs hj distinct valid).1 hk' with hreg | ⟨k'', hk'', -, rfl⟩
  · have howes := ((h.owed_iff hj).1 k').1 hreg
    exact absurd hpid.symm (howes.fresh fresh k hk)
  · obtain rfl : k'' = k := distinct.eq hk'' hk hpid
    refine ⟨rfl, rfl, ?_⟩
    cases hmoves : deed.movesTo? k''.pid with
    | none => exact .inl (by simp [Deed.leaves, hmoves])
    | some state =>
      have hstate : (deed.leaves k'').state = state := by simp [Deed.leaves, hmoves]
      rw [hstate]
      rcases Deed.movesTo?_eq_some hmoves with rfl | hresume
      · exact .inr (.inl rfl)
      · obtain ⟨job, hjob, he, hstopped⟩ := (((h.owed_iff hj).2 _ _).1 hresume).stopped
        obtain rfl : job = k'' := distinct.eq hjob hk'' he
        exact .inr (.inr hstopped)

/-! ## Deeds one after another -/

theorem Recorded.sound (h : Recorded σ p) : p.jobs.Sound := by
  induction h with
  | refl => exact .empty (by decide)
  | tail _ hstep ih => exact ih.update hstep.move.update

theorem Recorded.capacity (h : Recorded σ p) : p.jobs.capacity = Table.maxJobs := by
  induction h with
  | refl => exact Table.capacity_empty _
  | tail _ hstep ih => exact hstep.move.update.capacity.trans ih

theorem Recorded.distinct (h : Recorded σ p) (fresh : p.journal.SpawnsFresh) :
    p.jobs.Distinct := by
  induction h with
  | refl => exact .empty _
  | tail _ hstep ih =>
    obtain ⟨deed, hj⟩ := hstep.move.journal
    have hfresh := fresh.earlier hj
    exact hstep.distinct (ih hfresh) hfresh

/-- The table of a recorded past holds exactly the jobs that are live by its journal. -/
theorem Recorded.mem_jobs (h : Recorded σ p) (fresh : p.journal.SpawnsFresh) (k : Job) :
    k ∈ p.jobs.jobs ↔ p.journal.Live k := by
  induction h generalizing k with
  | refl => simp [Table.standard, Journal.Live]
  | tail hpast hstep ih =>
    obtain ⟨deed, hj⟩ := hstep.move.journal
    have hfresh := fresh.earlier hj
    have hpast : Recorded σ _ := hpast
    rw [hstep.move.mem_jobs hj (hpast.distinct hfresh) hpast.sound.valid, hj, Journal.live_cons]
    exact or_congr_right (exists_congr fun k' => by rw [ih hfresh k'])

end Past

/-! ## The life of a job -/

/-- A shell's table holds exactly the jobs that are live by its journal, each once, at every moment
of a run; they are registered and moved on when that is due, and a job changes only its state,
between the foreground and the background only by way of being stopped. -/
theorem Shell.lifecycle_after {σ : Type} [Host σ] (host : σ) (console : Console)
    (ops : List Shell.Op) (fresh : (Shell.after { host, console } ops).journal.SpawnsFresh) :
    (Shell.after { host, console } ops).past.Settled ∧
      ∀ q, (Shell.after { host, console } ops).past.Includes q →
        (∀ k, k ∈ q.jobs.jobs ↔ q.journal.Live k) ∧ (q.jobs.jobs.map Job.pid).Nodup ∧
        ∀ e earlier, q.journal = e :: earlier →
          (∀ k, e.deed = .register k ↔ (e.past earlier).Owes (.register k)) ∧
          (∀ pid state, e.deed = .resume pid state ↔
            (e.past earlier).Owes (.resume pid state)) ∧
          ∀ k ∈ e.jobs.jobs, ∀ k' ∈ q.jobs.jobs, k'.pid = k.pid →
            k'.id = k.id ∧ k'.line = k.line ∧
              (k'.state = k.state ∨ k'.state = .stopped ∨ k.state = .stopped) := by
  obtain ⟨hrecorded, hsettled⟩ := Shell.recorded_after host console ops
  refine ⟨hsettled, fun q hq => ?_⟩
  have hq' := hrecorded.includes hq
  have hfresh := fresh.includes hq
  refine ⟨hq'.mem_jobs hfresh, hq'.distinct hfresh, fun e earlier hj => ?_⟩
  obtain ⟨hbefore, hstep⟩ := hq'.step hj
  have hfresh' : Journal.SpawnsFresh earlier := hfresh.earlier hj
  obtain ⟨hregister, hresume⟩ := hstep.owed_iff hj
  exact ⟨hregister, hresume, fun k hk k' hk' hpid =>
    hstep.change (hbefore.distinct hfresh') hbefore.sound.valid hfresh' hk hk' hpid⟩

/-- A job is stopped by a key and goes on in the background, another one ends. -/
theorem Shell.lifecycle_stop_bg_exit :
    let host : Scripted :=
      { events := [.ok [.keyboard .tstp, .child ⟨1000⟩ (.stopped .tstp)]]
        pending := [.ok [.child ⟨1001⟩ (.exited 0)]] }
    let s := Shell.after { host } [.eval "a", .eval "bg %1", .eval "b &", .drain]
    s.journal.SpawnsFresh ∧ ∀ k, s.journal.Live k ↔ k = ⟨1, ⟨1000⟩, .background, "a"⟩ := by
  intro host s
  have hfresh : s.journal.SpawnsFresh := by decide +kernel
  have hjobs : s.past.jobs.jobs = [⟨1, ⟨1000⟩, .background, "a"⟩] := by decide +kernel
  refine ⟨hfresh, fun k => ?_⟩
  have hlive : k ∈ s.past.jobs.jobs ↔ s.journal.Live k :=
    ((Shell.lifecycle_after host {} _ hfresh).2 s.past .now).1 k
  rw [← hlive, hjobs, List.mem_singleton]

end JobControl

import JobControl.Proofs.Table.Distinct

/-!
# Table lemmas: the foreground

* `OneForeground` : at most one job is in the foreground; kept by every update of a table with
  distinct processes (`OneForeground.update`);
* `countP_moved` : how many jobs are in the foreground after a move;
* `Shadowed` : the job in the foreground is not the first one of its process; `moved_iff` : moving
  the process of such a job leads to two in the foreground;
* `foreground?_placed`, `foreground?_removed`, `foreground?_moved` : updates that put no job in the
  foreground;
* `HeldBy` : the jobs in the foreground are all of one process, as in every reachable table
  (`Reachable.heldBy`).
-/

set_option autoImplicit false

namespace JobControl.Table
open List

def OneForeground (t : Table) : Prop := t.jobs.countP Job.isForeground ≤ 1

variable {t t' : Table}

/-! ## At most one -/

theorem countP_eq_zero_iff :
    t.jobs.countP Job.isForeground = 0 ↔ t.foreground? = none := by
  rw [List.countP_eq_zero, foreground?_eq_none]
  refine forall₂_congr fun k _ => ?_
  simp [Job.isForeground]

theorem OneForeground.empty (c : Nat) : (empty c).OneForeground := by
  simp [OneForeground]

theorem OneForeground.placed (h : t.OneForeground) {j : Job} (admits : t.Admits j.pid j.state) :
    (t.placed j).OneForeground := by
  rw [OneForeground, (jobs_placed admits.free j).countP_eq, List.countP_cons]
  by_cases hj : j.state = .foreground
  · have hz := countP_eq_zero_iff.2 (admits.foreground hj)
    split <;> omega
  · rw [if_neg (by simpa [Job.isForeground] using hj)]
    exact h

theorem OneForeground.removed (h : t.OneForeground) {pid : Pid} {j : Job}
    (found : t.findByPid? pid = some j) : (t.removed pid).OneForeground := by
  obtain ⟨before, after, hjobs, -, hrest⟩ := jobs_removed found
  rw [OneForeground, hjobs] at h
  rw [OneForeground, hrest]
  simp only [List.countP_append, List.countP_cons] at h ⊢
  omega

/-- A move changes the number of jobs in the foreground by that of the job it moves. -/
theorem countP_moved {pid : Pid} {k : Job} (first : t.jobs.find? (·.pid == pid) = some k)
    (state : Job.State) :
    (t.moved pid state).jobs.countP Job.isForeground + (if k.state = .foreground then 1 else 0) =
      t.jobs.countP Job.isForeground + (if state = .foreground then 1 else 0) := by
  have hfound : ∃ k ∈ t.jobs, k.pid = pid :=
    ⟨k, List.mem_of_find?_eq_some first, by simpa using List.find?_some first⟩
  obtain ⟨before, j, after, hjobs, hj, hbefore, hmoved⟩ := jobs_moved hfound state
  obtain rfl : j = k := by
    rw [hjobs, List.find?_append, List.find?_eq_none.2 (by simpa using hbefore)] at first
    simpa [hj] using first
  rw [hmoved, hjobs]
  simp only [List.countP_append, List.countP_cons, Job.isForeground, beq_iff_eq]
  omega

/-- The job of a process that comes first. -/
theorem exists_first {pid : Pid} (found : ∃ k ∈ t.jobs, k.pid = pid) :
    ∃ k, t.jobs.find? (·.pid == pid) = some k ∧ k ∈ t.jobs ∧ k.pid = pid := by
  cases hfind : t.jobs.find? (·.pid == pid) with
  | none =>
    obtain ⟨k, hk, hpid⟩ := found
    exact absurd hpid (by simpa using List.find?_eq_none.1 hfind k hk)
  | some k => exact ⟨k, rfl, List.mem_of_find?_eq_some hfind, by simpa using List.find?_some hfind⟩

/-- The job in the foreground. -/
theorem foreground?_eq_some {owner : Pid} (h : t.foreground? = some owner) :
    ∃ k ∈ t.jobs, k.pid = owner ∧ k.state = .foreground := by
  obtain ⟨k, hfind, hk⟩ := Option.map_eq_some_iff.1 h
  have hstate : k.isForeground = true := List.find?_some hfind
  exact ⟨k, List.mem_of_find?_eq_some hfind, hk, by simpa [Job.isForeground] using hstate⟩

/-- A move to another state adds no job to the foreground. -/
theorem OneForeground.moved_away (h : t.OneForeground) {pid : Pid}
    (found : ∃ k ∈ t.jobs, k.pid = pid) {state : Job.State} (away : state ≠ .foreground) :
    (t.moved pid state).OneForeground := by
  obtain ⟨k, first, -, -⟩ := exists_first found
  have hcount := countP_moved first state
  rw [if_neg away] at hcount
  unfold OneForeground at h ⊢
  omega

/-- The job in the foreground is of process `pid`, but the first job of that process is another. -/
def Shadowed (t : Table) (pid : Pid) : Prop :=
  t.foreground? = some pid ∧ ∃ k ∈ t.jobs.find? (·.pid == pid), k.state ≠ .foreground

instance (t : Table) (pid : Pid) : Decidable (t.Shadowed pid) :=
  inferInstanceAs (Decidable (_ ∧ _))

/-- A move to the foreground adds a second job there just if the process has one that comes before
the one in the foreground. -/
theorem OneForeground.moved_iff (h : t.OneForeground) {pid : Pid}
    (moves : t.Moves pid .foreground) :
    (t.moved pid .foreground).OneForeground ↔ ¬ t.Shadowed pid := by
  obtain ⟨k, first, hk, hpid⟩ := exists_first moves.found
  have hcount := countP_moved first .foreground
  rw [if_pos rfl] at hcount
  unfold OneForeground at h ⊢
  constructor
  · rintro hone ⟨hfg, k', hk', hstate⟩
    obtain rfl : k' = k := Option.some.inj (hk'.symm.trans first)
    rw [if_neg hstate] at hcount
    have hzero : t.jobs.countP Job.isForeground = 0 := by omega
    rw [countP_eq_zero_iff.1 hzero] at hfg
    cases hfg
  · intro hclear
    by_cases hstate : k.state = .foreground
    · rw [if_pos hstate] at hcount
      omega
    · have hnone : t.foreground? = none := by
        cases hf : t.foreground? with
        | none => rfl
        | some owner =>
          obtain rfl := moves.foreground rfl owner hf
          exact absurd ⟨hf, k, first, hstate⟩ hclear
      have hzero := countP_eq_zero_iff.2 hnone
      split at hcount <;> omega

/-- Where processes are distinct, none is shadowed. -/
theorem Distinct.not_shadowed (h : t.Distinct) (pid : Pid) : ¬ t.Shadowed pid := by
  rintro ⟨hfg, k, hk, hstate⟩
  obtain ⟨k', hk', hpid, hfg'⟩ := foreground?_eq_some hfg
  have hmem : k ∈ t.jobs := List.mem_of_find?_eq_some hk
  have hkpid : k.pid = pid := by simpa using List.find?_some hk
  obtain rfl : k = k' := h.eq hmem hk' (hkpid.trans hpid.symm)
  exact hstate hfg'

theorem OneForeground.moved (h : t.OneForeground) (distinct : t.Distinct) {pid : Pid}
    {state : Job.State} (moves : t.Moves pid state) : (t.moved pid state).OneForeground := by
  by_cases hs : state = .foreground
  · subst hs
    exact (h.moved_iff moves).2 (distinct.not_shadowed pid)
  · exact h.moved_away moves.found hs

theorem OneForeground.update (h : t.OneForeground) (distinct : t.Distinct) (hu : t.Update t') :
    t'.OneForeground := by
  cases hu with
  | none => exact h
  | add admits _ => exact h.placed admits
  | remove found => exact h.removed found
  | move moves => exact h.moved distinct moves
  | clear => exact .empty _

/-! ## None -/

theorem foreground?_placed (h : t.foreground? = none) (free : t.isFull = false) {j : Job}
    (hj : j.state ≠ .foreground) : (t.placed j).foreground? = none := by
  rw [foreground?_eq_none] at h ⊢
  intro k hk
  rcases (mem_jobs_placed free).1 hk with rfl | hk
  · exact hj
  · exact h k hk

theorem foreground?_removed (h : t.foreground? = none) {pid : Pid} {j : Job}
    (found : t.findByPid? pid = some j) : (t.removed pid).foreground? = none := by
  obtain ⟨before, after, hjobs, -, hrest⟩ := jobs_removed found
  rw [foreground?_eq_none] at h ⊢
  intro k hk
  rw [hrest, List.mem_append] at hk
  refine h k ?_
  rw [hjobs, List.mem_append, List.mem_cons]
  tauto

theorem foreground?_moved (h : t.foreground? = none) {pid : Pid}
    (found : ∃ k ∈ t.jobs, k.pid = pid) {state : Job.State} (hs : state ≠ .foreground) :
    (t.moved pid state).foreground? = none := by
  obtain ⟨before, j, after, hjobs, -, -, hmoved⟩ := jobs_moved found state
  rw [foreground?_eq_none] at h ⊢
  intro k hk
  rw [hmoved, List.mem_append, List.mem_cons] at hk
  rcases hk with hk | rfl | hk
  · exact h k (by simp [hjobs, hk])
  · exact hs
  · exact h k (by simp [hjobs, hk])

/-! ## Of one process -/

def HeldBy (t : Table) (pid : Pid) : Prop := ∀ k ∈ t.jobs, k.state = .foreground → k.pid = pid

theorem heldBy_of_calm (h : t.foreground? = none) (pid : Pid) : t.HeldBy pid :=
  fun k hk hstate => absurd hstate (foreground?_eq_none.1 h k hk)

namespace HeldBy
variable {pid : Pid}

theorem foreground?_eq (h : t.HeldBy pid) {k : Job} (hk : k ∈ t.jobs)
    (hstate : k.state = .foreground) : t.foreground? = some pid := by
  cases hf : t.foreground? with
  | none => exact absurd hstate (foreground?_eq_none.1 hf k hk)
  | some owner =>
    obtain ⟨k', hk', rfl, hstate'⟩ := foreground?_eq_some hf
    rw [h k' hk' hstate']

theorem removed (h : t.HeldBy pid) {p : Pid} {j : Job} (found : t.findByPid? p = some j) :
    (t.removed p).HeldBy pid := by
  obtain ⟨before, after, hjobs, -, hrest⟩ := jobs_removed found
  intro k hk
  refine h k ?_
  rw [hrest, List.mem_append] at hk
  rw [hjobs, List.mem_append, List.mem_cons]
  tauto

theorem moved_away (h : t.HeldBy pid) {p : Pid} (found : ∃ k ∈ t.jobs, k.pid = p)
    {state : Job.State} (away : state ≠ .foreground) : (t.moved p state).HeldBy pid := by
  obtain ⟨before, j, after, hjobs, -, -, hmoved⟩ := jobs_moved found state
  intro k hk hstate
  rw [hmoved, List.mem_append, List.mem_cons] at hk
  rcases hk with hk | rfl | hk
  · exact h k (by simp [hjobs, hk]) hstate
  · exact absurd hstate away
  · exact h k (by simp [hjobs, hk]) hstate

/-- A move to the foreground is one of the process that holds it. -/
theorem moved (h : t.HeldBy pid) {p : Pid} {state : Job.State} (moves : t.Moves p state) :
    ∃ pid', (t.moved p state).HeldBy pid' := by
  by_cases hs : state = .foreground
  · have hheld : t.HeldBy p := by
      intro k hk hstate
      have hf := h.foreground?_eq hk hstate
      rw [h k hk hstate, moves.foreground hs pid hf]
    obtain ⟨before, j, after, hjobs, hj, -, hmoved⟩ := jobs_moved moves.found state
    refine ⟨p, fun k hk hstate => ?_⟩
    rw [hmoved, List.mem_append, List.mem_cons] at hk
    rcases hk with hk | rfl | hk
    · exact hheld k (by simp [hjobs, hk]) hstate
    · exact hj
    · exact hheld k (by simp [hjobs, hk]) hstate
  · exact ⟨pid, h.moved_away moves.found hs⟩

theorem placed (h : t.HeldBy pid) {j : Job} (admits : t.Admits j.pid j.state) :
    ∃ pid', (t.placed j).HeldBy pid' := by
  by_cases hj : j.state = .foreground
  · refine ⟨j.pid, fun k hk hstate => ?_⟩
    rcases (mem_jobs_placed admits.free).1 hk with rfl | hk
    · rfl
    · exact heldBy_of_calm (admits.foreground hj) j.pid k hk hstate
  · refine ⟨pid, fun k hk hstate => ?_⟩
    rcases (mem_jobs_placed admits.free).1 hk with rfl | hk
    · exact absurd hstate hj
    · exact h k hk hstate

theorem update (h : t.HeldBy pid) (hu : t.Update t') : ∃ pid', t'.HeldBy pid' := by
  cases hu with
  | none => exact ⟨pid, h⟩
  | add admits _ => exact h.placed admits
  | remove found => exact ⟨pid, h.removed found⟩
  | move moves => exact h.moved moves
  | clear => exact ⟨pid, by simp [HeldBy, clear]⟩

end HeldBy

theorem Reachable.heldBy {c : Nat} (h : Reachable c t) {k : Job} (hk : k ∈ t.jobs)
    (hstate : k.state = .foreground) : t.HeldBy k.pid := by
  obtain ⟨pid, held⟩ := h.induction (P := fun t => ∃ pid, t.HeldBy pid)
    ⟨k.pid, by simp [HeldBy]⟩ fun _ _ ⟨_, ih⟩ hu => ih.update hu
  rwa [held k hk hstate]

end JobControl.Table

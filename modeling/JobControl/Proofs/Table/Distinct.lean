import JobControl.Proofs.Table.Slots
import Mathlib.Data.List.Nodup

/-!
# Table lemmas: one job for each process

* `Distinct` : no two live jobs have the same process; `Distinct.placed`, `Distinct.removed`,
  `Distinct.moved`;
* `mem_jobs_placed`, `mem_jobs_removed`, `mem_jobs_moved` : the jobs of the updated tables;
* `AddsFresh` : operations add a process only while no live job has it; processes then stay distinct
  (`Distinct.performAll`).
-/

set_option autoImplicit false

namespace JobControl.Table
open List

def Distinct (t : Table) : Prop := (t.jobs.map Job.pid).Nodup

variable {t t' : Table}

/-! ## The jobs of an updated table -/

theorem Distinct.eq (h : t.Distinct) {k k' : Job} (hk : k ∈ t.jobs) (hk' : k' ∈ t.jobs)
    (he : k.pid = k'.pid) : k = k' :=
  List.inj_on_of_nodup_map h hk hk' he

theorem mem_jobs_placed (free : t.isFull = false) {j k : Job} :
    k ∈ (t.placed j).jobs ↔ k = j ∨ k ∈ t.jobs := by
  rw [(jobs_placed free j).mem_iff, List.mem_cons]

/-- Around the job of a process, no job has that process. -/
theorem Distinct.ne_of_split (h : t.Distinct) {before after : List Job} {j : Job}
    (hjobs : t.jobs = before ++ j :: after) : ∀ k ∈ before ++ after, k.pid ≠ j.pid := by
  have hperm : t.jobs ~ j :: (before ++ after) := by
    rw [hjobs]
    exact List.perm_middle
  have hnodup : ((j :: (before ++ after)).map Job.pid).Nodup := (hperm.map Job.pid).nodup_iff.1 h
  rw [List.map_cons, List.nodup_cons] at hnodup
  intro k hk he
  exact hnodup.1 (he ▸ List.mem_map_of_mem hk)

theorem mem_jobs_removed (h : t.Distinct) {pid : Pid} {j k : Job}
    (found : t.findByPid? pid = some j) :
    k ∈ (t.removed pid).jobs ↔ k ∈ t.jobs ∧ k.pid ≠ pid := by
  obtain ⟨before, after, hjobs, -, hrest⟩ := jobs_removed found
  obtain ⟨-, -, rfl⟩ := findByPid?_eq_some found
  have hne := h.ne_of_split hjobs
  rw [hrest, hjobs]
  constructor
  · intro hk
    refine ⟨?_, hne k hk⟩
    rw [List.mem_append] at hk
    rw [List.mem_append, List.mem_cons]
    tauto
  · rintro ⟨hk, hpid⟩
    rw [List.mem_append, List.mem_cons] at hk
    rw [List.mem_append]
    rcases hk with hk | rfl | hk
    · exact .inl hk
    · exact absurd rfl hpid
    · exact .inr hk

theorem mem_jobs_moved (h : t.Distinct) {pid : Pid} (found : ∃ k ∈ t.jobs, k.pid = pid)
    {state : Job.State} {k : Job} :
    k ∈ (t.moved pid state).jobs ↔
      ∃ k' ∈ t.jobs, k = { k' with state := if k'.pid = pid then state else k'.state } := by
  obtain ⟨before, j, after, hjobs, rfl, -, hmoved⟩ := jobs_moved found state
  have hne := h.ne_of_split hjobs
  rw [hmoved, hjobs]
  constructor
  · intro hk
    rw [List.mem_append, List.mem_cons] at hk
    rcases hk with hk | rfl | hk
    · exact ⟨k, by simp [hk], by rw [if_neg (hne k (by simp [hk]))]⟩
    · exact ⟨j, by simp, by rw [if_pos rfl]⟩
    · exact ⟨k, by simp [hk], by rw [if_neg (hne k (by simp [hk]))]⟩
  · rintro ⟨k', hk', rfl⟩
    rw [List.mem_append, List.mem_cons] at hk' ⊢
    rcases hk' with hk' | rfl | hk'
    · rw [if_neg (hne k' (by simp [hk']))]
      exact .inl hk'
    · rw [if_pos rfl]
      exact .inr (.inl rfl)
    · rw [if_neg (hne k' (by simp [hk']))]
      exact .inr (.inr hk')

/-! ## Updates keep processes distinct -/

theorem Distinct.empty (c : Nat) : (empty c).Distinct := by
  simp [Distinct]

theorem Distinct.placed (h : t.Distinct) (free : t.isFull = false) {j : Job}
    (fresh : ∀ k ∈ t.jobs, k.pid ≠ j.pid) : (t.placed j).Distinct := by
  refine ((jobs_placed free j).map Job.pid).nodup_iff.2 (List.nodup_cons.2 ⟨fun hmem => ?_, h⟩)
  obtain ⟨k, hk, he⟩ := List.mem_map.1 hmem
  exact fresh k hk he

theorem Distinct.removed (h : t.Distinct) {pid : Pid} {j : Job}
    (found : t.findByPid? pid = some j) : (t.removed pid).Distinct := by
  obtain ⟨before, after, hjobs, -, hrest⟩ := jobs_removed found
  have hsub : (t.removed pid).jobs <+ t.jobs := by
    rw [hrest, hjobs]
    exact (List.Sublist.refl before).append (List.sublist_cons_self j after)
  exact h.sublist (hsub.map Job.pid)

theorem Distinct.moved (h : t.Distinct) {pid : Pid} (found : ∃ k ∈ t.jobs, k.pid = pid)
    (state : Job.State) : (t.moved pid state).Distinct := by
  obtain ⟨before, j, after, hjobs, -, -, hmoved⟩ := jobs_moved found state
  have hpids : (t.moved pid state).jobs.map Job.pid = t.jobs.map Job.pid := by
    simp [hmoved, hjobs]
  rw [Distinct, hpids]
  exact h

/-! ## Operations that add fresh processes -/

def Op.added? : Op → Option Pid
  | .add pid _ _ => some pid
  | _ => none

/-- An operation keeps processes distinct if it adds no process of a live job. -/
theorem Distinct.outcome (h : t.Distinct) {op : Op} {reply : Reply}
    (fresh : ∀ pid ∈ op.added?, ∀ k ∈ t.jobs, k.pid ≠ pid) (ho : t.Outcome op reply t') :
    t'.Distinct := by
  cases ho with
  | added admits _ => exact h.placed admits.free (fresh _ rfl)
  | removed found => exact h.removed found
  | moved moves => exact h.moved moves.found _
  | cleared => exact .empty _
  | idle _ => exact h

def AddsFresh (t : Table) : List Op → Prop
  | [] => True
  | op :: ops =>
    (∀ pid ∈ op.added?, ∀ k ∈ t.jobs, k.pid ≠ pid) ∧ AddsFresh (t.perform op).2 ops

instance decidableAddsFresh (t : Table) : (ops : List Op) → Decidable (t.AddsFresh ops)
  | [] => inferInstanceAs (Decidable True)
  | op :: ops =>
    have := decidableAddsFresh (t.perform op).2 ops
    inferInstanceAs (Decidable ((∀ pid ∈ op.added?, ∀ k ∈ t.jobs, k.pid ≠ pid) ∧
      AddsFresh (t.perform op).2 ops))

theorem Distinct.performAll (h : t.Distinct) {q ops : List Op} (fresh : t.AddsFresh ops)
    (hq : q <+: ops) : (t.performAll q).2.Distinct := by
  induction q generalizing t ops with
  | nil => exact h
  | cons op q ih =>
    obtain ⟨rest, rfl⟩ := hq
    exact ih (h.outcome fresh.1 (t.outcome_perform op)) fresh.2 (List.prefix_append q rest)

end JobControl.Table

import JobControl.Job.Table
import Mathlib.Data.List.Perm.Basic

/-!
# Table lemmas: slots, and what the updates do to them

* `exists_place`, `exists_revise` : the slots split at the lowest free one, and at the first job of
  a process;
* `add_eq_ok_iff`, `remove_eq_some_iff`, `setState_eq_ok_iff` : when an update succeeds, and that the
  table is then `placed`, `removed` or `moved`;
* `jobs_placed`, `jobs_removed`, `jobs_moved` : the live jobs of these tables;
* `Outcome` : what an operation replies, and does to a table (`outcome_perform`); `Update` : all that
  an operation can do to a table;
* `Reachable` : the tables that operations lead to; what every update keeps, they have
  (`Reachable.induction`).
-/

set_option autoImplicit false

namespace JobControl.Table
open List

/-! ## Live jobs -/

theorem mem_jobs {t : Table} {k : Job} : k ∈ t.jobs ↔ some k ∈ t.slots := by
  simp [jobs]

theorem mem_ids {t : Table} {i : Nat} : i ∈ t.ids ↔ ∃ k ∈ t.jobs, k.id = i := by
  simp [ids]

theorem isFull_eq_false {t : Table} : t.isFull = false ↔ none ∈ t.slots := by
  simp only [isFull, List.all_eq_false]
  constructor
  · rintro ⟨slot, h, hs⟩
    cases slot with
    | none => exact h
    | some k => simp at hs
  · exact fun h => ⟨none, h, by simp⟩

theorem size_eq_countP (t : Table) : t.size = t.slots.countP Option.isSome :=
  List.length_filterMap_eq_countP

theorem size_le_capacity (t : Table) : t.size ≤ t.capacity := by
  rw [size_eq_countP]
  exact List.countP_le_length

/-- A table is full just if it has as many jobs as slots. -/
theorem isFull_iff {t : Table} : t.isFull = true ↔ t.size = t.capacity := by
  rw [size_eq_countP, capacity, List.countP_eq_length, isFull, List.all_eq_true]

/-- A table with a free slot has fewer jobs than slots. -/
theorem size_lt_capacity {t : Table} (h : t.isFull = false) : t.size < t.capacity := by
  refine Nat.lt_of_le_of_ne t.size_le_capacity fun he => ?_
  rw [isFull_iff.2 he] at h
  cases h

theorem findById?_eq_none {t : Table} {i : Nat} (hi : 1 ≤ i) :
    t.findById? i = none ↔ i ∉ t.ids := by
  simp [findById?, hi, mem_ids]

theorem findByPid?_eq_some {t : Table} {pid : Pid} {k : Job} (h : t.findByPid? pid = some k) :
    pid.Valid ∧ k ∈ t.jobs ∧ k.pid = pid := by
  unfold findByPid? at h
  split at h
  · next hv => exact ⟨hv, List.mem_of_find?_eq_some h, by simpa using List.find?_some h⟩
  · cases h

theorem found_of_findByPid? {t : Table} {pid : Pid} {k : Job} (h : t.findByPid? pid = some k) :
    ∃ k' ∈ t.jobs, k'.pid = pid :=
  ⟨k, (findByPid?_eq_some h).2⟩

theorem findByPid?_eq_none {t : Table} {pid : Pid} (hv : pid.Valid) :
    t.findByPid? pid = none ↔ ∀ k ∈ t.jobs, k.pid ≠ pid := by
  simp [findByPid?, hv]

/-- A job that a user means is live. -/
theorem mem_jobs_of_find? {t : Table} {reference : Job.Reference} {k : Job}
    (h : t.find? reference = some k) : k ∈ t.jobs := by
  cases reference with
  | id i =>
    change (if 1 ≤ i then t.jobs.find? (·.id == i) else none) = some k at h
    split at h
    · exact List.mem_of_find?_eq_some h
    · cases h
  | pid pid => exact (findByPid?_eq_some h).2.1

theorem foreground?_eq_none {t : Table} :
    t.foreground? = none ↔ ∀ k ∈ t.jobs, k.state ≠ .foreground := by
  simp [foreground?, Job.isForeground]

/-! ## Slots -/

/-- The slots around the lowest free one. -/
theorem exists_place {slots : List (Option Job)} (h : none ∈ slots) (j : Job) :
    ∃ (ks : List Job) (rest : List (Option Job)), slots = ks.map some ++ none :: rest ∧
      place j slots = ks.map some ++ some j :: rest := by
  induction slots with
  | nil => cases h
  | cons slot slots ih =>
    cases slot with
    | none => exact ⟨[], slots, rfl, rfl⟩
    | some k =>
      obtain ⟨ks, rest, he, hp⟩ := ih (by simpa using h)
      exact ⟨k :: ks, rest, by simp [he], by simp [place, hp]⟩

/-- The slots around the first job of a process. -/
theorem exists_revise {slots : List (Option Job)} {pid : Pid} {k : Job} (h : some k ∈ slots)
    (hk : k.pid = pid) :
    ∃ before j rest, slots = before ++ some j :: rest ∧ j.pid = pid ∧
      (∀ k', some k' ∈ before → k'.pid ≠ pid) ∧
      ∀ f, revise pid f slots = before ++ f j :: rest := by
  induction slots with
  | nil => cases h
  | cons slot slots ih =>
    cases slot with
    | none =>
      obtain ⟨before, j, rest, he, hj, hb, hf⟩ := ih (by simpa using h)
      exact ⟨none :: before, j, rest, by simp [he], hj, by simpa using hb,
        fun f => by simp [revise, hf]⟩
    | some j =>
      by_cases hj : j.pid = pid
      · exact ⟨[], j, slots, rfl, hj, by simp, fun f => by simp [revise, hj]⟩
      · have hmem : some k ∈ slots := by
          rcases List.mem_cons.1 h with heq | hmem
          · cases heq; exact absurd hk hj
          · exact hmem
        obtain ⟨before, j', rest, he, hj', hb, hf⟩ := ih hmem
        refine ⟨some j :: before, j', rest, by simp [he], hj', ?_, fun f => by simp [revise, hj, hf]⟩
        intro k' hk'
        rcases List.mem_cons.1 hk' with heq | hk'
        · cases heq; exact hj
        · exact hb k' hk'

theorem length_place (j : Job) (slots : List (Option Job)) :
    (place j slots).length = slots.length := by
  induction slots with
  | nil => rfl
  | cons slot slots ih => cases slot <;> simp [place, ih]

theorem length_revise (pid : Pid) (f : Job → Option Job) (slots : List (Option Job)) :
    (revise pid f slots).length = slots.length := by
  induction slots with
  | nil => rfl
  | cons slot slots ih =>
    cases slot with
    | none => simp [revise, ih]
    | some k => unfold revise; split <;> simp [ih]

/-! ## Adding -/

/-- The table accepts a job of a process in a state, and looks for an id. -/
structure Admits (t : Table) (pid : Pid) (state : Job.State) : Prop where
  valid : pid.Valid
  foreground : state = .foreground → t.foreground? = none
  free : t.isFull = false

def placed (t : Table) (j : Job) : Table := ⟨place j t.slots, t.idAfter j.id⟩

theorem add_eq_ok_iff {t t' : Table} {pid : Pid} {state : Job.State} {line : String} {i : Nat} :
    t.add pid state line = .ok (i, t') ↔
      t.Admits pid state ∧ t.freshId? = some i ∧ t' = t.placed ⟨i, pid, state, line⟩ := by
  constructor
  · intro h
    unfold add at h
    split at h
    · cases h
    · next hv =>
      split at h
      · cases h
      · next hfg =>
        split at h
        · cases h
        · next hfree =>
          split at h
          · cases h
          · next i' hi =>
            cases h
            refine ⟨⟨not_not.1 hv, fun hs => by simpa [hs] using hfg, by simpa using hfree⟩, hi, rfl⟩
  · rintro ⟨⟨hv, hfg, hfree⟩, hi, rfl⟩
    have hb : (if state = .foreground then t.foreground? else none) = none := by
      split
      · next hs => exact hfg hs
      · rfl
    simp [add, hv, hb, hfree, hi, placed]

@[simp] theorem capacity_placed (t : Table) (j : Job) : (t.placed j).capacity = t.capacity :=
  length_place j t.slots

theorem jobs_placed {t : Table} (h : t.isFull = false) (j : Job) :
    (t.placed j).jobs ~ j :: t.jobs := by
  obtain ⟨ks, rest, he, hp⟩ := exists_place (isFull_eq_false.1 h) j
  have h1 : (t.placed j).jobs = ks ++ j :: rest.filterMap id := by
    simp [placed, jobs, hp]
  have h2 : t.jobs = ks ++ rest.filterMap id := by
    simp [jobs, he]
  rw [h1, h2]
  exact List.perm_middle

/-! ## Removing -/

def removed (t : Table) (pid : Pid) : Table :=
  let rest : Table := { t with slots := revise pid (fun _ => none) t.slots }
  { rest with nextId := rest.idAfter rest.maxId }

theorem remove_eq_some_iff {t t' : Table} {pid : Pid} {j : Job} :
    t.remove pid = some (j, t') ↔ t.findByPid? pid = some j ∧ t' = t.removed pid := by
  unfold remove removed
  cases t.findByPid? pid with
  | none => simp
  | some k => simp [eq_comm]

@[simp] theorem capacity_removed (t : Table) (pid : Pid) : (t.removed pid).capacity = t.capacity :=
  length_revise pid _ t.slots

theorem nextId_removed (t : Table) (pid : Pid) :
    (t.removed pid).nextId = (t.removed pid).idAfter (t.removed pid).maxId := rfl

theorem jobs_removed {t : Table} {pid : Pid} {j : Job} (h : t.findByPid? pid = some j) :
    ∃ before after, t.jobs = before ++ j :: after ∧ (∀ k ∈ before, k.pid ≠ pid) ∧
      (t.removed pid).jobs = before ++ after := by
  obtain ⟨hv, hmem, hj⟩ := findByPid?_eq_some h
  obtain ⟨before, j', rest, he, hj', hb, hf⟩ := exists_revise (mem_jobs.1 hmem) hj
  have hjobs : t.jobs = before.filterMap id ++ j' :: rest.filterMap id := by
    simp [jobs, he]
  have hb' : ∀ k ∈ before.filterMap id, k.pid ≠ pid := fun k hk => hb k (by simpa using hk)
  have hjj : j' = j := by
    have hfind : t.jobs.find? (·.pid == pid) = some j' := by
      rw [hjobs, List.find?_append, List.find?_eq_none.2 (by simpa using hb')]
      simp [hj']
    simpa [findByPid?, hv, hfind] using h
  subst hjj
  exact ⟨_, _, hjobs, hb', by simp [removed, jobs, hf]⟩

/-! ## Moving to another state -/

def moved (t : Table) (pid : Pid) (state : Job.State) : Table :=
  { t with slots := revise pid (fun k => some { k with state }) t.slots }

structure Moves (t : Table) (pid : Pid) (state : Job.State) : Prop where
  foreground : state = .foreground → ∀ owner, t.foreground? = some owner → owner = pid
  found : ∃ k ∈ t.jobs, k.pid = pid

theorem setState_eq_ok_iff {t t' : Table} {pid : Pid} {state : Job.State} :
    t.setState pid state = .ok t' ↔ t.Moves pid state ∧ t' = t.moved pid state := by
  have hany : t.jobs.any (·.pid == pid) = true ↔ ∃ k ∈ t.jobs, k.pid = pid := by simp
  constructor
  · intro h
    unfold setState at h
    split at h
    · cases h
    · next hfg =>
      split at h
      · next hk =>
        cases h
        refine ⟨⟨fun hs owner ho => ?_, hany.1 hk⟩, rfl⟩
        simpa [hs, ho] using hfg
      · cases h
  · rintro ⟨⟨hfg, hk⟩, rfl⟩
    have hb : (if state = .foreground then t.foreground?.filter (· ≠ pid) else none) = none := by
      split
      · next hs =>
        rw [Option.filter_eq_none_iff]
        intro owner ho
        simpa using hfg hs owner ho
      · rfl
    simp only [setState, hb, hany.2 hk]
    rfl

@[simp] theorem capacity_moved (t : Table) (pid : Pid) (state : Job.State) :
    (t.moved pid state).capacity = t.capacity :=
  length_revise pid _ t.slots

theorem jobs_moved {t : Table} {pid : Pid} (h : ∃ k ∈ t.jobs, k.pid = pid) (state : Job.State) :
    ∃ before k after, t.jobs = before ++ k :: after ∧ k.pid = pid ∧ (∀ k' ∈ before, k'.pid ≠ pid) ∧
      (t.moved pid state).jobs = before ++ { k with state } :: after := by
  obtain ⟨k, hmem, hk⟩ := h
  obtain ⟨before, j, rest, he, hj, hb, hf⟩ := exists_revise (mem_jobs.1 hmem) hk
  exact ⟨before.filterMap id, j, rest.filterMap id, by simp [jobs, he], hj,
    fun k' hk' => hb k' (by simpa using hk'), by simp [moved, jobs, hf]⟩

/-! ## Emptying -/

@[simp] theorem jobs_empty (c : Nat) : (empty c).jobs = [] := by
  simp [empty, jobs]

@[simp] theorem capacity_empty (c : Nat) : (empty c).capacity = c := by
  simp [empty, capacity]

/-! ## Operations -/

/-- What an operation can do to a table. -/
inductive Update (t : Table) : Table → Prop where
  | none : Update t t
  | add {pid : Pid} {state : Job.State} {line : String} {i : Nat} :
      t.Admits pid state → t.freshId? = some i → Update t (t.placed ⟨i, pid, state, line⟩)
  | remove {pid : Pid} {j : Job} : t.findByPid? pid = some j → Update t (t.removed pid)
  | move {pid : Pid} {state : Job.State} : t.Moves pid state → Update t (t.moved pid state)
  | clear : Update t t.clear

def Reply.IsIdle : Reply → Prop
  | .refused _ | .removed none | .found _ | .listing _ => True
  | _ => False

inductive Outcome (t : Table) : Op → Reply → Table → Prop where
  | added {pid : Pid} {state : Job.State} {line : String} {i : Nat} :
      t.Admits pid state → t.freshId? = some i →
      Outcome t (.add pid state line) (.added i) (t.placed ⟨i, pid, state, line⟩)
  | removed {pid : Pid} {j : Job} : t.findByPid? pid = some j →
      Outcome t (.remove pid) (.removed (some j)) (t.removed pid)
  | moved {pid : Pid} {state : Job.State} : t.Moves pid state →
      Outcome t (.setState pid state) .done (t.moved pid state)
  | cleared : Outcome t .clear .done t.clear
  | idle {op : Op} {reply : Reply} : reply.IsIdle → Outcome t op reply t

theorem outcome_perform (t : Table) (op : Op) :
    t.Outcome op (t.perform op).1 (t.perform op).2 := by
  cases op with
  | add pid state line =>
    cases h : t.add pid state line with
    | error reason => simpa only [perform, h] using .idle trivial
    | ok r =>
      obtain ⟨ha, hi, ht⟩ := add_eq_ok_iff.1 h
      simpa only [perform, h, ht] using .added ha hi
  | remove pid =>
    cases h : t.remove pid with
    | none => simpa only [perform, h] using .idle trivial
    | some r =>
      obtain ⟨hj, ht⟩ := remove_eq_some_iff.1 h
      simpa only [perform, h, ht] using .removed hj
  | setState pid state =>
    cases h : t.setState pid state with
    | error reason => simpa only [perform, h] using .idle trivial
    | ok t' =>
      obtain ⟨hm, ht⟩ := setState_eq_ok_iff.1 h
      simpa only [perform, h, ht] using .moved hm
  | clear => exact .cleared
  | findByPid pid => exact .idle trivial
  | findById i => exact .idle trivial
  | list => exact .idle trivial

theorem Outcome.update {t t' : Table} {op : Op} {reply : Reply} (h : t.Outcome op reply t') :
    t.Update t' := by
  cases h with
  | added admits fresh => exact .add admits fresh
  | removed found => exact .remove found
  | moved moves => exact .move moves
  | cleared => exact .clear
  | idle _ => exact .none

theorem update_perform (t : Table) (op : Op) : t.Update (t.perform op).2 :=
  (t.outcome_perform op).update

def Reachable (c : Nat) (t : Table) : Prop := ∃ ops, after c ops = t

theorem performAll_append (t : Table) (ops ops' : List Op) :
    (t.performAll (ops ++ ops')).2 = ((t.performAll ops).2.performAll ops').2 := by
  induction ops generalizing t with
  | nil => rfl
  | cons op ops ih => exact ih (t.perform op).2

theorem after_concat (c : Nat) (ops : List Op) (op : Op) :
    after c (ops ++ [op]) = ((after c ops).perform op).2 :=
  performAll_append (empty c) ops [op]

theorem Reachable.perform {c : Nat} {t : Table} (h : Reachable c t) (op : Op) :
    Reachable c (t.perform op).2 := by
  obtain ⟨ops, rfl⟩ := h
  exact ⟨ops ++ [op], after_concat c ops op⟩

theorem performAll_induction {P : Table → Prop} (step : ∀ t t', P t → t.Update t' → P t') :
    ∀ (ops : List Op) (t : Table), P t → P (t.performAll ops).2
  | [], _, h => h
  | op :: ops, t, h =>
    performAll_induction step ops (t.perform op).2 (step t _ h (t.update_perform op))

/-- What an empty table has and every update keeps, every reachable table has. -/
theorem Reachable.induction {P : Table → Prop} {c : Nat} {t : Table} (start : P (empty c))
    (step : ∀ t t', P t → t.Update t' → P t') (h : Reachable c t) : P t := by
  obtain ⟨ops, rfl⟩ := h
  exact performAll_induction step ops _ start

@[simp] theorem Update.capacity {t t' : Table} (h : t.Update t') : t'.capacity = t.capacity := by
  cases h <;> simp [Table.clear]

theorem Reachable.capacity {c : Nat} {t : Table} (h : Reachable c t) : t.capacity = c :=
  h.induction (capacity_empty c) fun _ _ ih hu => hu.capacity.trans ih

end JobControl.Table

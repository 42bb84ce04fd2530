import JobControl.Proofs.Table.Foreground
import JobControl.Proofs.Table.Ids
import Mathlib.Data.List.Induction

/-!
# Table lemmas: the history of a table

A table that operations lead to holds what their history says, as a map from processes to jobs does.

* `Record`, `history` : the operations so far, each with the table before it and its reply;
* `Registered` : the history says that a job is live: it was added and not ended since;
* `Outcome.slots_iff`, `registered_concat` : what one more operation makes of the slots, and of what
  the history says, is the same;
* `slots_after_iff` : so a job is live just if it is in a slot, the one that was the lowest free when
  it was added;
* `Recalls` : what the lookups find in a table that holds what its history says; `recalls_after` :
  every table that operations lead to does.
-/

set_option autoImplicit false

namespace JobControl.Table
open List

/-! ## Histories -/

/-- An operation that was carried out, with the table before it and the reply. -/
structure Record where
  before : Table
  op : Op
  reply : Reply

namespace Record

def Ends (r : Record) (pid : Pid) : Prop :=
  (r.op = .remove pid ∧ ∃ j, r.reply = .removed (some j)) ∨ (r.op = .clear ∧ r.reply = .done)

def state? (r : Record) (pid : Pid) : Option Job.State :=
  match r.op with
  | .setState p state => if p = pid ∧ r.reply = .done then some state else none
  | _ => none

end Record

def history (t : Table) : List Op → List Record
  | [] => []
  | op :: ops => ⟨t, op, (t.perform op).1⟩ :: (t.perform op).2.history ops

/-- The history says that the job is live. It was added, to the table `t`, under its id and with its
line, and has not been ended since. Its state is the last one it was moved to since, or else that in
which it was added. -/
def Registered (h : List Record) (t : Table) (j : Job) : Prop :=
  ∃ earlier state later, h = earlier ++ ⟨t, .add j.pid state j.line, .added j.id⟩ :: later ∧
    (∀ r ∈ later, ¬ r.Ends j.pid) ∧
    j.state = (later.filterMap (·.state? j.pid)).getLast?.getD state

def Live (h : List Record) (j : Job) : Prop := ∃ t, Registered h t j

def lowestFree? (t : Table) : Option Nat := t.slots.findIdx? Option.isNone

/-- A table of `c` slots holds what the history says. -/
structure Recalls (c : Nat) (h : List Record) (t : Table) : Prop where
  findByPid? : ∀ pid j, t.findByPid? pid = some j ↔ j.pid = pid ∧ Live h j
  findById? : ∀ i j, t.findById? i = some j ↔ j.id = i ∧ Live h j
  same : ∀ j, t.findByPid? j.pid = some j ↔ t.findById? j.id = some j
  /-- The processes of live jobs, each once, are as many as the size says. -/
  pids : ∃ pids : List Pid, pids.Nodup ∧ (∀ pid, pid ∈ pids ↔ ∃ j, j.pid = pid ∧ Live h j) ∧
    t.size = pids.length
  bound : t.size ≤ c
  isFull : t.isFull = true ↔ t.size = c
  isEmpty : t.isEmpty = true ↔ t.size = 0
  foreground? : ∀ pid, t.foreground? = some pid ↔
    ∃ j, j.pid = pid ∧ Live h j ∧ j.state = .foreground
  /-- A live job stays in the slot that was the lowest free one when it was added. -/
  slots : ∀ n j, t.slots[n]? = some (some j) ↔ ∃ t₀, Registered h t₀ j ∧ t₀.lowestFree? = some n
  /-- The jobs are listed in the order of their slots. -/
  order : t.jobs.Pairwise fun j k => ∃ m n : Nat, m < n ∧ t.slots[m]? = some (some j) ∧
    t.slots[n]? = some (some k)

theorem history_concat (t : Table) (ops : List Op) (op : Op) :
    t.history (ops ++ [op]) =
      t.history ops ++ [⟨(t.performAll ops).2, op, ((t.performAll ops).2.perform op).1⟩] := by
  induction ops generalizing t with
  | nil => rfl
  | cons op' ops ih => exact congrArg _ (ih (t.perform op').2)

theorem addsFresh_concat {t : Table} {ops : List Op} {op : Op} (h : t.AddsFresh (ops ++ [op])) :
    t.AddsFresh ops ∧ ∀ pid ∈ op.added?, ∀ k ∈ (t.performAll ops).2.jobs, k.pid ≠ pid := by
  induction ops generalizing t with
  | nil => exact ⟨trivial, h.1⟩
  | cons op' ops ih =>
    obtain ⟨hrest, hlast⟩ := ih h.2
    exact ⟨⟨h.1, hrest⟩, hlast⟩

/-- One more operation registers a job, or keeps one that is registered already. -/
theorem registered_concat {h : List Record} {r : Record} {t : Table} {k : Job} :
    Registered (h ++ [r]) t k ↔
      r = ⟨t, .add k.pid k.state k.line, .added k.id⟩ ∨
        ∃ j, Registered h t j ∧ ¬ r.Ends j.pid ∧
          k = { j with state := (r.state? j.pid).getD j.state } := by
  constructor
  · rintro ⟨earlier, state, later, hsplit, hlater, hstate⟩
    rcases List.eq_nil_or_concat' later with rfl | ⟨later, r', rfl⟩
    · obtain ⟨-, hr⟩ := List.append_inj' hsplit rfl
      obtain rfl : k.state = state := hstate
      exact .inl (List.singleton_inj.1 hr)
    · rw [← List.cons_append, ← List.append_assoc] at hsplit
      obtain ⟨rfl, hr⟩ := List.append_inj' hsplit rfl
      obtain rfl := List.singleton_inj.1 hr
      refine .inr ⟨{ k with state := (later.filterMap (·.state? k.pid)).getLast?.getD state },
        ⟨earlier, state, later, rfl, fun r' hr' => hlater r' (by simp [hr']), rfl⟩,
        hlater r (by simp), ?_⟩
      have hk : k.state =
          (r.state? k.pid).getD ((later.filterMap (·.state? k.pid)).getLast?.getD state) := by
        rw [hstate, List.filterMap_append]
        cases hr : r.state? k.pid <;> simp [hr]
      exact congrArg (fun s => { k with state := s }) hk
  · rintro (rfl | ⟨j, ⟨earlier, state, later, rfl, hlater, hstate⟩, hends, rfl⟩)
    · exact ⟨h, k.state, [], rfl, by simp, rfl⟩
    · refine ⟨earlier, state, later ++ [r], by simp, ?_, ?_⟩
      · intro r' hr'
        rcases List.mem_append.1 hr' with hr' | hr'
        · exact hlater r' hr'
        · rwa [List.mem_singleton.1 hr']
      · rw [List.filterMap_append]
        cases hr : r.state? j.pid <;> simp [hr, hstate]

/-! ## Slots -/

variable {t t' : Table}

/-- Where processes are distinct, revising the first job of a process is revising all of them. -/
theorem revise_eq_map {pid : Pid} {f : Job → Option Job} {slots : List (Option Job)}
    (distinct : ((slots.filterMap id).map Job.pid).Nodup) :
    revise pid f slots = slots.map (·.bind fun k => if k.pid = pid then f k else some k) := by
  induction slots with
  | nil => rfl
  | cons slot slots ih =>
    cases slot with
    | none => simpa [revise] using ih distinct
    | some k =>
      obtain ⟨hk, hrest⟩ := List.nodup_cons.1 distinct
      by_cases hpid : k.pid = pid
      · have hrest' : slots.map (·.bind fun k => if k.pid = pid then f k else some k) = slots := by
          refine (List.map_congr_left fun slot hslot => ?_).trans (List.map_id slots)
          cases slot with
          | none => rfl
          | some k' =>
            have hne : k'.pid ≠ pid := by
              rintro rfl
              exact hk (List.mem_map.2 ⟨k', by simpa using hslot, hpid.symm⟩)
            simp [hne]
        simp [revise, hpid, hrest']
      · simp [revise, hpid, ih hrest]

theorem getElem?_place {slots : List (Option Job)} {j k : Job} {n : Nat} :
    (place j slots)[n]? = some (some k) ↔
      slots[n]? = some (some k) ∨ slots.findIdx? Option.isNone = some n ∧ j = k := by
  induction slots generalizing n with
  | nil => simp [place]
  | cons slot slots ih =>
    cases slot with
    | none => cases n <;> simp [place, List.findIdx?_cons]
    | some k' => cases n <;> simp [place, List.findIdx?_cons, ih]

theorem getElem?_removed (distinct : t.Distinct) {pid : Pid} {n : Nat} {k : Job} :
    (t.removed pid).slots[n]? = some (some k) ↔ t.slots[n]? = some (some k) ∧ k.pid ≠ pid := by
  have hslots : (t.removed pid).slots = revise pid (fun _ => none) t.slots := rfl
  rw [hslots, revise_eq_map distinct, List.getElem?_map]
  obtain _ | _ | j := t.slots[n]?
  · simp
  · simp
  · by_cases hj : j.pid = pid <;> grind

theorem getElem?_moved (distinct : t.Distinct) {pid : Pid} {state : Job.State} {n : Nat} {k : Job} :
    (t.moved pid state).slots[n]? = some (some k) ↔ ∃ j, t.slots[n]? = some (some j) ∧
      k = { j with state := if pid = j.pid then state else j.state } := by
  have hslots : (t.moved pid state).slots =
      revise pid (fun k => some { k with state }) t.slots := rfl
  rw [hslots, revise_eq_map distinct, List.getElem?_map]
  obtain _ | _ | j := t.slots[n]?
  · simp
  · simp
  · by_cases hj : pid = j.pid <;> simp [hj, eq_comm]

/-- After an operation, a slot holds the job that was added, if it was the lowest free one, or the
job that it held before, moved to its new state if it was moved. -/
theorem Outcome.slots_iff (distinct : t.Distinct) {op : Op} {reply : Reply}
    (ho : t.Outcome op reply t') {n : Nat} {k : Job} :
    t'.slots[n]? = some (some k) ↔
      (op = .add k.pid k.state k.line ∧ reply = .added k.id) ∧ t.lowestFree? = some n ∨
        ∃ j, t.slots[n]? = some (some j) ∧ ¬ (⟨t, op, reply⟩ : Record).Ends j.pid ∧
          k = { j with state := ((⟨t, op, reply⟩ : Record).state? j.pid).getD j.state } := by
  cases ho with
  | @added pid state line i admits fresh =>
    rw [placed, getElem?_place, or_comm]
    refine or_congr ?_ (by simp [Record.Ends, Record.state?])
    obtain ⟨i', pid', state', line'⟩ := k
    simp only [Job.mk.injEq, Op.add.injEq, Reply.added.injEq, lowestFree?]
    tauto
  | @removed pid found =>
    rw [getElem?_removed distinct]
    simp [Record.Ends, Record.state?, eq_comm]
  | @moved pid state moves =>
    have hstate (j : Job) : ((⟨t, .setState pid state, .done⟩ : Record).state? j.pid).getD j.state =
        if pid = j.pid then state else j.state := by
      by_cases hj : pid = j.pid <;> simp [Record.state?, hj]
    rw [getElem?_moved distinct]
    simp [Record.Ends, hstate]
  | cleared => simp [clear, Record.Ends, empty, List.getElem?_replicate]
  | @idle op reply hidle =>
    have hkept : reply ≠ .added k.id ∧ ∀ j : Job, ¬ (⟨t, op, reply⟩ : Record).Ends j.pid ∧
        (⟨t, op, reply⟩ : Record).state? j.pid = none := by
      unfold Record.state?
      refine ⟨?_, fun j => ⟨?_, ?_⟩⟩
      · rintro rfl
        exact hidle
      · rintro (⟨-, j, rfl⟩ | ⟨-, rfl⟩) <;> exact hidle
      · split
        · refine if_neg ?_
          rintro ⟨-, rfl⟩
          exact hidle
        · rfl
    simp [hkept]

variable {c : Nat} {ops : List Op}

/-- A slot holds a job just if the history says that the job is live, and the slot was the lowest free
one when it was added. -/
theorem slots_after_iff (fresh : (empty c).AddsFresh ops) {n : Nat} {k : Job} :
    (after c ops).slots[n]? = some (some k) ↔
      ∃ t, Registered ((empty c).history ops) t k ∧ t.lowestFree? = some n := by
  induction ops using List.reverseRecOn generalizing k with
  | nil => simp [after, performAll, empty, history, Registered, List.getElem?_replicate]
  | append_singleton ops op ih =>
    obtain ⟨fresh', -⟩ := addsFresh_concat fresh
    have distinct : (after c ops).Distinct :=
      (Distinct.empty c).performAll fresh (List.prefix_append ops [op])
    rw [after_concat, ((after c ops).outcome_perform op).slots_iff distinct, history_concat]
    simp only [registered_concat, ih fresh', Record.mk.injEq]
    constructor
    · rintro (⟨⟨hop, hreply⟩, hn⟩ | ⟨j, ⟨t, hj, hn⟩, hkept, hk⟩)
      · exact ⟨_, .inl ⟨rfl, hop, hreply⟩, hn⟩
      · exact ⟨t, .inr ⟨j, hj, hkept, hk⟩, hn⟩
    · rintro ⟨t, ⟨rfl, hop, hreply⟩ | ⟨j, hj, hkept, hk⟩, hn⟩
      · exact .inl ⟨⟨hop, hreply⟩, hn⟩
      · exact .inr ⟨j, ⟨t, hj, hn⟩, hkept, hk⟩

/-! ## Lookups -/

theorem reply_of_mem_history {r : Record} (h : r ∈ t.history ops) :
    r.reply = (r.before.perform r.op).1 := by
  induction ops generalizing t with
  | nil => cases h
  | cons op ops ih =>
    rcases List.mem_cons.1 h with rfl | h
    · rfl
    · exact ih h

theorem exists_lowestFree?_of_free (free : t.isFull = false) : ∃ n, t.lowestFree? = some n := by
  rw [← Option.isSome_iff_exists, lowestFree?, List.findIdx?_isSome, List.any_eq_true]
  exact ⟨none, isFull_eq_false.1 free, rfl⟩

/-- A job that was added took a slot. -/
theorem exists_lowestFree? {t₀ : Table} {k : Job} (h : Registered (t.history ops) t₀ k) :
    ∃ n, t₀.lowestFree? = some n := by
  obtain ⟨earlier, state, later, hsplit, -⟩ := h
  have hreply := reply_of_mem_history (r := ⟨t₀, .add k.pid state k.line, .added k.id⟩)
    (hsplit ▸ List.mem_append_right earlier List.mem_cons_self)
  have ho := t₀.outcome_perform (.add k.pid state k.line)
  rw [← hreply] at ho
  generalize (t₀.perform _).2 = t' at ho
  cases ho with
  | added admits _ => exact exists_lowestFree?_of_free admits.free
  | idle hidle => exact hidle.elim

/-- The history says that a job is live just if it is. -/
theorem mem_jobs_after_iff (fresh : (empty c).AddsFresh ops) {k : Job} :
    k ∈ (after c ops).jobs ↔ Live ((empty c).history ops) k := by
  rw [mem_jobs, List.mem_iff_getElem?]
  simp only [slots_after_iff fresh]
  constructor
  · rintro ⟨n, t, hk, -⟩
    exact ⟨t, hk⟩
  · rintro ⟨t, hk⟩
    obtain ⟨n, hn⟩ := exists_lowestFree? hk
    exact ⟨n, t, hk, hn⟩

theorem findByPid?_eq_some_iff (distinct : t.Distinct) (valid : ∀ k ∈ t.jobs, k.pid.Valid)
    {pid : Pid} {k : Job} : t.findByPid? pid = some k ↔ k.pid = pid ∧ k ∈ t.jobs := by
  constructor
  · intro h
    obtain ⟨-, hk, hpid⟩ := findByPid?_eq_some h
    exact ⟨hpid, hk⟩
  · rintro ⟨rfl, hk⟩
    cases hfind : t.findByPid? k.pid with
    | none => exact absurd rfl ((findByPid?_eq_none (valid k hk)).1 hfind k hk)
    | some j =>
      obtain ⟨-, hj, hpid⟩ := findByPid?_eq_some hfind
      rw [distinct.eq hj hk hpid]

theorem findById?_eq_some_iff (sound : t.Sound) {i : Nat} {k : Job} :
    t.findById? i = some k ↔ k.id = i ∧ k ∈ t.jobs := by
  constructor
  · intro h
    have hfind : t.find? (.id i) = some k := h
    have hk : k ∈ t.jobs := mem_jobs_of_find? hfind
    unfold findById? at h
    split at h
    · exact ⟨by simpa using List.find?_some h, hk⟩
    · cases h
  · rintro ⟨rfl, hk⟩
    have hmem : k.id ∈ t.ids := List.mem_map_of_mem hk
    have hpos := (sound.range _ hmem).1
    cases hfind : t.findById? k.id with
    | none => exact absurd hmem ((findById?_eq_none hpos).1 hfind)
    | some j =>
      rw [findById?, if_pos hpos] at hfind
      have hid : j.id = k.id := by simpa using List.find?_some hfind
      rw [List.inj_on_of_nodup_map sound.nodup (List.mem_of_find?_eq_some hfind) hk hid]

theorem OneForeground.foreground?_eq_some_iff (h : t.OneForeground) {pid : Pid} :
    t.foreground? = some pid ↔ ∃ k, k.pid = pid ∧ k ∈ t.jobs ∧ k.state = .foreground := by
  constructor
  · intro hfg
    obtain ⟨k, hk, hpid, hstate⟩ := foreground?_eq_some hfg
    exact ⟨k, hpid, hk, hstate⟩
  · rintro ⟨k, rfl, hk, hstate⟩
    have hmem : k ∈ t.jobs.filter Job.isForeground :=
      List.mem_filter.2 ⟨hk, by simpa [Job.isForeground] using hstate⟩
    obtain ⟨k', hone⟩ : ∃ k', t.jobs.filter Job.isForeground = [k'] := by
      refine List.length_eq_one_iff.1 (Nat.le_antisymm ?_ (List.length_pos_of_mem hmem))
      rw [← List.countP_eq_length_filter]
      exact h
    rw [hone, List.mem_singleton] at hmem
    rw [foreground?, ← List.head?_filter, hone, hmem]
    rfl

theorem oneForeground_after (fresh : (empty c).AddsFresh ops) : (after c ops).OneForeground := by
  induction ops using List.reverseRecOn with
  | nil => exact .empty c
  | append_singleton ops op ih =>
    obtain ⟨fresh', -⟩ := addsFresh_concat fresh
    have distinct : (after c ops).Distinct :=
      (Distinct.empty c).performAll fresh (List.prefix_append ops [op])
    rw [after_concat]
    exact (ih fresh').update distinct ((after c ops).update_perform op)

/-- The jobs are listed in the order of their slots. -/
theorem pairwise_jobs (t : Table) : t.jobs.Pairwise fun j k => ∃ m n : Nat, m < n ∧
    t.slots[m]? = some (some j) ∧ t.slots[n]? = some (some k) := by
  rw [jobs, List.pairwise_filterMap, List.pairwise_iff_getElem]
  rintro m n hm hn hlt j hj k hk
  exact ⟨m, n, hlt, List.getElem?_eq_some_iff.2 ⟨hm, hj⟩, List.getElem?_eq_some_iff.2 ⟨hn, hk⟩⟩

/-- **A table is the map that its history makes.** After any operations on an empty table, among
which a process is added only while no live job has it, the lookups find the jobs that were added and
not ended since, each as it was added but for the state it was last moved to; the size counts them;
and each is in the slot that was the lowest free one when it was added. -/
theorem recalls_after (pos : 1 ≤ c) (fresh : (empty c).AddsFresh ops) :
    Recalls c ((empty c).history ops) (after c ops) := by
  have reachable : Reachable c (after c ops) := ⟨ops, rfl⟩
  have sound := reachable.sound pos
  have distinct : (after c ops).Distinct :=
    (Distinct.empty c).performAll fresh (List.prefix_refl ops)
  have hpid (pid : Pid) (j : Job) : (after c ops).findByPid? pid = some j ↔
      j.pid = pid ∧ j ∈ (after c ops).jobs :=
    findByPid?_eq_some_iff distinct sound.valid
  have hid (i : Nat) (j : Job) : (after c ops).findById? i = some j ↔
      j.id = i ∧ j ∈ (after c ops).jobs :=
    findById?_eq_some_iff sound
  constructor
  case findByPid? =>
    intro pid j
    rw [hpid, mem_jobs_after_iff fresh]
  case findById? =>
    intro i j
    rw [hid, mem_jobs_after_iff fresh]
  case same =>
    intro j
    rw [hpid, hid]
    simp
  case pids =>
    refine ⟨(after c ops).jobs.map Job.pid, distinct, fun pid => ?_, (List.length_map _).symm⟩
    simp only [List.mem_map, mem_jobs_after_iff fresh, and_comm]
  case bound => exact Nat.le_trans (size_le_capacity _) (Nat.le_of_eq reachable.capacity)
  case isFull => rw [isFull_iff, reachable.capacity]
  case isEmpty => rw [isEmpty, List.isEmpty_iff, size, List.length_eq_zero_iff]
  case foreground? =>
    intro pid
    simp only [(oneForeground_after fresh).foreground?_eq_some_iff, mem_jobs_after_iff fresh]
  case slots => exact fun n j => slots_after_iff fresh
  case order => exact (after c ops).pairwise_jobs

/-- The second of three jobs ends, and the next one takes its slot; the third is moved to the
foreground and back. -/
theorem recalls_after_churn :
    let ops : List Op := [.add ⟨11⟩ .background "a &", .add ⟨12⟩ .stopped "b",
      .add ⟨13⟩ .background "c &", .setState ⟨13⟩ .foreground, .remove ⟨12⟩,
      .setState ⟨13⟩ .stopped, .add ⟨14⟩ .foreground "d"]
    (1 ≤ 3 ∧ (empty 3).AddsFresh ops) ∧ Recalls 3 ((empty 3).history ops) (after 3 ops) ∧
      (after 3 ops).jobs = [⟨1, ⟨11⟩, .background, "a &"⟩, ⟨2, ⟨14⟩, .foreground, "d"⟩,
        ⟨3, ⟨13⟩, .stopped, "c &"⟩] := by
  intro ops
  have fresh : (empty 3).AddsFresh ops := by decide
  exact ⟨⟨by decide, fresh⟩, recalls_after (by decide) fresh, by decide⟩

end JobControl.Table

import JobControl.Proofs.Table.History

/-!
# Table lemmas: what is refused, and what one slot becomes

* `Refuses` : the reasons for which a table refuses an operation, of which the first counts;
  `Misses` : there is nothing to remove;
* `Changes` : what an operation that succeeds replies, and which slot it sets;
* `admits_or_refuses`, `moves_or_refuses` : an operation that is not refused has what it needs;
* `exists_slotOf?`, `place_eq_set` : the updates of the slots set one of them;
* `perform_of_refuses`, `perform_of_misses`, `changes_perform` : what becomes of an operation;
* `refusals_of_reachable` : all this for every reachable table.
-/

set_option autoImplicit false

namespace JobControl.Table
open List

/-! ## Failing and succeeding -/

def Op.IsUpdate : Op → Prop
  | .add _ _ _ | .remove _ | .setState _ _ => True
  | _ => False

/-- The reason for which a table refuses an operation. A reason counts only where the ones before it
do not apply. -/
inductive Refuses (t : Table) : Op → Refusal → Prop where
  | invalidPid {pid : Pid} {state : Job.State} {line : String} : pid.val ≤ 0 →
      Refuses t (.add pid state line) (.invalidPid pid)
  | foreground {pid : Pid} {line : String} {owner : Pid} : 0 < pid.val →
      t.foreground? = some owner → Refuses t (.add pid .foreground line) (.foregroundBusy owner)
  | full {pid : Pid} {state : Job.State} {line : String} : 0 < pid.val →
      (state = .foreground → t.foreground? = none) → none ∉ t.slots →
      Refuses t (.add pid state line) .full
  | otherForeground {pid : Pid} {k : Job} : k ∈ t.jobs → k.state = .foreground → k.pid ≠ pid →
      Refuses t (.setState pid .foreground) (.foregroundBusy k.pid)
  | notFound {pid : Pid} {state : Job.State} :
      (state = .foreground → ∀ k ∈ t.jobs, k.state = .foreground → k.pid = pid) →
      (∀ k ∈ t.jobs, k.pid ≠ pid) → Refuses t (.setState pid state) (.notFound pid)

def Misses (t : Table) (op : Op) : Prop := ∃ pid, op = .remove pid ∧ ∀ k ∈ t.jobs, k.pid ≠ pid

def Fails (t : Table) (op : Op) : Prop := (∃ reason, t.Refuses op reason) ∨ t.Misses op

def slotOf? (t : Table) (pid : Pid) : Option Nat := t.slots.findIdx? (·.any (·.pid == pid))

/-- The table with one slot emptied. The next id is the one after the greatest still in use. -/
def vacated (t : Table) (n : Nat) : Table :=
  let rest : Table := { t with slots := t.slots.set n none }
  { rest with nextId := rest.idAfter rest.maxId }

/-- What an operation that succeeds replies, and the table that it leads to: one slot is set. -/
inductive Changes (t : Table) : Op → Reply → Table → Prop where
  | add {pid : Pid} {state : Job.State} {line : String} {i n : Nat} :
      t.freshId? = some i → t.lowestFree? = some n →
      Changes t (.add pid state line) (.added i)
        ⟨t.slots.set n (some ⟨i, pid, state, line⟩), t.idAfter i⟩
  | remove {pid : Pid} {j : Job} {n : Nat} :
      t.slotOf? pid = some n → t.slots[n]? = some (some j) →
      Changes t (.remove pid) (.removed (some j)) (t.vacated n)
  | setState {pid : Pid} {state : Job.State} {j : Job} {n : Nat} :
      t.slotOf? pid = some n → t.slots[n]? = some (some j) →
      Changes t (.setState pid state) .done ⟨t.slots.set n (some { j with state }), t.nextId⟩

variable {t t' : Table} {c : Nat} {pid : Pid} {state : Job.State} {line : String} {op : Op}
  {reply : Reply} {reason : Refusal}

theorem Changes.replies (h : t.Changes op reply t') :
    (∀ reason, reply ≠ .refused reason) ∧ reply ≠ .removed none := by
  cases h <;> simp

/-! ## One slot -/

theorem place_eq_set {slots : List (Option Job)} {n : Nat}
    (h : slots.findIdx? Option.isNone = some n) (j : Job) :
    place j slots = slots.set n (some j) := by
  induction slots generalizing n with
  | nil => cases h
  | cons slot slots ih =>
    cases slot with
    | none =>
      obtain rfl : n = 0 := by simpa [List.findIdx?_cons, eq_comm] using h
      rfl
    | some k =>
      obtain ⟨m, hm, rfl⟩ : ∃ m, slots.findIdx? Option.isNone = some m ∧ m + 1 = n := by
        simpa [List.findIdx?_cons] using h
      rw [place, ih hm, List.set_cons_succ]

/-- The slot of the first job of a process, which is the one that a revision sets. -/
theorem exists_slotOf? (found : ∃ k ∈ t.jobs, k.pid = pid) :
    ∃ n j, t.slotOf? pid = some n ∧ t.slots[n]? = some (some j) ∧
      t.jobs.find? (·.pid == pid) = some j ∧ ∀ f, revise pid f t.slots = t.slots.set n (f j) := by
  obtain ⟨k, hmem, hk⟩ := found
  obtain ⟨before, j, rest, he, hj, hb, hf⟩ := exists_revise (mem_jobs.1 hmem) hk
  have hbefore : before.findIdx? (·.any (·.pid == pid)) = none := by
    rw [List.findIdx?_eq_none_iff]
    rintro (_ | k') hk'
    · rfl
    · simpa using hb k' hk'
  have hjobs : ∀ k' ∈ before.filterMap id, k'.pid ≠ pid := fun k' hk' => hb k' (by simpa using hk')
  refine ⟨before.length, j, ?_, by simp [he], ?_, fun f => by rw [hf, he]; simp⟩
  · simp [slotOf?, he, List.findIdx?_append, hbefore, List.findIdx?_cons, hj]
  · rw [jobs, he, List.filterMap_append, List.find?_append,
      List.find?_eq_none.2 (by simpa using hjobs)]
    simp [hj]

/-! ## Refusals -/

theorem admits_or_refuses (t : Table) (pid : Pid) (state : Job.State) (line : String) :
    t.Admits pid state ∨ ∃ reason, t.Refuses (.add pid state line) reason := by
  by_cases valid : 0 < pid.val
  · by_cases calm : state = .foreground → t.foreground? = none
    · by_cases free : none ∈ t.slots
      · exact .inl ⟨valid, calm, isFull_eq_false.2 free⟩
      · exact .inr ⟨_, .full valid calm free⟩
    · obtain ⟨rfl, hbusy⟩ := Classical.not_imp.1 calm
      obtain ⟨owner, howner⟩ := Option.ne_none_iff_exists'.1 hbusy
      exact .inr ⟨_, .foreground valid howner⟩
  · exact .inr ⟨_, .invalidPid (Int.not_lt.1 valid)⟩

theorem moves_or_refuses (t : Table) (pid : Pid) (state : Job.State) :
    t.Moves pid state ∨ ∃ reason, t.Refuses (.setState pid state) reason := by
  by_cases calm : state = .foreground → ∀ k ∈ t.jobs, k.state = .foreground → k.pid = pid
  · by_cases found : ∃ k ∈ t.jobs, k.pid = pid
    · refine .inl ⟨fun hstate owner howner => ?_, found⟩
      obtain ⟨k, hk, rfl, hfg⟩ := foreground?_eq_some howner
      exact calm hstate k hk hfg
    · exact .inr ⟨_, .notFound calm fun k hk hpid => found ⟨k, hk, hpid⟩⟩
  · obtain ⟨rfl, hother⟩ := Classical.not_imp.1 calm
    obtain ⟨k, hk, hfg, hne⟩ : ∃ k ∈ t.jobs, k.state = .foreground ∧ k.pid ≠ pid := by
      simpa using hother
    exact .inr ⟨_, .otherForeground hk hfg hne⟩

theorem perform_of_refuses (h : Reachable c t) (refuses : t.Refuses op reason) :
    t.perform op = (.refused reason, t) := by
  cases refuses with
  | invalidPid invalid =>
    have hv : ¬ Pid.Valid _ := Int.not_lt.2 invalid
    simp [perform, add, hv]
  | foreground valid busy =>
    have hv : Pid.Valid _ := valid
    simp [perform, add, hv, busy]
  | @full pid state line valid calm noSlot =>
    have hv : Pid.Valid _ := valid
    have hcalm : (if state = .foreground then t.foreground? else none) = none := by
      split
      · next hstate => exact calm hstate
      · rfl
    have hfull : t.isFull = true := by
      rw [← Bool.not_eq_false, isFull_eq_false]
      exact noSlot
    simp [perform, add, hv, hcalm, hfull]
  | @otherForeground pid k hk hfg hne =>
    have hbusy : t.foreground? = some k.pid := (h.heldBy hk hfg).foreground?_eq hk hfg
    simp [perform, setState, hbusy, Option.filter, hne]
  | @notFound pid state calm missing =>
    have hcalm : (if state = .foreground then t.foreground?.filter (· ≠ pid) else none) = none := by
      split
      · next hstate =>
        rw [Option.filter_eq_none_iff]
        intro owner howner
        obtain ⟨k, hk, rfl, hfg⟩ := foreground?_eq_some howner
        simpa using calm hstate k hk hfg
      · rfl
    have hnone : t.jobs.any (·.pid == pid) = false := by simpa using missing
    simp only [perform, setState, hcalm, hnone]
    rfl

theorem perform_of_misses (misses : t.Misses op) : t.perform op = (.removed none, t) := by
  obtain ⟨pid, rfl, hnone⟩ := misses
  have hfind : t.findByPid? pid = none := by
    by_cases valid : pid.Valid
    · exact (findByPid?_eq_none valid).2 hnone
    · exact if_neg valid
  simp [perform, remove, hfind]

/-! ## Changes -/

theorem changes_perform (sound : t.Sound) (update : op.IsUpdate) (succeeds : ¬ t.Fails op) :
    t.Changes op (t.perform op).1 (t.perform op).2 := by
  have accepts : ∀ reason, ¬ t.Refuses op reason := fun reason h => succeeds (.inl ⟨reason, h⟩)
  cases op with
  | add pid state line =>
    rcases t.admits_or_refuses pid state line with admits | ⟨reason, refuses⟩
    · obtain ⟨i, hadd⟩ := sound.exists_add admits line
      obtain ⟨-, fresh, -⟩ := add_eq_ok_iff.1 hadd
      obtain ⟨n, hn⟩ := exists_lowestFree?_of_free admits.free
      have hplace := place_eq_set hn ⟨i, pid, state, line⟩
      simp only [perform, hadd, placed, hplace]
      exact .add fresh hn
    · exact absurd refuses (accepts reason)
  | remove pid =>
    have found : ∃ k ∈ t.jobs, k.pid = pid := by
      by_contra hnone
      exact succeeds (.inr ⟨pid, rfl, fun k hk hpid => hnone ⟨k, hk, hpid⟩⟩)
    obtain ⟨n, j, hn, hslot, hfind, hset⟩ := exists_slotOf? found
    have valid : pid.Valid := by
      obtain ⟨k, hk, rfl⟩ := found
      exact sound.valid k hk
    have hrem := remove_eq_some_iff.2 ⟨(if_pos valid).trans hfind, rfl⟩
    simp only [perform, hrem, removed, hset]
    exact .remove hn hslot
  | setState pid state =>
    rcases t.moves_or_refuses pid state with moves | ⟨reason, refuses⟩
    · obtain ⟨n, j, hn, hslot, -, hset⟩ := exists_slotOf? moves.found
      have hmove := setState_eq_ok_iff.2 ⟨moves, rfl⟩
      simp only [perform, hmove, moved, hset]
      exact .setState hn hslot
    · exact absurd refuses (accepts reason)
  | clear => exact update.elim
  | findByPid pid => exact update.elim
  | findById i => exact update.elim
  | list => exact update.elim

/-- **Refused operations.** In a reachable table, an operation that adds, removes or moves a job is
refused for a reason just if this is the first that applies, and finds nothing to remove just if no
live job has the process. It then leaves the table as it was. Otherwise it sets one slot: adding a job
fills the lowest free one, removing one empties the first of its process, and moving one rewrites the
state there. -/
theorem refusals_of_reachable (pos : 1 ≤ c) (h : Reachable c t) (update : op.IsUpdate) :
    (∀ reason, (t.perform op).1 = .refused reason ↔ t.Refuses op reason) ∧
    ((t.perform op).1 = .removed none ↔ t.Misses op) ∧
    (t.Fails op → (t.perform op).2 = t) ∧
    (¬ t.Fails op → t.Changes op (t.perform op).1 (t.perform op).2) := by
  have changes := changes_perform (h.sound pos) update
  refine ⟨fun reason => ⟨fun hreply => ?_, fun hr => by rw [perform_of_refuses h hr]⟩,
    ⟨fun hreply => ?_, fun hm => by rw [perform_of_misses hm]⟩, ?_, changes⟩
  · by_cases fails : t.Fails op
    · rcases fails with ⟨reason', hr⟩ | hm
      · rw [perform_of_refuses h hr] at hreply
        cases hreply
        exact hr
      · rw [perform_of_misses hm] at hreply
        cases hreply
    · exact absurd hreply ((changes fails).replies.1 reason)
  · by_cases fails : t.Fails op
    · rcases fails with ⟨reason', hr⟩ | hm
      · rw [perform_of_refuses h hr] at hreply
        cases hreply
      · exact hm
    · exact absurd hreply (changes fails).replies.2
  · rintro (⟨reason, hr⟩ | hm)
    · rw [perform_of_refuses h hr]
    · rw [perform_of_misses hm]

/-- Two jobs of one process around one in the foreground: the process is refused the foreground, and
only its first job is removed. -/
theorem refusals_of_repeated_process :
    let t := after 3 [.add ⟨7⟩ .stopped "a", .add ⟨8⟩ .foreground "b", .add ⟨7⟩ .background "c &"]
    (1 ≤ 3 ∧ Reachable 3 t ∧ (Op.setState ⟨7⟩ .foreground).IsUpdate ∧ (Op.remove ⟨7⟩).IsUpdate) ∧
      t.Refuses (.setState ⟨7⟩ .foreground) (.foregroundBusy ⟨8⟩) ∧
      (t.perform (.setState ⟨7⟩ .foreground)).2 = t ∧
      t.Changes (.remove ⟨7⟩) (.removed (some ⟨1, ⟨7⟩, .stopped, "a"⟩))
        ⟨[none, some ⟨2, ⟨8⟩, .foreground, "b"⟩, some ⟨3, ⟨7⟩, .background, "c &"⟩], 1⟩ := by
  intro t
  have reachable : Reachable 3 t := ⟨_, rfl⟩
  obtain ⟨refused, -, kept, -⟩ := refusals_of_reachable (by decide) reachable
    (show (Op.setState ⟨7⟩ .foreground).IsUpdate from trivial)
  obtain ⟨-, missed, -, changes⟩ := refusals_of_reachable (by decide) reachable
    (show (Op.remove ⟨7⟩).IsUpdate from trivial)
  have refuses := (refused (.foregroundBusy ⟨8⟩)).1 (by decide)
  have succeeds : ¬ t.Fails (.remove ⟨7⟩) := by
    rintro (⟨reason, refuses⟩ | misses)
    · cases refuses
    · exact absurd (missed.2 misses) (by decide)
  exact ⟨⟨by decide, reachable, trivial, trivial⟩, refuses, kept (.inl ⟨_, refuses⟩),
    changes succeeds⟩

end JobControl.Table

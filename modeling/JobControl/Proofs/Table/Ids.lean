import JobControl.Proofs.Table.Slots
import Mathlib.Algebra.Group.Nat.Defs
import Mathlib.Logic.Function.Iterate

/-!
# Table lemmas: job ids

* `Sound` : the ids in use are distinct and lie between 1 and the capacity, as does the counter, and
  every process is valid; `Sound.update` : every update keeps this;
* `Search` : the search for an id, step by step, with the additions it makes;
* `iterate_idAfter` : the ids that the search looks at, around the capacity;
* `Sound.exists_search` : with a free slot the search comes to an id that is not in use;
* `Reachable.sound` : all this for the table after any operations.
-/

set_option autoImplicit false

namespace JobControl.Table
open List

/-- What holds of every table that operations lead to. -/
structure Sound (t : Table) : Prop where
  nodup : t.ids.Nodup
  range : ∀ i ∈ t.ids, 1 ≤ i ∧ i ≤ t.capacity
  valid : ∀ k ∈ t.jobs, k.pid.Valid
  counter : 1 ≤ t.nextId ∧ t.nextId ≤ t.capacity

def Fits (n : Nat) : Prop := n < 2 ^ 32

/-- Looking from id `i` on, the search passes over `n` ids in use and stops at `r`. -/
inductive Search (t : Table) : Nat → Nat → Nat → Prop where
  | stop {i : Nat} : t.findById? i = none → Search t i 0 i
  | pass {i n r : Nat} : (t.findById? i).isSome → Search t (t.idAfter i) n r → Search t i (n + 1) r

/-! ## Counting around -/

theorem idAfter_range {t : Table} (hc : 1 ≤ t.capacity) (i : Nat) :
    1 ≤ t.idAfter i ∧ t.idAfter i ≤ t.capacity := by
  unfold idAfter
  split <;> omega

/-- The ids from `i` on, counted around from the capacity to 1. -/
theorem iterate_idAfter {t : Table} {i : Nat} (hi : 1 ≤ i ∧ i ≤ t.capacity) (n : Nat) :
    t.idAfter^[n] i = (i - 1 + n) % t.capacity + 1 := by
  induction n with
  | zero =>
    rw [Function.iterate_zero_apply, Nat.add_zero, Nat.mod_eq_of_lt (by omega)]
    omega
  | succ n ih =>
    have hlt : (i - 1 + n) % t.capacity < t.capacity := Nat.mod_lt _ (by omega)
    rw [Function.iterate_succ_apply', ih, ← Nat.add_assoc (i - 1) n 1,
      ← Nat.mod_add_mod (i - 1 + n) t.capacity 1]
    unfold idAfter
    by_cases h : (i - 1 + n) % t.capacity + 1 = t.capacity
    · rw [if_pos (by omega), h, Nat.mod_self]
    · have hmod : ((i - 1 + n) % t.capacity + 1) % t.capacity = (i - 1 + n) % t.capacity + 1 :=
        Nat.mod_eq_of_lt (by omega)
      rw [if_neg (by omega), hmod]

/-- Counting around reaches every id in less than a whole turn. -/
theorem exists_iterate_idAfter {t : Table} {i g : Nat} (hi : 1 ≤ i ∧ i ≤ t.capacity)
    (hg : 1 ≤ g ∧ g ≤ t.capacity) : ∃ n < t.capacity, t.idAfter^[n] i = g := by
  by_cases h : i ≤ g
  · refine ⟨g - i, by omega, ?_⟩
    rw [iterate_idAfter hi, show i - 1 + (g - i) = g - 1 by omega, Nat.mod_eq_of_lt (by omega)]
    omega
  · refine ⟨g + t.capacity - i, by omega, ?_⟩
    rw [iterate_idAfter hi, show i - 1 + (g + t.capacity - i) = g - 1 + t.capacity by omega,
      Nat.add_mod_right, Nat.mod_eq_of_lt (by omega)]
    omega

/-! ## The search -/

/-- Fewer ids in use than `c` leave one up to `c`. -/
theorem exists_unused {ids : List Nat} {c : Nat} (h : ids.length < c) :
    ∃ g, (1 ≤ g ∧ g ≤ c) ∧ g ∉ ids := by
  by_contra hall
  have hsub : List.range' 1 c ⊆ ids := by
    intro g hg
    by_contra hn
    exact hall ⟨g, by rw [List.mem_range'_1] at hg; omega, hn⟩
  have hle := List.Nodup.length_le_of_subset List.nodup_range' hsub
  rw [List.length_range'] at hle
  omega

theorem Search.free {t : Table} {i r : Nat} {n : Nat} (h : t.Search i n r) :
    t.findById? r = none := by
  induction h with
  | stop h => exact h
  | pass _ _ ih => exact ih

theorem Search.iterate {t : Table} {i r : Nat} {n : Nat} (h : t.Search i n r) :
    r = t.idAfter^[n] i := by
  induction h with
  | stop _ => rfl
  | pass _ _ ih => rw [Function.iterate_succ_apply]; exact ih

/-- The search with a bound on the ids looked at is the search, if the bound is large enough. -/
theorem Search.firstFree {t : Table} {i r : Nat} {n m : Nat} (h : t.Search i n r) (hm : n < m) :
    t.firstFree m i = some r := by
  induction h generalizing m with
  | stop h =>
    obtain ⟨m, rfl⟩ : ∃ k, m = k + 1 := ⟨m - 1, by omega⟩
    simp [Table.firstFree, h]
  | @pass i n r h _ ih =>
    obtain ⟨m, rfl⟩ : ∃ k, m = k + 1 := ⟨m - 1, by omega⟩
    have hne : (t.findById? i).isNone = false := by
      rw [← Option.not_isSome, h]
      rfl
    rw [Table.firstFree, hne]
    exact ih (by omega)

/-- The search stops at the latest where it comes to an id that is not in use. -/
theorem exists_search {t : Table} {n i : Nat} (free : t.findById? (t.idAfter^[n] i) = none) :
    ∃ m ≤ n, ∃ r, t.Search i m r := by
  induction n generalizing i with
  | zero => exact ⟨0, Nat.le_refl 0, i, .stop free⟩
  | succ n ih =>
    cases h : t.findById? i with
    | none => exact ⟨0, by omega, i, .stop h⟩
    | some k =>
      obtain ⟨m, hm, r, hr⟩ := ih (i := t.idAfter i) free
      exact ⟨m + 1, by omega, r, .pass (by rw [h]; rfl) hr⟩

section Sound
variable {t t' : Table}

theorem Sound.capacity_pos (h : t.Sound) : 1 ≤ t.capacity := Nat.le_trans h.counter.1 h.counter.2

theorem Sound.iterate_range (h : t.Sound) (n : Nat) :
    1 ≤ t.idAfter^[n] t.nextId ∧ t.idAfter^[n] t.nextId ≤ t.capacity := by
  have hlt := Nat.mod_lt (t.nextId - 1 + n) h.capacity_pos
  rw [iterate_idAfter h.counter]
  omega

/-- With a free slot, the search for an id comes to one that is not in use. -/
theorem Sound.exists_search (h : t.Sound) (free : t.isFull = false) :
    ∃ n < t.capacity, ∃ i, t.Search t.nextId n i ∧ (1 ≤ i ∧ i ≤ t.capacity) ∧ i ∉ t.ids := by
  have hlt : t.ids.length < t.capacity := by simpa [ids, size] using size_lt_capacity free
  obtain ⟨g, hg, hfree⟩ := exists_unused hlt
  obtain ⟨n, hn, hng⟩ := exists_iterate_idAfter h.counter hg
  have hstop : t.findById? (t.idAfter^[n] t.nextId) = none := by
    rw [hng, findById?_eq_none hg.1]
    exact hfree
  obtain ⟨m, hm, i, hi⟩ := Table.exists_search hstop
  have hr : 1 ≤ i ∧ i ≤ t.capacity := by rw [hi.iterate]; exact h.iterate_range m
  exact ⟨m, by omega, i, hi, hr, (findById?_eq_none hr.1).1 hi.free⟩

/-! ## The greatest id -/

theorem maxId_eq_zero (h : t.ids = []) : t.maxId = 0 := by
  simp [maxId, h]

theorem maxId_eq {m : Nat} (hm : m ∈ t.ids) (hle : ∀ i ∈ t.ids, i ≤ m) : t.maxId = m := by
  have : t.ids.max? = some m := List.max?_eq_some_iff.2 ⟨hm, hle⟩
  simp [maxId, this]

/-- Either no id is in use, or the greatest one is. -/
theorem maxId_cases (t : Table) :
    (t.ids = [] ∧ t.maxId = 0) ∨ (t.maxId ∈ t.ids ∧ ∀ i ∈ t.ids, i ≤ t.maxId) := by
  cases h : t.ids.max? with
  | none =>
    have hnil := List.max?_eq_none_iff.1 h
    exact .inl ⟨hnil, maxId_eq_zero hnil⟩
  | some m =>
    obtain ⟨hm, hle⟩ := List.max?_eq_some_iff.1 h
    rw [maxId_eq hm hle]
    exact .inr ⟨hm, hle⟩

theorem le_maxId {i : Nat} (hi : i ∈ t.ids) : i ≤ t.maxId := by
  rcases t.maxId_cases with ⟨hnil, -⟩ | ⟨-, hle⟩
  · simp [hnil] at hi
  · exact hle i hi

theorem Sound.maxId_le (h : t.Sound) : t.maxId ≤ t.capacity := by
  rcases t.maxId_cases with ⟨-, hz⟩ | ⟨hmem, -⟩
  · omega
  · exact (h.range _ hmem).2

/-! ## What updates keep -/

theorem ids_placed (free : t.isFull = false) (j : Job) : (t.placed j).ids ~ j.id :: t.ids :=
  (jobs_placed free j).map Job.id

theorem ids_removed {pid : Pid} {j : Job} (h : t.findByPid? pid = some j) :
    t.ids ~ j.id :: (t.removed pid).ids := by
  obtain ⟨before, after, hjobs, -, hrest⟩ := jobs_removed h
  have hperm : t.jobs ~ j :: (t.removed pid).jobs := by
    rw [hjobs, hrest]
    exact List.perm_middle
  exact hperm.map Job.id

theorem ids_moved {pid : Pid} {state : Job.State} (h : t.Moves pid state) :
    (t.moved pid state).ids = t.ids := by
  obtain ⟨before, k, after, hjobs, -, -, hmoved⟩ := jobs_moved h.found state
  simp [ids, hjobs, hmoved]

theorem Sound.empty {c : Nat} (hc : 1 ≤ c) : (empty c).Sound where
  nodup := by simp [ids]
  range := by simp [ids]
  valid := by simp
  counter := by simpa [Table.empty, capacity] using hc

theorem Sound.placed (h : t.Sound) (free : t.isFull = false) {j : Job} (valid : j.pid.Valid)
    (range : 1 ≤ j.id ∧ j.id ≤ t.capacity) (fresh : j.id ∉ t.ids) : (t.placed j).Sound where
  nodup := (ids_placed free j).nodup_iff.2 (List.nodup_cons.2 ⟨fresh, h.nodup⟩)
  range := by
    intro i hi
    rw [capacity_placed]
    rcases List.mem_cons.1 ((ids_placed free j).mem_iff.1 hi) with rfl | hi
    · exact range
    · exact h.range i hi
  valid := by
    intro k hk
    rcases List.mem_cons.1 ((jobs_placed free j).mem_iff.1 hk) with rfl | hk
    · exact valid
    · exact h.valid k hk
  counter := by
    rw [capacity_placed]
    exact idAfter_range h.capacity_pos j.id

theorem Sound.removed (h : t.Sound) {pid : Pid} {j : Job} (found : t.findByPid? pid = some j) :
    (t.removed pid).Sound where
  nodup := (List.nodup_cons.1 ((ids_removed found).nodup_iff.1 h.nodup)).2
  range := by
    intro i hi
    rw [capacity_removed]
    exact h.range i ((ids_removed found).mem_iff.2 (List.mem_cons_of_mem _ hi))
  valid := by
    obtain ⟨before, after, hjobs, -, hrest⟩ := jobs_removed found
    intro k hk
    refine h.valid k ?_
    rw [hrest, List.mem_append] at hk
    simp only [hjobs, List.mem_append, List.mem_cons]
    tauto
  counter := by
    rw [nextId_removed]
    exact idAfter_range (by rw [capacity_removed]; exact h.capacity_pos) _

theorem Sound.moved (h : t.Sound) {pid : Pid} {state : Job.State} (moves : t.Moves pid state) :
    (t.moved pid state).Sound where
  nodup := by rw [ids_moved moves]; exact h.nodup
  range := by rw [ids_moved moves, capacity_moved]; exact h.range
  valid := by
    obtain ⟨before, j, after, hjobs, -, -, hmoved⟩ := jobs_moved moves.found state
    intro k hk
    simp only [hmoved, List.mem_append, List.mem_cons] at hk
    have hold : ∀ k' ∈ before ++ j :: after, k'.pid.Valid := by
      rw [← hjobs]
      exact h.valid
    rcases hk with hk | rfl | hk
    · exact hold k (by simp [hk])
    · exact hold j (by simp)
    · exact hold k (by simp [hk])
  counter := by rw [capacity_moved]; exact h.counter

theorem Sound.fresh (h : t.Sound) (free : t.isFull = false) {i : Nat} (hi : t.freshId? = some i) :
    (1 ≤ i ∧ i ≤ t.capacity) ∧ i ∉ t.ids := by
  obtain ⟨n, hn, r, hs, hr⟩ := h.exists_search free
  have : t.freshId? = some r := hs.firstFree hn
  rw [hi] at this
  cases this
  exact hr

/-- A sound table adds every job that it admits. -/
theorem Sound.exists_add (h : t.Sound) {pid : Pid} {state : Job.State} (admits : t.Admits pid state)
    (line : String) : ∃ i, t.add pid state line = .ok (i, t.placed ⟨i, pid, state, line⟩) := by
  obtain ⟨n, hn, i, hs, -, -⟩ := h.exists_search admits.free
  exact ⟨i, add_eq_ok_iff.2 ⟨admits, hs.firstFree hn, rfl⟩⟩

/-- Every update leads from a sound table to a sound one. -/
theorem Sound.update (h : t.Sound) (hu : t.Update t') : t'.Sound := by
  cases hu with
  | none => exact h
  | add admits fresh =>
    obtain ⟨range, unused⟩ := h.fresh admits.free fresh
    exact h.placed admits.free admits.valid range unused
  | remove found => exact h.removed found
  | move moves => exact h.moved moves
  | clear => exact .empty h.capacity_pos

end Sound

theorem Reachable.sound {c : Nat} {t : Table} (h : Reachable c t) (pos : 1 ≤ c) : t.Sound :=
  h.induction (.empty pos) fun _ _ ih hu => ih.update hu

/-- **Job ids of a reachable table.** They are distinct and lie between 1 and the capacity, as does
the counter, and every process is valid. A job that the table admits is added, under an id not in
use, which the search comes to after passing over less than `c` ids. With less than 2³² - 1 slots,
every number that the search or a removal adds 1 to stays within 32 bits. -/
theorem job_ids_of_reachable {c : Nat} (pos : 1 ≤ c) (small : c < 2 ^ 32 - 1) {t : Table}
    (h : Reachable c t) :
    (t.ids.Nodup ∧ (∀ i ∈ t.ids, 1 ≤ i ∧ i ≤ c) ∧ (∀ k ∈ t.jobs, k.pid.Valid) ∧
      1 ≤ t.nextId ∧ t.nextId ≤ c) ∧
    (∀ pid state line, t.Admits pid state → ∃ n ≤ c - 1, ∃ i, t.Search t.nextId n i ∧ i ∉ t.ids ∧
      (∀ m ≤ n, Fits (t.idAfter^[m] t.nextId + 1)) ∧
      ∃ t', t.add pid state line = .ok (i, t')) ∧
    (∀ pid j t', t.remove pid = some (j, t') → Fits (t'.maxId + 1)) := by
  have sound := h.sound pos
  have hcap := h.capacity
  refine ⟨⟨sound.nodup, hcap ▸ sound.range, sound.valid, hcap ▸ sound.counter⟩, ?_, ?_⟩
  · intro pid state line admits
    obtain ⟨n, hn, i, hs, hi, hfree⟩ := sound.exists_search admits.free
    refine ⟨n, by omega, i, hs, hfree, ?_, _, add_eq_ok_iff.2 ⟨admits, hs.firstFree hn, rfl⟩⟩
    intro m _
    have hr := sound.iterate_range m
    unfold Fits
    omega
  · intro pid j t' hrem
    obtain ⟨found, rfl⟩ := remove_eq_some_iff.1 hrem
    have hle := (sound.removed found).maxId_le
    rw [capacity_removed, hcap] at hle
    unfold Fits
    omega

/-- Three jobs, of which the second is gone: the counter is back at 1, the search passes over 1. -/
theorem job_ids_after_churn :
    let ops : List Op := [.add ⟨11⟩ .background "a &", .add ⟨12⟩ .stopped "b",
      .add ⟨13⟩ .background "c &", .remove ⟨12⟩]
    (1 ≤ 3 ∧ 3 < 2 ^ 32 - 1 ∧ Reachable 3 (after 3 ops) ∧ (after 3 ops).Admits ⟨14⟩ .foreground) ∧
      ∃ n ≤ 3 - 1, ∃ i, (after 3 ops).Search (after 3 ops).nextId n i ∧ i ∉ (after 3 ops).ids ∧
        (∀ m ≤ n, Fits ((after 3 ops).idAfter^[m] (after 3 ops).nextId + 1)) ∧
        ∃ t', (after 3 ops).add ⟨14⟩ .foreground "d" = .ok (i, t') := by
  intro ops
  have admits : (after 3 ops).Admits ⟨14⟩ .foreground := ⟨by decide, by decide, by decide⟩
  exact ⟨⟨by decide, by decide, ⟨ops, rfl⟩, admits⟩,
    (job_ids_of_reachable (by decide) (by decide) ⟨ops, rfl⟩).2.1 ⟨14⟩ .foreground "d" admits⟩

end JobControl.Table

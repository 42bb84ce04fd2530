import JobControl.Proofs.Table.Numbering

/-!
# Table lemmas: what a table remembers

* `revise_place` : taking out the job that was put in leaves the slots as they were;
* `Alike` : two reachable tables with the same slots, whatever their counters;
* `Alike.freshId?` : they look for an id with the same success;
* `Alike.perform` : they give the same reply to an operation, and stay alike;
  `Alike.performAll` : and so on for operations one after another;
* `add_remove_unobservable` : so adding a job and removing it again leaves no trace.
-/

set_option autoImplicit false

namespace JobControl.Table
open List

/-! ## In and out again -/

/-- Where no other job has its process, the job put into the lowest free slot is the one taken
out. -/
theorem revise_place {slots : List (Option Job)} {j : Job}
    (fresh : ∀ k, some k ∈ slots → k.pid ≠ j.pid) :
    revise j.pid (fun _ => none) (place j slots) = slots := by
  induction slots with
  | nil => rfl
  | cons slot slots ih =>
    cases slot with
    | none => simp [place, revise]
    | some k =>
      have hk : k.pid ≠ j.pid := fresh k List.mem_cons_self
      have hrest : ∀ k', some k' ∈ slots → k'.pid ≠ j.pid :=
        fun k' hk' => fresh k' (List.mem_cons_of_mem _ hk')
      simp [place, revise, hk, ih hrest]

theorem findByPid?_placed {t : Table} {j : Job} (valid : j.pid.Valid) (free : t.isFull = false)
    (fresh : ∀ k ∈ t.jobs, k.pid ≠ j.pid) : (t.placed j).findByPid? j.pid = some j := by
  cases hfind : (t.placed j).findByPid? j.pid with
  | none =>
    have hne := (findByPid?_eq_none valid).1 hfind j
    exact absurd rfl (hne ((jobs_placed free j).mem_iff.2 List.mem_cons_self))
  | some k =>
    obtain ⟨-, hk, hpid⟩ := findByPid?_eq_some hfind
    rcases List.mem_cons.1 ((jobs_placed free j).mem_iff.1 hk) with rfl | hk
    · rfl
    · exact absurd hpid (fresh k hk)

/-! ## Tables with the same slots -/

/-- Two tables of `c` slots that operations lead to, with the same slots. -/
structure Alike (c : Nat) (t u : Table) : Prop where
  left : Reachable c t
  right : Reachable c u
  slots : u.slots = t.slots

namespace Alike
variable {c : Nat} {t u : Table}

theorem jobs (h : Alike c t u) : u.jobs = t.jobs := by
  unfold Table.jobs
  rw [h.slots]

theorem capacity (h : Alike c t u) : u.capacity = t.capacity := by
  unfold Table.capacity
  rw [h.slots]

theorem isFull (h : Alike c t u) : u.isFull = t.isFull := by
  unfold Table.isFull
  rw [h.slots]

theorem foreground? (h : Alike c t u) : u.foreground? = t.foreground? := by
  unfold Table.foreground?
  rw [h.jobs]

theorem findByPid? (h : Alike c t u) (pid : Pid) : u.findByPid? pid = t.findByPid? pid := by
  unfold Table.findByPid?
  rw [h.jobs]

theorem findById? (h : Alike c t u) (i : Nat) : u.findById? i = t.findById? i := by
  unfold Table.findById?
  rw [h.jobs]

theorem listing (h : Alike c t u) : u.listing = t.listing := by
  unfold Table.listing
  rw [h.jobs]

/-- The id that is found depends on the ids in use, not on the counter. -/
theorem freshId? (h : Alike c t u) (free : t.isFull = false) : u.freshId? = t.freshId? := by
  have hpos : 1 ≤ c := by
    have hlt := size_lt_capacity free
    rw [h.left.capacity] at hlt
    omega
  have hids : u.ids = t.ids := by
    unfold ids
    rw [h.jobs]
  have hmax : u.maxId = t.maxId := maxId_congr (by simp [hids])
  have hcap := h.capacity
  have ht := h.left.counted hpos
  have hu := h.right.counted hpos
  rcases Nat.lt_or_eq_of_le (h.left.sound hpos).maxId_le with hlt | heq
  · rw [ht.freshId?_of_lt hlt, hu.freshId?_of_lt (by omega), hmax]
  · obtain ⟨g, hg⟩ := exists_isLeast_free free
    rw [ht.freshId?_of_eq (h.left.sound hpos).counter.1 heq hg]
    refine hu.freshId?_of_eq (h.right.sound hpos).counter.1 (by omega) ?_
    rw [hids, hcap]
    exact hg

theorem add (h : Alike c t u) (pid : Pid) (state : Job.State) (line : String) :
    u.add pid state line = t.add pid state line := by
  unfold Table.add
  rw [h.foreground?, h.isFull]
  cases hfull : t.isFull with
  | true => rfl
  | false =>
    have hafter (i : Nat) : u.idAfter i = t.idAfter i := by
      unfold idAfter
      rw [h.capacity]
    simp only [h.freshId? hfull, h.slots, hafter]

theorem remove (h : Alike c t u) (pid : Pid) : u.remove pid = t.remove pid := by
  unfold Table.remove
  rw [h.findByPid?, h.slots]
  rfl

/-- A change of state is refused for the same reason, or leaves the slots the same. -/
theorem setState (h : Alike c t u) (pid : Pid) (state : Job.State) :
    (∃ reason, t.setState pid state = .error reason ∧ u.setState pid state = .error reason) ∨
      ∃ t' u', t.setState pid state = .ok t' ∧ u.setState pid state = .ok u' ∧
        u'.slots = t'.slots := by
  unfold Table.setState
  rw [h.foreground?, h.jobs, h.slots]
  split
  · exact .inl ⟨_, rfl, rfl⟩
  · split
    · exact .inr ⟨_, _, rfl, rfl, rfl⟩
    · exact .inl ⟨_, rfl, rfl⟩

/-- Alike tables give the same reply, and are alike afterwards. -/
theorem perform (h : Alike c t u) (op : Op) :
    (u.perform op).1 = (t.perform op).1 ∧ Alike c (t.perform op).2 (u.perform op).2 := by
  suffices hsame : (u.perform op).1 = (t.perform op).1 ∧
      (u.perform op).2.slots = (t.perform op).2.slots from
    ⟨hsame.1, h.left.perform op, h.right.perform op, hsame.2⟩
  cases op with
  | add pid state line =>
    simp only [Table.perform, h.add]
    cases t.add pid state line with
    | error reason => exact ⟨rfl, h.slots⟩
    | ok answer => exact ⟨rfl, rfl⟩
  | remove pid =>
    simp only [Table.perform, h.remove]
    cases t.remove pid with
    | none => exact ⟨rfl, h.slots⟩
    | some answer => exact ⟨rfl, rfl⟩
  | setState pid state =>
    rcases h.setState pid state with ⟨reason, ht, hu⟩ | ⟨t', u', ht, hu, hslots⟩
    · simp only [Table.perform, ht, hu]
      exact ⟨trivial, h.slots⟩
    · simp only [Table.perform, ht, hu]
      exact ⟨trivial, hslots⟩
  | clear => simp only [Table.perform, Table.clear, h.capacity, and_self]
  | findByPid pid => exact ⟨congrArg Reply.found (h.findByPid? pid), h.slots⟩
  | findById i => exact ⟨congrArg Reply.found (h.findById? i), h.slots⟩
  | list => exact ⟨congrArg Reply.listing h.listing, h.slots⟩

theorem performAll (h : Alike c t u) (ops : List Op) :
    (u.performAll ops).1 = (t.performAll ops).1 ∧
      Alike c (t.performAll ops).2 (u.performAll ops).2 := by
  induction ops generalizing t u with
  | nil => exact ⟨rfl, h⟩
  | cons op ops ih =>
    obtain ⟨hreply, hnext⟩ := h.perform op
    obtain ⟨hreplies, hlast⟩ := ih hnext
    refine ⟨?_, hlast⟩
    simp only [Table.performAll, hreply, hreplies]

end Alike

/-- **In and out again.** A job of a process that no live job has is added and handed back by the
removal that follows. The slots are then as they were, and every sequence of operations gets the
replies, and leaves the slots, that it would have without the two, though the counter may differ. -/
theorem add_remove_unobservable {c : Nat} {t t' : Table} (h : Reachable c t) {pid : Pid}
    {state : Job.State} {line : String} {i : Nat} (fresh : ∀ k ∈ t.jobs, k.pid ≠ pid)
    (ok : t.add pid state line = .ok (i, t')) :
    ∃ u, t'.remove pid = some (⟨i, pid, state, line⟩, u) ∧ u.slots = t.slots ∧
      ∀ ops, (u.performAll ops).1 = (t.performAll ops).1 ∧
        (u.performAll ops).2.slots = (t.performAll ops).2.slots := by
  obtain ⟨admits, -, ht'⟩ := add_eq_ok_iff.1 ok
  have hfound : t'.findByPid? pid = some ⟨i, pid, state, line⟩ := by
    rw [ht']
    exact findByPid?_placed admits.valid admits.free fresh
  have hremove : t'.remove pid = some (⟨i, pid, state, line⟩, t'.removed pid) :=
    remove_eq_some_iff.2 ⟨hfound, rfl⟩
  have hslots : (t'.removed pid).slots = t.slots := by
    rw [ht']
    exact revise_place (j := ⟨i, pid, state, line⟩) fun k hk => fresh k (mem_jobs.2 hk)
  have hreachable : Reachable c (t'.removed pid) := by
    have hadded := h.perform (.add pid state line)
    simp only [perform, ok] at hadded
    have hremoved := hadded.perform (.remove pid)
    simpa only [perform, hremove] using hremoved
  have halike : Alike c t (t'.removed pid) := ⟨h, hreachable, hslots⟩
  refine ⟨t'.removed pid, hremove, hslots, fun ops => ?_⟩
  obtain ⟨hreplies, hlast⟩ := halike.performAll ops
  exact ⟨hreplies, hlast.slots⟩

/-- The counter was at 2 and is at 1 after the round trip; the ids given afterwards are the same. -/
theorem add_remove_resets_counter :
    let t := after 3 [.add ⟨11⟩ .background "a &", .add ⟨12⟩ .stopped "b",
      .add ⟨13⟩ .background "c &", .remove ⟨11⟩, .remove ⟨12⟩, .add ⟨14⟩ .stopped "d"]
    let t' := t.placed ⟨2, ⟨15⟩, .foreground, "e"⟩
    (Reachable 3 t ∧ (∀ k ∈ t.jobs, k.pid ≠ ⟨15⟩) ∧
      t.add ⟨15⟩ .foreground "e" = .ok (2, t') ∧ t.nextId = 2 ∧ (t'.removed ⟨15⟩).nextId = 1) ∧
    ∃ u, t'.remove ⟨15⟩ = some (⟨2, ⟨15⟩, .foreground, "e"⟩, u) ∧ u.slots = t.slots ∧
      ∀ ops, (u.performAll ops).1 = (t.performAll ops).1 ∧
        (u.performAll ops).2.slots = (t.performAll ops).2.slots := by
  intro t t'
  have ht : Reachable 3 t := ⟨_, rfl⟩
  have fresh : ∀ k ∈ t.jobs, k.pid ≠ ⟨15⟩ := by decide
  have ok : t.add ⟨15⟩ .foreground "e" = .ok (2, t') := rfl
  exact ⟨⟨ht, fresh, ok, rfl, rfl⟩, add_remove_unobservable ht fresh ok⟩

end JobControl.Table

import JobControl.Proofs.Table.Ids

/-!
# Table lemmas: updates of different processes commute

* `revise_comm`, `find?_revise` : what becomes of the job of one process, that of another does not
  see;
* `findByPid?_removed`, `findByPid?_moved` : lookups are the same after them;
* `removed_removed`, `moved_moved`, `moved_removed` : the updates commute, the counter included.
-/

set_option autoImplicit false

namespace JobControl.Table

/-! ## Slots -/

theorem revise_cons_self {pid : Pid} {k : Job} (h : k.pid = pid) (f : Job → Option Job)
    (slots : List (Option Job)) : revise pid f (some k :: slots) = f k :: slots := by
  simp [revise, h]

theorem revise_cons_of_ne {pid : Pid} {slot : Option Job} (h : ∀ k ∈ slot, k.pid ≠ pid)
    (f : Job → Option Job) (slots : List (Option Job)) :
    revise pid f (slot :: slots) = slot :: revise pid f slots := by
  cases slot with
  | none => rfl
  | some k => simp [revise, h k rfl]

/-- What becomes of a job has the process of the job. -/
def KeepsPid (f : Job → Option Job) : Prop := ∀ k, ∀ k' ∈ f k, k'.pid = k.pid

theorem keepsPid_none : KeepsPid fun _ => none := by
  intro k k' h
  cases h

theorem keepsPid_state (state : Job.State) : KeepsPid fun k => some { k with state } := by
  intro k k' h
  cases h
  rfl

variable {p q : Pid}

theorem revise_comm {f g : Job → Option Job} (hpq : p ≠ q) (hf : KeepsPid f) (hg : KeepsPid g)
    (slots : List (Option Job)) :
    revise p f (revise q g slots) = revise q g (revise p f slots) := by
  induction slots with
  | nil => rfl
  | cons slot slots ih =>
    cases slot with
    | none => simp only [revise, ih]
    | some k =>
      by_cases hp : k.pid = p
      · have hq : ∀ k' ∈ some k, k'.pid ≠ q := by
          intro k' hk'
          cases hk'
          rwa [hp]
        have hfq : ∀ k' ∈ f k, k'.pid ≠ q := by
          intro k' hk'
          rwa [hf k k' hk', hp]
        rw [revise_cons_of_ne hq, revise_cons_self hp, revise_cons_self hp, revise_cons_of_ne hfq]
      · by_cases hq : k.pid = q
        · have hgp : ∀ k' ∈ g k, k'.pid ≠ p := by
            intro k' hk'
            rwa [hg k k' hk']
          have hkp : ∀ k' ∈ some k, k'.pid ≠ p := by
            intro k' hk'
            cases hk'
            exact hp
          rw [revise_cons_self hq, revise_cons_of_ne hgp, revise_cons_of_ne hkp,
            revise_cons_self hq]
        · simp only [revise, if_neg hp, if_neg hq, ih]

theorem find?_revise {f : Job → Option Job} (hpq : p ≠ q) (hf : KeepsPid f)
    (slots : List (Option Job)) :
    ((revise p f slots).filterMap id).find? (·.pid == q) =
      (slots.filterMap id).find? (·.pid == q) := by
  induction slots with
  | nil => rfl
  | cons slot slots ih =>
    cases slot with
    | none => exact ih
    | some k =>
      by_cases hp : k.pid = p
      · have hq : (k.pid == q) = false := by simpa [hp] using hpq
        rw [revise_cons_self hp]
        cases hfk : f k with
        | none => simp [hq]
        | some k' =>
          have hq' : (k'.pid == q) = false := by
            rw [hf k k' hfk]
            exact hq
          simp [hq, hq']
      · have hcons (rest : List (Option Job)) :
            (some k :: rest).filterMap id = k :: rest.filterMap id := rfl
        simp only [revise, if_neg hp, hcons, List.find?_cons, ih]

/-! ## Updates -/

variable {t : Table}

theorem findByPid?_removed (hpq : p ≠ q) : (t.removed p).findByPid? q = t.findByPid? q := by
  unfold findByPid?
  split
  · exact find?_revise hpq keepsPid_none t.slots
  · rfl

theorem findByPid?_moved (hpq : p ≠ q) (state : Job.State) :
    (t.moved p state).findByPid? q = t.findByPid? q := by
  unfold findByPid?
  split
  · exact find?_revise hpq (keepsPid_state state) t.slots
  · rfl

/-- The id after the greatest one in use depends on the slots only. -/
theorem idAfter_maxId {u : Table} (h : t.slots = u.slots) :
    t.idAfter t.maxId = u.idAfter u.maxId := by
  cases t
  cases u
  cases h
  rfl

theorem removed_removed (hpq : p ≠ q) :
    (t.removed p).removed q = (t.removed q).removed p := by
  have hslots : ((t.removed p).removed q).slots = ((t.removed q).removed p).slots :=
    (revise_comm hpq keepsPid_none keepsPid_none t.slots).symm
  have hnext : ((t.removed p).removed q).nextId = ((t.removed q).removed p).nextId :=
    idAfter_maxId hslots
  exact congrArg₂ Table.mk hslots hnext

theorem moved_moved (hpq : p ≠ q) (state state' : Job.State) :
    (t.moved p state).moved q state' = (t.moved q state').moved p state := by
  unfold moved
  rw [revise_comm hpq (keepsPid_state state) (keepsPid_state state')]

/-- The counter starts again from the ids in use, which no change of state touches. -/
theorem moved_removed (hpq : p ≠ q) {state : Job.State} (moves : (t.removed q).Moves p state) :
    (t.moved p state).removed q = (t.removed q).moved p state := by
  have hslots : ((t.moved p state).removed q).slots = ((t.removed q).moved p state).slots :=
    (revise_comm hpq (keepsPid_state state) keepsPid_none t.slots).symm
  have hids : ((t.moved p state).removed q).ids = (t.removed q).ids := by
    rw [← ids_moved moves]
    simp only [ids, jobs, hslots]
  have hnext : ((t.moved p state).removed q).nextId = (t.removed q).nextId := by
    simp only [nextId_removed, idAfter, maxId, hids, capacity_removed, capacity_moved]
  exact congrArg₂ Table.mk hslots hnext

end JobControl.Table

import JobControl.Proofs.Table.Ids
import Mathlib.Data.Nat.Find
import Mathlib.Order.Bounds.Basic

/-!
# Table lemmas: which id a job gets

* `Counted` : below the capacity the counter is one more than the greatest id in use; once the
  capacity is in use, every id below the counter is;
* `freshId?_of_lt`, `freshId?_of_eq` : the search from such a counter;
* `Counted.placed`, `Counted.removed`, `Counted.moved` : every update keeps this;
* `added_id_of_reachable` : the id of a new job, told by the ids in use.
-/

set_option autoImplicit false

namespace JobControl.Table
open List

/-- The counter knows where the search should begin. -/
structure Counted (t : Table) : Prop where
  next : t.maxId < t.capacity → t.nextId = t.maxId + 1
  taken : t.maxId = t.capacity → ∀ i, 1 ≤ i → i < t.nextId → i ∈ t.ids

section
variable {t t' : Table}

/-! ## The search -/

theorem idAfter_of_lt {i : Nat} (h : i < t.capacity) : t.idAfter i = i + 1 :=
  if_neg (by omega)

theorem idAfter_of_ge {i : Nat} (h : t.capacity ≤ i) : t.idAfter i = 1 :=
  if_pos (by omega)

/-- Counting on without coming around. -/
theorem search_of_forall_mem {i n : Nat} (hi : 1 ≤ i) (hn : i + n ≤ t.capacity)
    (taken : ∀ m < n, i + m ∈ t.ids) (free : i + n ∉ t.ids) : t.Search i n (i + n) := by
  induction n generalizing i with
  | zero => exact .stop ((findById?_eq_none hi).2 free)
  | succ n ih =>
    have hsome : (t.findById? i).isSome := by
      rw [Option.isSome_iff_ne_none, ne_eq, findById?_eq_none hi, not_not]
      exact taken 0 (by omega)
    have hrest : t.Search (i + 1) n (i + 1 + n) := by
      refine ih (by omega) (by omega) (fun m hm => ?_) ?_
      · rw [show i + 1 + m = i + (m + 1) by omega]
        exact taken (m + 1) (by omega)
      · rw [show i + 1 + n = i + (n + 1) by omega]
        exact free
    rw [show i + (n + 1) = i + 1 + n by omega]
    exact .pass hsome (by rwa [idAfter_of_lt (by omega)])

/-- Below the capacity the first id looked at is free. -/
theorem Counted.freshId?_of_lt (h : t.Counted) (hlt : t.maxId < t.capacity) :
    t.freshId? = some (t.maxId + 1) := by
  have hfree : t.findById? t.nextId = none := by
    rw [h.next hlt, findById?_eq_none (by omega)]
    intro hmem
    have := le_maxId hmem
    omega
  rw [← h.next hlt]
  exact (Search.stop hfree).firstFree (by omega)

/-- When the capacity is in use, the search comes to the least free id without coming around. -/
theorem Counted.freshId?_of_eq (h : t.Counted) (hpos : 1 ≤ t.nextId) (heq : t.maxId = t.capacity)
    {g : Nat} (hg : IsLeast {g | 1 ≤ g ∧ g ≤ t.capacity ∧ g ∉ t.ids} g) : t.freshId? = some g := by
  obtain ⟨⟨h1, hc, hfree⟩, hleast⟩ := hg
  have hge : t.nextId ≤ g := by
    by_contra hlt
    exact hfree (h.taken heq g h1 (by omega))
  have hmem : ∀ m < g - t.nextId, t.nextId + m ∈ t.ids := by
    intro m hm
    by_contra hn
    have := hleast ⟨by omega, by omega, hn⟩
    omega
  have hs : t.Search t.nextId (g - t.nextId) (t.nextId + (g - t.nextId)) :=
    search_of_forall_mem hpos (by omega) hmem (by rwa [show t.nextId + (g - t.nextId) = g by omega])
  rw [show t.nextId + (g - t.nextId) = g by omega] at hs
  exact hs.firstFree (by omega)

/-- A free slot leaves a least free id. -/
theorem exists_isLeast_free (free : t.isFull = false) :
    ∃ g, IsLeast {g | 1 ≤ g ∧ g ≤ t.capacity ∧ g ∉ t.ids} g := by
  have hlt : t.ids.length < t.capacity := by simpa [ids, size] using size_lt_capacity free
  obtain ⟨g, ⟨h1, hc⟩, hfree⟩ := exists_unused hlt
  classical
  have hex : ∃ g, 1 ≤ g ∧ g ≤ t.capacity ∧ g ∉ t.ids := ⟨g, h1, hc, hfree⟩
  exact ⟨Nat.find hex, Nat.find_spec hex, fun _ hg => Nat.find_min' hex hg⟩

/-! ## What updates keep -/

theorem maxId_congr {u : Table} (h : ∀ i, i ∈ u.ids ↔ i ∈ t.ids) : u.maxId = t.maxId := by
  rcases t.maxId_cases with ⟨hnil, hz⟩ | ⟨hmem, hle⟩
  · rw [hz]
    refine maxId_eq_zero (List.eq_nil_iff_forall_not_mem.2 fun i hi => ?_)
    simpa [hnil] using (h i).1 hi
  · exact maxId_eq ((h _).2 hmem) fun i hi => hle i ((h i).1 hi)

theorem maxId_placed (free : t.isFull = false) (j : Job) : (t.placed j).maxId = max j.id t.maxId := by
  have hmem : ∀ i, i ∈ (t.placed j).ids ↔ i = j.id ∨ i ∈ t.ids := fun i => by
    rw [(ids_placed free j).mem_iff, List.mem_cons]
  refine maxId_eq ((hmem _).2 ?_) fun i hi => ?_
  · rcases t.maxId_cases with ⟨-, hz⟩ | ⟨hmax, -⟩
    · exact .inl (by omega)
    · rcases Nat.le_total j.id t.maxId with hle | hle
      · exact .inr (by rwa [Nat.max_eq_right hle])
      · exact .inl (Nat.max_eq_left hle)
  · rcases (hmem i).1 hi with rfl | hi
    · exact Nat.le_max_left _ _
    · exact Nat.le_trans (le_maxId hi) (Nat.le_max_right _ _)

theorem Counted.empty {c : Nat} (pos : 1 ≤ c) : (empty c).Counted where
  next _ := by simp [maxId, ids, Table.empty, jobs]
  taken heq := by
    have hz : (Table.empty c).maxId = 0 := maxId_eq_zero (by simp [ids])
    rw [hz, capacity_empty] at heq
    omega

theorem Counted.placed (h : t.Counted) (sound : t.Sound) (free : t.isFull = false) {j : Job}
    (fresh : t.freshId? = some j.id) : (t.placed j).Counted := by
  have hle := sound.maxId_le
  have hpos := sound.capacity_pos
  have hcap : (t.placed j).capacity = t.capacity := capacity_placed t j
  have hnext : (t.placed j).nextId = t.idAfter j.id := rfl
  rcases Nat.lt_or_eq_of_le hle with hlt | heq
  · have hid : j.id = t.maxId + 1 := by simpa [fresh] using h.freshId?_of_lt hlt
    have hmax : (t.placed j).maxId = j.id := by rw [maxId_placed free]; omega
    refine ⟨fun hlt' => ?_, fun heq' i h1 hi => ?_⟩
    · rw [hnext, idAfter_of_lt (by omega), hmax]
    · rw [hnext, idAfter_of_ge (by omega)] at hi
      omega
  · obtain ⟨g, hg⟩ := exists_isLeast_free free
    have hid : j.id = g := by simpa [fresh] using h.freshId?_of_eq sound.counter.1 heq hg
    obtain ⟨⟨h1, hc, hfree⟩, hleast⟩ := hg
    have hmax : t.maxId ∈ t.ids := by
      rcases t.maxId_cases with ⟨-, hz⟩ | ⟨hmax, -⟩
      · omega
      · exact hmax
    have hne : g ≠ t.capacity := by
      rintro rfl
      exact hfree (heq ▸ hmax)
    refine ⟨fun hlt' => ?_, fun _ i hi1 hi => ?_⟩
    · rw [maxId_placed free, hcap] at hlt'
      omega
    · rw [hnext, idAfter_of_lt (by omega)] at hi
      rw [(ids_placed free j).mem_iff, List.mem_cons]
      by_contra hn
      rw [not_or] at hn
      have := hleast ⟨hi1, by omega, hn.2⟩
      omega

theorem Counted.removed (t : Table) (pid : Pid) : (t.removed pid).Counted where
  next hlt := by rw [nextId_removed, idAfter_of_lt hlt]
  taken heq i h1 hi := by
    rw [nextId_removed, idAfter_of_ge heq.ge] at hi
    omega

theorem Counted.moved (h : t.Counted) {pid : Pid} {state : Job.State} (moves : t.Moves pid state) :
    (t.moved pid state).Counted := by
  have hids := ids_moved moves
  have hmax : (t.moved pid state).maxId = t.maxId := maxId_congr (by simp [hids])
  refine ⟨fun hlt => ?_, fun heq => ?_⟩
  · rw [hmax]
    exact h.next (by simpa [hmax] using hlt)
  · rw [hids]
    exact h.taken (by simpa [hmax] using heq)

end

theorem Reachable.counted {c : Nat} {t : Table} (h : Reachable c t) (pos : 1 ≤ c) : t.Counted := by
  have step : ∀ t t', Sound t ∧ Counted t → t.Update t' → Sound t' ∧ Counted t' := by
    rintro t t' ⟨sound, counted⟩ hu
    refine ⟨sound.update hu, ?_⟩
    cases hu with
    | none => exact counted
    | add admits fresh => exact counted.placed sound admits.free fresh
    | remove found => exact .removed t _
    | move moves => exact counted.moved moves
    | clear => exact .empty sound.capacity_pos
  exact (h.induction ⟨.empty pos, .empty pos⟩ step).2

theorem Reachable.added_id {c : Nat} (pos : 1 ≤ c) {t t' : Table} (h : Reachable c t) {pid : Pid}
    {state : Job.State} {line : String} {i : Nat} (ok : t.add pid state line = .ok (i, t')) :
    (t.maxId + 1 ≤ c → i = t.maxId + 1) ∧
      (c < t.maxId + 1 → IsLeast {g | 1 ≤ g ∧ g ≤ c ∧ g ∉ t.ids} i) := by
  obtain ⟨admits, fresh, -⟩ := add_eq_ok_iff.1 ok
  have hcap := h.capacity
  refine ⟨fun hle => ?_, fun hlt => ?_⟩
  · simpa [fresh] using (h.counted pos).freshId?_of_lt (by omega)
  · have hle := (h.sound pos).maxId_le
    obtain ⟨g, hg⟩ := exists_isLeast_free admits.free
    have hi : i = g := by
      simpa [fresh] using (h.counted pos).freshId?_of_eq (h.sound pos).counter.1 (by omega) hg
    rw [hi, ← hcap]
    exact hg

/-- **The id of a new job.** It is one more than the greatest id in use, 1 if there is none, unless
that exceeds the capacity; then it is the least id that is free. So two tables with the same ids in
use give the same id, whatever was done to them before. -/
theorem added_id_of_reachable {c : Nat} (pos : 1 ≤ c) {t t' : Table} (h : Reachable c t) {pid : Pid}
    {state : Job.State} {line : String} {i : Nat} (ok : t.add pid state line = .ok (i, t')) :
    ((t.jobs = [] → i = 1) ∧ (t.maxId + 1 ≤ c → i = t.maxId + 1) ∧
      (c < t.maxId + 1 → IsLeast {g | 1 ≤ g ∧ g ≤ c ∧ g ∉ t.ids} i)) ∧
    ∀ {u u' : Table} {pid' : Pid} {state' : Job.State} {line' : String} {i' : Nat}, Reachable c u →
      u.add pid' state' line' = .ok (i', u') → (∀ g, g ∈ u.ids ↔ g ∈ t.ids) → i' = i := by
  obtain ⟨hlow, hhigh⟩ := h.added_id pos ok
  refine ⟨⟨fun hnil => ?_, hlow, hhigh⟩, ?_⟩
  · have hz : t.maxId = 0 := maxId_eq_zero (by simp [ids, hnil])
    rw [hlow (by omega), hz]
  · intro u u' pid' state' line' i' hu ok' same
    obtain ⟨hlow', hhigh'⟩ := hu.added_id pos ok'
    have hmax : u.maxId = t.maxId := maxId_congr same
    rcases Nat.lt_or_ge c (t.maxId + 1) with hlt | hle
    · have hset := hhigh' (by omega)
      simp only [same] at hset
      exact hset.unique (hhigh hlt)
    · rw [hlow hle, hlow' (by omega), hmax]

/-- With ids 1 and 3 of three in use, the counter is at 1 or at 2, and either way 2 is next. -/
theorem added_id_two_histories :
    let t := after 3 [.add ⟨11⟩ .background "a &", .add ⟨12⟩ .stopped "b",
      .add ⟨13⟩ .background "c &", .remove ⟨12⟩]
    let u := after 3 [.add ⟨11⟩ .background "a &", .add ⟨12⟩ .stopped "b",
      .add ⟨13⟩ .background "c &", .remove ⟨11⟩, .remove ⟨12⟩, .add ⟨14⟩ .stopped "d"]
    (t.nextId = 1 ∧ u.nextId = 2 ∧ Reachable 3 t ∧ Reachable 3 u ∧
      t.add ⟨15⟩ .foreground "e" = .ok (2, t.placed ⟨2, ⟨15⟩, .foreground, "e"⟩)) ∧
    IsLeast {g | 1 ≤ g ∧ g ≤ 3 ∧ g ∉ t.ids} 2 ∧
      ∀ {u' : Table} {i : Nat}, u.add ⟨16⟩ .stopped "f" = .ok (i, u') → i = 2 := by
  intro t u
  have ht : Reachable 3 t := ⟨_, rfl⟩
  have hu : Reachable 3 u := ⟨_, rfl⟩
  have ok : t.add ⟨15⟩ .foreground "e" = .ok (2, t.placed ⟨2, ⟨15⟩, .foreground, "e"⟩) := rfl
  have hids : u.ids ~ t.ids := by decide
  have rule := added_id_of_reachable (by decide) ht ok
  exact ⟨⟨rfl, rfl, ht, hu, ok⟩, rule.1.2.2 (by decide),
    fun ok' => rule.2 hu ok' fun g => hids.mem_iff⟩

end JobControl.Table

import JobControl.Host.Scripted
import JobControl.Proofs.Shell.Run
import JobControl.Proofs.Table.Commuting

/-!
# The order in which children change

* `Reordered` : one list is a permutation of the other that keeps the order of the elements with the
  same key;
* `Commuting.foldl` : steps that commute when their keys differ make the same of both;
* `Table.applied_comm` : changes of different children commute, whether or not these have jobs;
* `Utterance` : something that the shell says on its console, and `ChildChange.utterance` : what it
  says of the change of a child; `Console.utter_comm` : the order of two only changes the order in
  which they are written;
* `Shell.SameButOrder` : two shells that differ only in the order in which they wrote, and in their
  journals;
* `Shell.children_in_any_order` : so end shells that take up the changes of children in any order.
-/

set_option autoImplicit false

namespace JobControl
open List

/-! ## Lists in another order -/

section Keys
variable {α β κ : Type} [DecidableEq κ] {key : α → κ} {l l₁ l₂ : List α}

/-- The lists are permutations of each other, and those elements that have a key in common come in
the same order. -/
structure Reordered (key : α → κ) (l₁ l₂ : List α) : Prop where
  perm : l₁ ~ l₂
  order : ∀ k, l₁.filter (key · = k) = l₂.filter (key · = k)

/-- It is enough to look at the keys that occur. -/
theorem reordered_iff : Reordered key l₁ l₂ ↔
    l₁ ~ l₂ ∧ ∀ a ∈ l₁, l₁.filter (key · = key a) = l₂.filter (key · = key a) := by
  constructor
  · exact fun h => ⟨h.perm, fun a _ => h.order (key a)⟩
  · rintro ⟨perm, order⟩
    refine ⟨perm, fun k => ?_⟩
    by_cases hk : ∃ a ∈ l₁, key a = k
    · obtain ⟨a, ha, rfl⟩ := hk
      exact order a ha
    · have hnone (l : List α) (hl : l ⊆ l₁) : l.filter (key · = k) = [] := by
        rw [List.filter_eq_nil_iff]
        intro a ha
        simpa using fun hka => hk ⟨a, hl ha, hka⟩
      rw [hnone l₁ (List.Subset.refl l₁), hnone l₂ perm.symm.subset]

instance [DecidableEq α] : Decidable (Reordered key l₁ l₂) :=
  decidable_of_iff' _ reordered_iff

/-- The first element of the one list comes, in the other, after elements with other keys. -/
theorem Reordered.cons_left {a : α} (h : Reordered key (a :: l) l₂) :
    ∃ u v, l₂ = u ++ a :: v ∧ (∀ b ∈ u, key b ≠ key a) ∧ Reordered key l (u ++ v) := by
  have ha := h.order (key a)
  rw [List.filter_cons_of_pos (by simp)] at ha
  obtain ⟨u, v, rfl, hu, -, -⟩ := List.filter_eq_cons_iff.1 ha.symm
  have hne : ∀ b ∈ u, key b ≠ key a := by
    intro b hb
    simpa using hu b hb
  refine ⟨u, v, rfl, hne, ?_, fun k => ?_⟩
  · exact (h.perm.trans List.perm_middle).cons_inv
  · have hk := h.order k
    by_cases hak : key a = k
    · have hnone : u.filter (key · = k) = [] := by
        rw [List.filter_eq_nil_iff]
        intro b hb
        simpa [hak] using hne b hb
      simpa [List.filter_cons, hak, hnone] using hk
    · simpa [List.filter_cons, hak] using hk

/-- Steps that keep a relation of states, and commute up to it when their keys differ. -/
structure Commuting (key : α → κ) (step : β → α → β) (r : β → β → Prop) : Prop where
  refl : ∀ s, r s s
  trans : ∀ {s t u}, r s t → r t u → r s u
  congr : ∀ {s t} a, r s t → r (step s a) (step t a)
  comm : ∀ s a b, key a ≠ key b → r (step (step s a) b) (step (step s b) a)

namespace Commuting
variable {step : β → α → β} {r : β → β → Prop}

omit [DecidableEq κ] in
theorem foldl_congr (c : Commuting key step r) {s t : β} (h : r s t) (l : List α) :
    r (l.foldl step s) (l.foldl step t) := by
  induction l generalizing s t with
  | nil => exact h
  | cons a l ih => exact ih (c.congr a h)

omit [DecidableEq κ] in
/-- An element may be taken before those with other keys. -/
theorem foldl_front (c : Commuting key step r) {a : α} {u : List α}
    (hu : ∀ b ∈ u, key b ≠ key a) (v : List α) (s : β) :
    r ((a :: (u ++ v)).foldl step s) ((u ++ a :: v).foldl step s) := by
  induction u generalizing s with
  | nil => exact c.refl _
  | cons b u ih =>
    have hswap : r (step (step s a) b) (step (step s b) a) :=
      c.comm s a b (hu b List.mem_cons_self).symm
    have hrest := ih (fun b' hb' => hu b' (List.mem_cons_of_mem b hb')) (step s b)
    exact c.trans (c.foldl_congr hswap (u ++ v)) hrest

theorem foldl (c : Commuting key step r) (h : Reordered key l₁ l₂) (s : β) :
    r (l₁.foldl step s) (l₂.foldl step s) := by
  induction l₁ generalizing l₂ s with
  | nil =>
    rw [h.perm.nil_eq]
    exact c.refl _
  | cons a l₁ ih =>
    obtain ⟨u, v, rfl, hu, hrest⟩ := h.cons_left
    exact c.trans (ih hrest (step s a)) (c.foldl_front hu v s)

end Commuting
end Keys

/-! ## Tables -/

namespace Table
variable {t : Table} {p q : Pid}

/-- The change of a child that has a job either ends the job or stops it. -/
theorem applied_kind (pid : Pid) (change : ChildChange) :
    (∀ (t : Table) (k : Job), t.findByPid? pid = some k →
      t.applied (.child pid change) = t.removed pid) ∨
    ∀ (t : Table) (k : Job), t.findByPid? pid = some k →
      t.applied (.child pid change) = t.moved pid .stopped := by
  cases change with
  | exited code => exact .inl fun t k h => applied_of_some h _
  | signaled sig => exact .inl fun t k h => applied_of_some h _
  | stopped sig => exact .inr fun t k h => applied_of_some h _

theorem findByPid?_applied (hpq : p ≠ q) (change : ChildChange) :
    (t.applied (.child p change)).findByPid? q = t.findByPid? q := by
  cases hp : t.findByPid? p with
  | none => rw [applied_of_none hp]
  | some k =>
    rcases applied_kind p change with happlied | happlied
    · rw [happlied t k hp]
      exact findByPid?_removed hpq
    · rw [happlied t k hp]
      exact findByPid?_moved hpq .stopped

theorem moved_removed_of_find (hpq : p ≠ q) {k : Job} (hp : t.findByPid? p = some k) :
    (t.moved p .stopped).removed q = (t.removed q).moved p .stopped := by
  have hfound : (t.removed q).findByPid? p = some k := by
    rw [findByPid?_removed hpq.symm, hp]
  exact moved_removed hpq ⟨nofun, found_of_findByPid? hfound⟩

/-- Changes of different children commute. -/
theorem applied_comm (t : Table) (hpq : p ≠ q) (a b : ChildChange) :
    (t.applied (.child p a)).applied (.child q b) =
      (t.applied (.child q b)).applied (.child p a) := by
  have hq' : (t.applied (.child p a)).findByPid? q = t.findByPid? q := findByPid?_applied hpq a
  have hp' : (t.applied (.child q b)).findByPid? p = t.findByPid? p :=
    findByPid?_applied hpq.symm b
  cases hp : t.findByPid? p with
  | none => rw [applied_of_none hp, applied_of_none (hp'.trans hp)]
  | some k =>
    cases hq : t.findByPid? q with
    | none => rw [applied_of_none hq, applied_of_none (hq'.trans hq)]
    | some k' =>
      rcases applied_kind p a with ha | ha <;> rcases applied_kind q b with hb | hb <;>
        rw [hb _ k' (hq'.trans hq), ha _ k (hp'.trans hp), ha t k hp, hb t k' hq]
      · exact removed_removed hpq
      · exact (moved_removed_of_find hpq.symm hq).symm
      · exact moved_removed_of_find hpq hp
      · exact moved_moved hpq .stopped .stopped

end Table

/-! ## What the shell says -/

/-- Something to say: a notice, one for diagnostics, or a complaint. -/
inductive Utterance where
  | say (notice : Notice)
  | report (notice : Notice)
  | complain (complaint : Complaint)

/-- What the shell says of the change of a child, given the job that the child is. -/
def ChildChange.utterance (change : ChildChange) (pid : Pid) : Option Job → Utterance
  | none => .complain (.strayChild pid)
  | some job =>
    match change with
    | .exited _ => .report (.deleted job)
    | .signaled sig => .say (.terminated job.id pid sig)
    | .stopped sig => .say (.stopped job.id pid sig)

def Utterance.notices (c : Console) : Utterance → List Notice
  | .say n => if c.out.broken then [] else [n]
  | .report n => if c.verbose then [n] else []
  | .complain _ => []

def Utterance.complaints (c : Console) : Utterance → List Complaint
  | .complain m => if c.err.broken then [] else [m]
  | _ => []

structure Sink.Shuffled {α : Type} (s t : Sink α) : Prop where
  written : s.written ~ t.written
  broken : s.broken = t.broken

theorem Sink.Shuffled.messages {α : Type} {s t : Sink α} (h : s.Shuffled t) :
    s.messages ~ t.messages :=
  (List.reverse_perm _).trans (h.written.trans (List.reverse_perm _).symm)

namespace Console

def utter (c : Console) : Utterance → Console
  | .say n => c.say n
  | .report n => c.report n
  | .complain m => c.complain m

structure Shuffled (c d : Console) : Prop where
  out : c.out.Shuffled d.out
  err : c.err.Shuffled d.err
  verbose : c.verbose = d.verbose

variable {c d e : Console}

theorem Shuffled.refl (c : Console) : c.Shuffled c :=
  ⟨⟨List.Perm.refl _, rfl⟩, ⟨List.Perm.refl _, rfl⟩, rfl⟩

theorem Shuffled.trans (h : c.Shuffled d) (h' : d.Shuffled e) : c.Shuffled e where
  out := ⟨h.out.written.trans h'.out.written, h.out.broken.trans h'.out.broken⟩
  err := ⟨h.err.written.trans h'.err.written, h.err.broken.trans h'.err.broken⟩
  verbose := h.verbose.trans h'.verbose

/-- What is written depends only on what is broken, and on whether diagnostics are shown. -/
theorem utter_eq (c : Console) (u : Utterance) : c.utter u =
    { c with
      out := { c.out with written := u.notices c ++ c.out.written }
      err := { c.err with written := u.complaints c ++ c.err.written } } := by
  obtain ⟨⟨notices, outBroken⟩, ⟨complaints, errBroken⟩, verbose⟩ := c
  cases u with
  | say n => cases outBroken <;> rfl
  | report n => cases verbose <;> rfl
  | complain m => cases errBroken <;> rfl

theorem Shuffled.utter (h : c.Shuffled d) (u : Utterance) : (c.utter u).Shuffled (d.utter u) := by
  have hnotices : u.notices c = u.notices d := by
    cases u <;> simp only [Utterance.notices, h.out.broken, h.verbose]
  have hcomplaints : u.complaints c = u.complaints d := by
    cases u <;> simp only [Utterance.complaints, h.err.broken]
  rw [utter_eq, utter_eq, hnotices, hcomplaints]
  exact ⟨⟨h.out.written.append_left _, h.out.broken⟩, ⟨h.err.written.append_left _, h.err.broken⟩,
    h.verbose⟩

theorem utter_comm (c : Console) (u v : Utterance) :
    ((c.utter u).utter v).Shuffled ((c.utter v).utter u) := by
  have hnotices (w w' : Utterance) : w.notices (c.utter w') = w.notices c := by
    rw [utter_eq]
    cases w <;> rfl
  have hcomplaints (w w' : Utterance) : w.complaints (c.utter w') = w.complaints c := by
    rw [utter_eq]
    cases w <;> rfl
  rw [utter_eq (c.utter u), utter_eq (c.utter v), hnotices, hnotices, hcomplaints, hcomplaints,
    utter_eq c, utter_eq c]
  exact ⟨⟨List.perm_append_comm_assoc .., rfl⟩, ⟨List.perm_append_comm_assoc .., rfl⟩, rfl⟩

end Console

/-! ## Shells -/

def Notification.children (l : List (Pid × ChildChange)) : List Notification :=
  l.map fun x => .child x.1 x.2

namespace Shell
variable {σ : Type}

/-- The two shells differ only in the order in which they wrote, and in their journals. -/
structure SameButOrder (s t : Shell σ) : Prop where
  host : s.host = t.host
  jobs : s.jobs = t.jobs
  deferrals : s.deferrals = t.deferrals
  console : s.console.Shuffled t.console

theorem applyChange_eq (s : Shell σ) (pid : Pid) (change : ChildChange) :
    s.applyChange pid change =
      { s with
        jobs := s.jobs.applied (.child pid change)
        console := s.console.utter (change.utterance pid (s.jobs.findByPid? pid)) } := by
  unfold applyChange
  cases h : s.jobs.findByPid? pid with
  | none =>
    rw [Table.applied_of_none h]
    rfl
  | some job =>
    rw [Table.applied_of_some h]
    cases change with
    | exited code => exact dropJob_eq (s := s.report (.deleted job)) h
    | signaled sig => exact dropJob_eq (s := s.say (.terminated job.id pid sig)) h
    | stopped sig => exact markStopped_eq (s := s.say (.stopped job.id pid sig)) h

variable [Host σ]

theorem apply_child (s : Shell σ) (pid : Pid) (change : ChildChange) :
    s.apply (.child pid change) =
      (.ok .continue, (s.note (.apply (.child pid change))).applyChange pid change) := rfl

/-- Changes of children never fail, and never stop the shell. -/
theorem applyAll_children (s : Shell σ) (l : List (Pid × ChildChange)) :
    s.applyAll (Notification.children l) =
      (.ok .continue, l.foldl (fun s x => (s.apply (.child x.1 x.2)).2) s) := by
  induction l generalizing s with
  | nil => rfl
  | cons x l ih => exact ih (s.apply (.child x.1 x.2)).2

/-- Changes of different children commute but for the order of what is written of them. -/
theorem commuting_children : Commuting Prod.fst
    (fun (s : Shell σ) (x : Pid × ChildChange) => (s.apply (.child x.1 x.2)).2) SameButOrder where
  refl s := ⟨rfl, rfl, rfl, .refl _⟩
  trans h h' := ⟨h.host.trans h'.host, h.jobs.trans h'.jobs, h.deferrals.trans h'.deferrals,
    h.console.trans h'.console⟩
  congr {s t} x h := by
    simp only [apply_child, applyChange_eq, note]
    rw [h.jobs]
    exact ⟨h.host, rfl, h.deferrals, h.console.utter _⟩
  comm s x y hxy := by
    simp only [apply_child, applyChange_eq, note, Table.findByPid?_applied hxy,
      Table.findByPid?_applied hxy.symm]
    exact ⟨rfl, Table.applied_comm s.jobs hxy x.2 y.2, rfl, s.console.utter_comm _ _⟩

/-- **Children in any order.** Changes of children that come in another order, but in the same for
each child, never fail and never stop the shell. They lead to the same table, the slots and the
counter included, and the shell writes the same on each stream, in whatever order. -/
theorem children_in_any_order (s : Shell σ) {l₁ l₂ : List (Pid × ChildChange)}
    (h : Reordered Prod.fst l₁ l₂) :
    let r₁ := s.applyAll (Notification.children l₁)
    let r₂ := s.applyAll (Notification.children l₂)
    r₁.1 = .ok .continue ∧ r₂.1 = .ok .continue ∧ r₁.2.jobs = r₂.2.jobs ∧
      r₁.2.host = r₂.2.host ∧ r₁.2.deferrals = r₂.2.deferrals ∧
      r₁.2.console.out.messages ~ r₂.2.console.out.messages ∧
      r₁.2.console.err.messages ~ r₂.2.console.err.messages := by
  intro r₁ r₂
  have hsame : r₁.2.SameButOrder r₂.2 := by
    simp only [r₁, r₂, applyAll_children]
    exact commuting_children.foldl h s
  have hfirst : r₁.1 = .ok .continue := by simp only [r₁, applyAll_children]
  have hsecond : r₂.1 = .ok .continue := by simp only [r₂, applyAll_children]
  exact ⟨hfirst, hsecond, hsame.jobs, hsame.host, hsame.deferrals, hsame.console.out.messages,
    hsame.console.err.messages⟩

/-- A job is stopped, killed and reported once more, while another one exits and a third process is
no job: what is written comes in another order. -/
theorem children_of_three_processes :
    let t := Table.after 3 [.add ⟨11⟩ .foreground "a", .add ⟨12⟩ .background "b &",
      .add ⟨13⟩ .stopped "c"]
    let s : Shell Scripted := { host := {}, jobs := t, console := { verbose := true } }
    let l₁ : List (Pid × ChildChange) := [(⟨11⟩, .stopped .tstp), (⟨12⟩, .exited 0),
      (⟨11⟩, .signaled .int), (⟨11⟩, .exited 0), (⟨99⟩, .exited 1)]
    let l₂ : List (Pid × ChildChange) := [(⟨99⟩, .exited 1), (⟨12⟩, .exited 0),
      (⟨11⟩, .stopped .tstp), (⟨11⟩, .signaled .int), (⟨11⟩, .exited 0)]
    (Reordered Prod.fst l₁ l₂ ∧
      (s.applyAll (Notification.children l₁)).2.console.out.messages ≠
        (s.applyAll (Notification.children l₂)).2.console.out.messages) ∧
    let r₁ := s.applyAll (Notification.children l₁)
    let r₂ := s.applyAll (Notification.children l₂)
    r₁.1 = .ok .continue ∧ r₂.1 = .ok .continue ∧ r₁.2.jobs = r₂.2.jobs ∧
      r₁.2.host = r₂.2.host ∧ r₁.2.deferrals = r₂.2.deferrals ∧
      r₁.2.console.out.messages ~ r₂.2.console.out.messages ∧
      r₁.2.console.err.messages ~ r₂.2.console.err.messages := by
  intro t s l₁ l₂
  have h : Reordered Prod.fst l₁ l₂ := by decide +kernel
  refine ⟨⟨h, ?_⟩, children_in_any_order s h⟩
  decide +kernel

end Shell
end JobControl

import JobControl.Machine
import JobControl.Shell.Eval
import Mathlib.Data.List.Infix

/-!
# Signals are held back while a job is started

* `Journal.balance` : how many deferrals entries leave in force;
* `Shell.Guarded` : a launch starts its process, and enters it in the table, under one deferral more
  than before, and undoes it; `guarded_launch` : every launch does;
* `SignalSet.Blockable` : the masks that a kernel can hold; setting one sets it as it is;
* `Masking` : a host on a kernel with a mask, as `Machine` is; `Inbox.SameMasks.release` : undoing a
  deferral restores the mask of before;
* `LaunchPlan` : launches one after another, and inside deferrals; `sameMasks_launchAll` : they leave
  the mask as it was;
* `deferral_discipline` : all this for every launch.
-/

set_option autoImplicit false

namespace JobControl
open List

/-! ## Deferrals in the journal -/

namespace Deed

/-- How many deferrals more are in force after the deed than before it. -/
def balance : Deed → Int
  | .defer (.ok ()) => 1
  | .release => -1
  | _ => 0

def isSpawn : Deed → Bool
  | .spawn _ _ => true
  | _ => false

def isStart : Deed → Bool
  | .spawn _ _ | .register _ => true
  | _ => false

theorem balance_of_isStart {d : Deed} (h : d.isStart = true) : d.balance = 0 := by
  cases d <;> first | rfl | cases h

end Deed

namespace Journal

/-- How many deferrals more are in force after the entries than before them. -/
def balance : Journal → Int
  | [] => 0
  | e :: j => e.deed.balance + balance j

theorem balance_append (j j' : Journal) : balance (j ++ j') = balance j + balance j' := by
  induction j with
  | nil => exact (Int.zero_add _).symm
  | cons e j ih => rw [List.cons_append, balance, ih, balance, Int.add_assoc]

theorem balance_eq_zero {j : Journal} (h : ∀ e ∈ j, e.deed.isStart = true) : balance j = 0 := by
  induction j with
  | nil => rfl
  | cons e j ih =>
    rw [balance, Deed.balance_of_isStart (h e (by simp)), ih fun e he => h e (by simp [he])]
    rfl

end Journal

/-! ## A launch -/

namespace Shell
variable {σ : Type} [Host σ]

/-- The host after a launch: nothing is asked of it if the table is full, and no process is started
if signals cannot be held back. -/
def hostLaunched (s : Shell σ) (request : LaunchRequest) : σ :=
  if s.jobs.isFull then s.host
  else
    match (Host.defer s.host).1 with
    | .error _ => (Host.defer s.host).2
    | .ok () => Host.release (Host.spawn request (Host.defer s.host).2).2

/-- A launch on `s` that ended with `r`, and made the entries `new`, held signals back. -/
structure Guarded (s : Shell σ) (request : LaunchRequest) (r : Except Error Job × Shell σ)
    (new : Journal) : Prop where
  journal : r.2.journal = new ++ s.journal
  host : r.2.host = s.hostLaunched request
  spawns : new.countP (·.deed.isSpawn) ≤ 1
  /-- The process is started, and entered in the table, under one deferral more than before. -/
  held : ∀ e older, e :: older <:+ new → e.deed.isStart = true →
    Journal.balance older = 1 ∧ e.deferrals = s.deferrals + 1
  fetches : ∀ e ∈ new, ∀ waiting answer, e.deed ≠ .fetch waiting answer
  registered : ∀ job, r.1 = .ok job → ∃ e ∈ new, e.deed = .register job
  /-- The deferral is undone when the table is as the launch leaves it. -/
  released : ∀ e ∈ new, e.deed = .release → e.jobs = r.2.jobs ∧ e.deferrals = s.deferrals + 1
  balanced : Journal.balance new = 0 ∧ r.2.deferrals = s.deferrals
  full : s.jobs.isFull = true → new = []
  refused : ∀ cause, (Host.defer s.host).1 = .error cause → ∀ e ∈ new, e.deed.isSpawn = false

/-- What is done under the deferral: the process is started, and entered in the table. -/
structure Started (s : Shell σ) (request : LaunchRequest) (r : Except Error Job × Shell σ)
    (new : Journal) : Prop where
  journal : r.2.journal = new ++ s.journal
  host : r.2.host = (Host.spawn request s.host).2
  deferrals : r.2.deferrals = s.deferrals
  spawns : new.countP (·.deed.isSpawn) = 1
  deeds : ∀ e ∈ new, e.deed.isStart = true ∧ e.deferrals = s.deferrals
  registered : ∀ job, r.1 = .ok job → ∃ e ∈ new, e.deed = .register job

/-- The process was not started, or the table refused it. -/
theorem started_failed (s : Shell σ) (request : LaunchRequest) (e : Error) :
    Started s request (.error e, (s.spawn request).2)
      [⟨.spawn request (Host.spawn request s.host).1, s.jobs, s.deferrals⟩] where
  journal := rfl
  host := rfl
  deferrals := rfl
  spawns := rfl
  deeds := by simp [Deed.isStart]
  registered := by simp

/-- The process was started and entered in the table. -/
theorem started_registered (s : Shell σ) (request : LaunchRequest) {pid : Pid} {i : Nat}
    {jobs : Table} (hadd : s.jobs.add pid request.state request.line = .ok (i, jobs)) :
    Started s request ((s.spawn request).2.register request pid)
      [⟨.register ⟨i, pid, request.state, request.line⟩, s.jobs, s.deferrals⟩,
        ⟨.spawn request (Host.spawn request s.host).1, s.jobs, s.deferrals⟩] := by
  have hjobs : (s.spawn request).2.jobs = s.jobs := rfl
  rw [register, hjobs, hadd]
  refine ⟨rfl, rfl, rfl, rfl, by simp [Deed.isStart], fun job hjob => ?_⟩
  cases hjob
  exact ⟨_, List.mem_cons_self, rfl⟩

theorem started_start (s : Shell σ) (request : LaunchRequest) :
    ∃ new, Started s request (s.start request) new := by
  have hpair : s.spawn request = ((Host.spawn request s.host).1, (s.spawn request).2) := rfl
  rw [start, hpair]
  cases (Host.spawn request s.host).1 with
  | error e => exact ⟨_, started_failed s request _⟩
  | ok pid =>
    dsimp only
    cases hadd : s.jobs.add pid request.state request.line with
    | error reason =>
      have hrefused : (s.spawn request).2.register request pid =
          (.error (.table reason), (s.spawn request).2) := by
        have hjobs : (s.spawn request).2.jobs = s.jobs := rfl
        rw [register, hjobs, hadd]
      rw [hrefused]
      exact ⟨_, started_failed s request _⟩
    | ok answer => exact ⟨_, started_registered s request hadd⟩

theorem mem_around {e first last : Journal.Entry} {new : Journal} :
    e ∈ last :: new ++ [first] ↔ e = last ∨ e ∈ new ∨ e = first := by
  simp

/-- The entry of a start stands after that of the deferral, and before that of its end. -/
theorem balance_of_suffix {e first last : Journal.Entry} {older new : Journal}
    (h : e :: older <:+ last :: new ++ [first]) (he : e.deed.isStart = true)
    (hfirst : first.deed.isStart = false) (hlast : last.deed.isStart = false)
    (hnew : ∀ e ∈ new, e.deed.isStart = true) :
    e ∈ new ∧ Journal.balance older = first.deed.balance := by
  rw [List.cons_append, List.suffix_cons_iff] at h
  rcases h with h | ⟨newer, h⟩
  · obtain ⟨rfl, -⟩ := List.cons.inj h
    rw [he] at hlast
    cases hlast
  · rcases List.eq_nil_or_concat' older with rfl | ⟨older, e', rfl⟩
    · obtain ⟨-, hsame⟩ := List.append_inj' h rfl
      obtain rfl := List.singleton_inj.1 hsame
      rw [he] at hfirst
      cases hfirst
    · rw [← List.cons_append, ← List.append_assoc] at h
      obtain ⟨rfl, hsame⟩ := List.append_inj' h rfl
      obtain rfl := List.singleton_inj.1 hsame
      have hzero : Journal.balance older = 0 :=
        Journal.balance_eq_zero fun e he => hnew e (by simp [he])
      refine ⟨by simp, ?_⟩
      rw [Journal.balance_append, hzero, Int.zero_add, Journal.balance, Journal.balance, Int.add_zero]

/-- The shell when signals are held back. -/
def deferred (s : Shell σ) : Shell σ :=
  { s.note (.defer (.ok ())) with host := (Host.defer s.host).2, deferrals := s.deferrals + 1 }

def undeferred (s : Shell σ) (cause : SystemError) : Shell σ :=
  { s.note (.defer (.error cause)) with host := (Host.defer s.host).2 }

theorem defer_eq_ok {s : Shell σ} (h : (Host.defer s.host).1 = .ok ()) :
    s.defer = (.ok (), s.deferred) := by
  simp [defer, h, deferred]

theorem defer_eq_error {s : Shell σ} {cause : SystemError}
    (h : (Host.defer s.host).1 = .error cause) : s.defer = (.error cause, s.undeferred cause) := by
  simp [defer, h, undeferred]

/-- A start between a deferral and its end. -/
theorem Started.guarded {s : Shell σ} {request : LaunchRequest} {r : Except Error Job × Shell σ}
    {new : Journal} (hfree : ¬ s.jobs.isFull) (hdefer : (Host.defer s.host).1 = .ok ())
    (h : Started s.deferred request r new) :
    Guarded s request (r.1, r.2.release) (⟨.release, r.2.jobs, r.2.deferrals⟩ :: new ++
      [⟨.defer (.ok ()), s.jobs, s.deferrals⟩]) where
  journal := by simp [release, note, h.journal, deferred]
  host := by simp [hostLaunched, hfree, hdefer, release, h.host, deferred]
  spawns := by
    rw [List.cons_append, List.countP_cons, List.countP_append, h.spawns]
    exact Nat.le_refl 1
  held := by
    intro e older hsuffix he
    obtain ⟨hmem, hbalance⟩ :=
      balance_of_suffix hsuffix he rfl rfl fun e he => (h.deeds e he).1
    exact ⟨hbalance, (h.deeds e hmem).2⟩
  fetches := by
    intro e he waiting answer hfetch
    rcases mem_around.1 he with rfl | hmem | rfl
    · cases hfetch
    · have hstart := (h.deeds e hmem).1
      rw [hfetch] at hstart
      cases hstart
    · cases hfetch
  registered := by
    intro job hjob
    obtain ⟨e, hmem, he⟩ := h.registered job hjob
    exact ⟨e, by simp [hmem], he⟩
  released := by
    intro e he hrelease
    rcases mem_around.1 he with rfl | hmem | rfl
    · exact ⟨rfl, h.deferrals⟩
    · have hstart := (h.deeds e hmem).1
      rw [hrelease] at hstart
      cases hstart
    · cases hrelease
  balanced := by
    have hnew := Journal.balance_eq_zero fun e he => (h.deeds e he).1
    refine ⟨?_, by simp [release, h.deferrals, deferred]⟩
    rw [Journal.balance_append, Journal.balance, hnew]
    rfl
  full hfull := absurd hfull hfree
  refused cause hcause := by
    rw [hdefer] at hcause
    cases hcause

theorem guarded_full {s : Shell σ} (request : LaunchRequest) (hfull : s.jobs.isFull = true) :
    Guarded s request (.error (.table .full), s) [] where
  journal := rfl
  host := by simp [hostLaunched, hfull]
  spawns := Nat.zero_le 1
  held e older hsuffix _ := nomatch List.suffix_nil.1 hsuffix
  fetches := by simp
  registered := by simp
  released := by simp
  balanced := ⟨rfl, rfl⟩
  full _ := rfl
  refused := by simp

theorem guarded_undeferred {s : Shell σ} {request : LaunchRequest} {cause : SystemError}
    (hfree : ¬ s.jobs.isFull) (hdefer : (Host.defer s.host).1 = .error cause) (e : Error) :
    Guarded s request (.error e, s.undeferred cause)
      [⟨.defer (.error cause), s.jobs, s.deferrals⟩] where
  journal := rfl
  host := by simp [hostLaunched, hfree, hdefer, undeferred]
  spawns := Nat.zero_le 1
  held := by
    intro e older hsuffix he
    obtain rfl := List.mem_singleton.1 (hsuffix.subset List.mem_cons_self)
    cases he
  fetches := by simp
  registered := by simp
  released := by simp
  balanced := ⟨rfl, rfl⟩
  full hfull := absurd hfull hfree
  refused := by simp [Deed.isSpawn]

theorem guarded_launch (s : Shell σ) (request : LaunchRequest) :
    ∃ new, Guarded s request (s.launch request) new := by
  unfold launch
  split
  · next hfull => exact ⟨_, guarded_full request hfull⟩
  · next hfree =>
    cases hdefer : (Host.defer s.host).1 with
    | error cause =>
      rw [defer_eq_error hdefer]
      exact ⟨_, guarded_undeferred hfree hdefer _⟩
    | ok u =>
      rw [defer_eq_ok hdefer]
      obtain ⟨new, started⟩ := started_start s.deferred request
      exact ⟨_, started.guarded hfree hdefer⟩

end Shell

/-! ## Masks -/

/-- The set can be a mask: the signals that cannot be caught are not in it. -/
def SignalSet.Blockable (set : SignalSet) : Prop :=
  set.contains .kill = false ∧ set.contains .stop = false

instance (set : SignalSet) : Decidable set.Blockable := inferInstanceAs (Decidable (_ ∧ _))

namespace SignalSet

theorem blockable_iff {set : SignalSet} :
    set.Blockable ↔ set.bits.getLsbD 8 = false ∧ set.bits.getLsbD 18 = false := Iff.rfl

theorem getLsbD_uncatchable : ∀ i < 64, uncatchable.bits.getLsbD i = (i == 8 || i == 18) := by
  decide

theorem getLsbD_diff_uncatchable (set : SignalSet) {i : Nat} (hi : i < 64) :
    (set.diff .uncatchable).bits.getLsbD i = (set.bits.getLsbD i && !(i == 8 || i == 18)) := by
  rw [diff, BitVec.getLsbD_and, BitVec.getLsbD_not, getLsbD_uncatchable i hi]
  simp [hi]

theorem blockable_diff (set : SignalSet) : (set.diff .uncatchable).Blockable := by
  rw [blockable_iff, getLsbD_diff_uncatchable set (by decide),
    getLsbD_diff_uncatchable set (by decide)]
  simp

/-- A mask that can be is set as it is. -/
theorem Blockable.diff_eq {set : SignalSet} (h : set.Blockable) : set.diff .uncatchable = set := by
  obtain ⟨hkill, hstop⟩ := blockable_iff.1 h
  have hbits : (set.diff .uncatchable).bits = set.bits := by
    refine BitVec.eq_of_getLsbD_eq fun i hi => ?_
    rw [getLsbD_diff_uncatchable set hi]
    by_cases h8 : i = 8
    · rw [h8, hkill]
      rfl
    · by_cases h18 : i = 18
      · rw [h18, hstop]
        rfl
      · simp [h8, h18]
  exact congrArg SignalSet.mk hbits

end SignalSet

namespace Inbox

/-- The same signals are blocked, and the same masks are to be restored. -/
structure SameMasks (b b' : Inbox) : Prop where
  mask : b'.mask = b.mask
  saved : b'.saved = b.saved

theorem SameMasks.refl (b : Inbox) : b.SameMasks b := ⟨rfl, rfl⟩

theorem SameMasks.trans {a b c : Inbox} (h : a.SameMasks b) (h' : b.SameMasks c) : a.SameMasks c :=
  ⟨h'.mask.trans h.mask, h'.saved.trans h.saved⟩

theorem SameMasks.blockable {b b' : Inbox} (h : b.SameMasks b') (blockable : b.mask.Blockable) :
    b'.mask.Blockable := by
  rw [h.mask]
  exact blockable

theorem blockable_defer (b : Inbox) : b.defer.mask.Blockable := SignalSet.blockable_diff _

/-- Undoing a deferral restores the mask of before, whatever it blocked. -/
theorem SameMasks.release {b b' : Inbox} (h : b.defer.SameMasks b') (blockable : b.mask.Blockable) :
    b.SameMasks b'.release := by
  have hsaved : b'.saved = b.mask :: b.saved := h.saved
  have hrelease : b'.release =
      { b'.setMask (Mask.set b'.mask b.mask) with saved := b.saved } := by
    rw [Inbox.release, hsaved]
  rw [hrelease]
  exact ⟨blockable.diff_eq, rfl⟩

end Inbox

/-- A host on a kernel that keeps a mask for the shell: a deferral blocks the deferrable signals, its
end restores the mask of before, and starting a process leaves the mask alone. -/
structure Masking (σ : Type) [Host σ] where
  inbox : σ → Inbox
  defer : ∀ h, (Host.defer h).1 = .ok () → (inbox h).defer.SameMasks (inbox (Host.defer h).2)
  refuse : ∀ h e, (Host.defer h).1 = .error e → (inbox h).SameMasks (inbox (Host.defer h).2)
  release : ∀ h, (inbox h).release.SameMasks (inbox (Host.release h))
  spawn : ∀ request h, (inbox h).SameMasks (inbox (Host.spawn request h).2)

/-- The kernel of the machine. -/
def Machine.masking : Masking Machine where
  inbox m := m.system.inbox
  defer _ _ := .refl _
  refuse _ _ h := nomatch h
  release _ := .refl _
  spawn _ _ := .refl _

/-! ## Launches one after another, and inside deferrals -/

inductive LaunchPlan where
  | done
  | launch (request : LaunchRequest) (rest : LaunchPlan)
  /-- The inner plan is followed while signals are held back, if they can be. -/
  | hold (inner rest : LaunchPlan)

namespace Shell
variable {σ : Type} [Host σ]

def launchAll (s : Shell σ) : LaunchPlan → Shell σ
  | .done => s
  | .launch request rest => (s.launch request).2.launchAll rest
  | .hold inner rest =>
    match s.defer with
    | (.error _, s) => s.launchAll rest
    | (.ok (), s) => (s.launchAll inner).release.launchAll rest

variable (view : Masking σ)

theorem sameMasks_launch {s : Shell σ} (blockable : (view.inbox s.host).mask.Blockable)
    (request : LaunchRequest) :
    (view.inbox s.host).SameMasks (view.inbox (s.launch request).2.host) := by
  obtain ⟨new, guarded⟩ := s.guarded_launch request
  rw [guarded.host, hostLaunched]
  split
  · exact .refl _
  · cases hdefer : (Host.defer s.host).1 with
    | error cause => exact view.refuse s.host cause hdefer
    | ok u =>
      have hspawn := (view.defer s.host hdefer).trans (view.spawn request (Host.defer s.host).2)
      exact (hspawn.release blockable).trans (view.release _)

/-- Launches, one after another or inside deferrals, leave the mask as it was. -/
theorem sameMasks_launchAll (plan : LaunchPlan) {s : Shell σ}
    (blockable : (view.inbox s.host).mask.Blockable) :
    (view.inbox s.host).SameMasks (view.inbox (s.launchAll plan).host) := by
  induction plan generalizing s with
  | done => exact .refl _
  | launch request rest ih =>
    have hlaunch := sameMasks_launch view blockable request
    exact hlaunch.trans (ih (hlaunch.blockable blockable))
  | hold inner rest ihInner ihRest =>
    cases hdefer : (Host.defer s.host).1 with
    | error cause =>
      have hrefused : (view.inbox s.host).SameMasks (view.inbox (s.undeferred cause).host) :=
        view.refuse s.host cause hdefer
      simp only [launchAll, defer_eq_error hdefer]
      exact hrefused.trans (ihRest (hrefused.blockable blockable))
    | ok u =>
      have hdeferred : (view.inbox s.host).defer.SameMasks (view.inbox s.deferred.host) :=
        view.defer s.host hdefer
      have hinner := ihInner (hdeferred.blockable (view.inbox s.host).blockable_defer)
      have hheld : (view.inbox s.host).SameMasks
          (view.inbox (s.deferred.launchAll inner).release.host) :=
        ((hdeferred.trans hinner).release blockable).trans (view.release _)
      simp only [launchAll, defer_eq_ok hdefer]
      exact hheld.trans (ihRest (hheld.blockable blockable))

/-- **Signals are held back while a job is started.** Whatever becomes of a launch, its process is
started at most once, and is started and entered in the table under one deferral more than there was
before; no news is fetched meanwhile, and in the end there are as many deferrals as before. Nothing is
asked of the host when the table is full, and no process is started when signals cannot be held back.
On a kernel with a mask, launches leave every mask as it was, also one after another and inside
deferrals. -/
theorem deferral_discipline (s : Shell σ) (request : LaunchRequest) :
    (∃ new, Guarded s request (s.launch request) new) ∧
    ∀ view : Masking σ, (view.inbox s.host).mask.Blockable → ∀ plan : LaunchPlan,
      (view.inbox (s.launchAll plan).host).mask = (view.inbox s.host).mask :=
  ⟨s.guarded_launch request, fun view blockable plan =>
    (sameMasks_launchAll view plan blockable).mask⟩

/-- Two of the deferrable signals are blocked from the start, and stay so. -/
theorem deferral_discipline_nested :
    let mask := SignalSet.ofList [.hup, .int, .chld]
    let s : Shell Machine := { host := { system := { inbox := { mask } } } }
    let cat : LaunchRequest := { argv := ["cat"], line := "cat" }
    let plan : LaunchPlan := .launch cat (.hold (.launch cat (.hold (.launch cat .done) .done)) .done)
    mask.Blockable ∧ (s.launchAll plan).host.system.inbox.mask = mask := by
  intro mask s cat plan
  have blockable : mask.Blockable := by decide
  exact ⟨blockable, (deferral_discipline s cat).2 Machine.masking blockable plan⟩

end Shell
end JobControl

import JobControl.Machine
import JobControl.Proofs.WaitStatus

/-!
# What a burst of signals stands for

The system keeps one SIGCHLD for many children, and a later SIGCHLD may find that its child has been
collected already.

* `Wait.HandsOut` : answers that hand out changes one by one; `Wait.IsQuiet` : there is nothing more;
* `Notification.reports` : the changes that are reported; `Signal.own` : what a signal stands for
  besides the children;
* `reap_handsOut`, `reap_quiet`, `reap_failed` : what asking for children collects;
* `ofSignals_own`, `ofSignals_quiet` : the signals before the first SIGCHLD, and those after it;
* `Inbox.news_collapsed` : nothing is lost, and nothing comes twice.
-/

set_option autoImplicit false

namespace JobControl

/-- What the signal stands for when no child has changed. -/
def Signal.own (s : Signal) : List Notification :=
  if s = .int ∨ s = .tstp then [.keyboard s] else if s = .quit then [.quit] else []

namespace Wait

/-- The answers hand out these changes, each once and in this order. Asking may be interrupted on the
way. -/
inductive HandsOut : List Wait → List (Pid × WaitStatus) → Prop where
  | nil : HandsOut [] []
  | changed {pid : Pid} {status : WaitStatus} {answers : List Wait}
      {changes : List (Pid × WaitStatus)} :
      HandsOut answers changes → HandsOut (.changed pid status :: answers) ((pid, status) :: changes)
  | interrupted {answers : List Wait} {changes : List (Pid × WaitStatus)} :
      HandsOut answers changes → HandsOut (.failed .interrupted :: answers) changes

def IsQuiet (w : Wait) : Prop := w = .notReady ∨ w = .failed .noChild ∨ w = .failed .interrupted

instance : DecidablePred IsQuiet := fun _ => inferInstanceAs (Decidable (_ ∨ _ ∨ _))

theorem handsOut_map (changes : List (Pid × WaitStatus)) :
    HandsOut (changes.map fun (pid, status) => .changed pid status) changes := by
  induction changes with
  | nil => exact .nil
  | cons c changes ih => exact .changed ih

end Wait

namespace Notification

/-- The changes that the shell is told of: exits, kills and stops. -/
def reports (changes : List (Pid × WaitStatus)) : List Notification :=
  changes.filterMap fun (pid, status) => status.reading.map (.child pid)

/-! ## Asking for children -/

section Asking
variable {answers ends : List Wait} {changes : List (Pid × WaitStatus)}

theorem reap_changed (pid : Pid) (status : WaitStatus) (rest : List Wait) :
    reap (.changed pid status :: rest) =
      ((reap rest).1.map (reports [(pid, status)] ++ ·), (reap rest).2) := by
  have hreports : reports [(pid, status)] = (status.reading.map (.child pid)).toList := by
    cases hread : status.reading <;> simp [reports, hread]
  rw [reap, WaitStatus.change?_eq_reading, hreports]
  generalize reap rest = answered
  obtain ⟨_ | later, left⟩ := answered <;> cases status.reading <;> rfl

/-- All that is handed out is collected, before what comes after it. -/
theorem reap_handsOut (h : Wait.HandsOut answers changes) (rest : List Wait) :
    reap (answers ++ rest) = ((reap rest).1.map (reports changes ++ ·), (reap rest).2) := by
  induction h with
  | nil =>
    rw [List.nil_append]
    generalize reap rest = answered
    obtain ⟨_ | later, left⟩ := answered <;> rfl
  | @changed pid status answers changes _ ih =>
    have hcons : reports ((pid, status) :: changes) = reports [(pid, status)] ++ reports changes :=
      List.filterMap_append (l := [(pid, status)])
    rw [List.cons_append, reap_changed, ih, hcons]
    cases (reap rest).1 with
    | error e => rfl
    | ok later => simp only [Except.map, List.append_assoc]
  | interrupted _ ih => exact ih

/-- When there is nothing more, what is left is not more either. -/
theorem reap_quiet (h : ∀ w ∈ ends, w.IsQuiet) : ∃ left, left <:+ ends ∧ reap ends = (.ok [], left) := by
  induction ends with
  | nil => exact ⟨[], List.suffix_rfl, rfl⟩
  | cons w rest ih =>
    obtain ⟨hw, hrest⟩ := List.forall_mem_cons.1 h
    rcases hw with rfl | rfl | rfl
    · exact ⟨rest, List.suffix_cons _ _, rfl⟩
    · exact ⟨rest, List.suffix_cons _ _, rfl⟩
    · obtain ⟨left, hleft, heq⟩ := ih hrest
      exact ⟨left, hleft.trans (List.suffix_cons _ _), heq⟩

theorem reap_failed {cause : SystemError} (hchild : cause ≠ .noChild)
    (hinterrupted : cause ≠ .interrupted) (rest : List Wait) :
    reap (.failed cause :: rest) = (.error (.fatal "waitpid error" cause), rest) := by
  have hnot : ¬ cause.isInterrupted = true := by
    rwa [SystemError.isInterrupted, beq_iff_eq]
  rw [reap, if_neg hchild, if_neg hnot]

/-! ## The records -/

theorem ofSignal_own {s : Signal} (h : s ≠ .chld) (waits : List Wait) :
    ofSignal s waits = (.ok s.own, waits) := by
  rw [ofSignal, if_neg h, Signal.own]
  split
  · rfl
  · split <;> rfl

theorem ofSignals_cons {s : Signal} {waits left : List Wait} {now : List Notification}
    (h : ofSignal s waits = (.ok now, left)) (rest : List Signal) : ofSignals (s :: rest) waits =
      ((ofSignals rest left).1.map (now ++ ·), (ofSignals rest left).2) := by
  rw [ofSignals, h]
  dsimp only
  generalize ofSignals rest left = answered
  obtain ⟨_ | later, after⟩ := answered <;> rfl

/-- Before the first SIGCHLD nobody asks for children. -/
theorem ofSignals_own {before : List Signal} (h : .chld ∉ before) (rest : List Signal)
    (waits : List Wait) : ofSignals (before ++ rest) waits =
      ((ofSignals rest waits).1.map (before.flatMap Signal.own ++ ·), (ofSignals rest waits).2) := by
  induction before with
  | nil =>
    rw [List.nil_append]
    generalize ofSignals rest waits = answered
    obtain ⟨_ | later, left⟩ := answered <;> rfl
  | cons s before ih =>
    rw [List.mem_cons, not_or] at h
    rw [List.cons_append, ofSignals_cons (ofSignal_own (Ne.symm h.1) waits), ih h.2,
      List.flatMap_cons]
    cases (ofSignals rest waits).1 with
    | error e => rfl
    | ok later => simp only [Except.map, List.append_assoc]

/-- When there is nothing more, a SIGCHLD stands for nothing. -/
theorem ofSignals_quiet (after : List Signal) (h : ∀ w ∈ ends, w.IsQuiet) : ∃ left, left <:+ ends ∧
    ofSignals after ends = (.ok (after.flatMap Signal.own), [], left) := by
  induction after generalizing ends with
  | nil => exact ⟨ends, List.suffix_rfl, rfl⟩
  | cons s after ih =>
    have hone : ∃ left, left <:+ ends ∧ ofSignal s ends = (.ok s.own, left) := by
      by_cases hs : s = .chld
      · subst hs
        exact reap_quiet h
      · exact ⟨ends, List.suffix_rfl, ofSignal_own hs ends⟩
    obtain ⟨left, hleft, heq⟩ := hone
    obtain ⟨left', hleft', heq'⟩ := ih fun w hw => h w (hleft.subset hw)
    exact ⟨left', hleft'.trans hleft, by rw [ofSignals_cons heq, heq']; rfl⟩

/-- The first SIGCHLD stands for all the children. -/
theorem ofSignals_chld (h : Wait.HandsOut answers changes) (hends : ∀ w ∈ ends, w.IsQuiet)
    (after : List Signal) : ∃ left, left <:+ ends ∧ ofSignals (.chld :: after) (answers ++ ends) =
      (.ok (reports changes ++ after.flatMap Signal.own), [], left) := by
  obtain ⟨left, hleft, heq⟩ := reap_quiet hends
  obtain ⟨left', hleft', heq'⟩ := ofSignals_quiet after fun w hw => hends w (hleft.subset hw)
  have hchld : ofSignal .chld (answers ++ ends) = (.ok (reports changes), left) := by
    rw [ofSignal, if_pos rfl, reap_handsOut h, heq, Except.map, List.append_nil]
  exact ⟨left', hleft'.trans hleft, by rw [ofSignals_cons hchld, heq']; rfl⟩

theorem ofSignals_failed (h : Wait.HandsOut answers changes) {cause : SystemError}
    (hchild : cause ≠ .noChild) (hinterrupted : cause ≠ .interrupted) (after : List Signal)
    (rest : List Wait) : (ofSignals (.chld :: after) (answers ++ .failed cause :: rest)).1 =
      .error (.fatal "waitpid error" cause) := by
  rw [ofSignals, ofSignal, if_pos rfl, reap_handsOut h, reap_failed hchild hinterrupted]
  rfl

end Asking

theorem flatMap_own_filter (signals : List Signal) :
    (signals.filter (· ≠ .chld)).flatMap Signal.own = signals.flatMap Signal.own := by
  induction signals with
  | nil => rfl
  | cons s signals ih =>
    by_cases hs : s = .chld
    · subst hs
      exact ih
    · rw [List.filter_cons_of_pos (by simpa using hs), List.flatMap_cons, List.flatMap_cons, ih]

end Notification

namespace Inbox

open Notification (reports)

section News
variable {b : Inbox} {changes : List (Pid × WaitStatus)} {answers ends : List Wait}
  {before after : List Signal}

theorem news_of_chld (hanswers : Wait.HandsOut answers changes) (hends : ∀ w ∈ ends, w.IsQuiet)
    (hrecords : b.records = before ++ .chld :: after) (hbefore : .chld ∉ before) :
    ∃ left, left <:+ ends ∧ b.news (answers ++ ends) =
      (.ok (before.flatMap Signal.own ++ reports changes ++ after.flatMap Signal.own),
        { b with records := [] }, left) := by
  obtain ⟨left, hleft, heq⟩ := Notification.ofSignals_chld hanswers hends after
  refine ⟨left, hleft, ?_⟩
  rw [news, hrecords, Notification.ofSignals_own hbefore, heq, Except.map, List.append_assoc]

theorem news_of_not_chld (hrecords : .chld ∉ b.records) (waits : List Wait) :
    b.news waits = (.ok (b.records.flatMap Signal.own), { b with records := [] }, waits) := by
  have heq := Notification.ofSignals_own hrecords [] waits
  rw [List.append_nil] at heq
  rw [news, heq, Notification.ofSignals, Except.map, List.append_nil]

theorem news_failed (hanswers : Wait.HandsOut answers changes) {cause : SystemError}
    (hchild : cause ≠ .noChild) (hinterrupted : cause ≠ .interrupted) (hrecords : .chld ∈ b.records)
    (rest : List Wait) :
    (b.news (answers ++ .failed cause :: rest)).1 = .error (.fatal "waitpid error" cause) := by
  obtain ⟨before, after, hsplit, hbefore⟩ := List.eq_append_cons_of_mem hrecords
  have hfailed := Notification.ofSignals_failed hanswers hchild hinterrupted after rest
  rw [news, hsplit, Notification.ofSignals_own hbefore, hfailed]
  rfl

/-- The machine hands out the changes that it has noted. -/
theorem pending_of_chld {m : Machine} (hrecords : m.system.inbox.records = before ++ .chld :: after)
    (hbefore : .chld ∉ before) : (Host.pending m).1 = .ok (before.flatMap Signal.own ++
        reports (m.system.changed.mergeSort fun a b => a.1.val ≤ b.1.val) ++
          after.flatMap Signal.own) ∧
      (Host.pending m).2.system.changed = [] := by
  have hquiet : ∀ w ∈ ([] : List Wait), w.IsQuiet := by simp
  obtain ⟨left, hleft, heq⟩ := news_of_chld (Wait.handsOut_map
    (m.system.changed.mergeSort fun a b => a.1.val ≤ b.1.val)) hquiet hrecords hbefore
  rw [List.append_nil] at heq
  obtain rfl := List.suffix_nil.1 hleft
  have hpending : Host.pending m = m.takePending := rfl
  rw [hpending, Machine.takePending, Machine.waits, heq]
  exact ⟨rfl, rfl⟩

end News

/-- **Collapsed child signals lose nothing.** Let asking for children hand out these changes, and after
them nothing. With a SIGCHLD among the records, the first of them stands for every change that is
reported, each once and in the order in which it was handed out; every other signal stands for its own
notification in the order of the records, and no change is left. Without one, no children are asked
for. So it does not matter how many more SIGCHLDs there are, nor where they are. When what comes after
the changes is a failure other than an interruption and a lack of children, taking up the records fails,
and the shell with it. All this is so for the host that the shell runs on. -/
theorem news_collapsed (b : Inbox) {changes : List (Pid × WaitStatus)} {answers ends : List Wait}
    (hanswers : Wait.HandsOut answers changes) (hends : ∀ w ∈ ends, w.IsQuiet) :
    (∀ before after, b.records = before ++ .chld :: after → .chld ∉ before →
      ∃ left, left <:+ ends ∧ b.news (answers ++ ends) =
        (.ok (before.flatMap Signal.own ++ reports changes ++ after.flatMap Signal.own),
          { b with records := [] }, left)) ∧
    (.chld ∉ b.records → b.news (answers ++ ends) =
      (.ok (b.records.flatMap Signal.own), { b with records := [] }, answers ++ ends)) ∧
    (∀ before after after', .chld ∉ before → after.filter (· ≠ .chld) = after'.filter (· ≠ .chld) →
      (news { b with records := before ++ .chld :: after } (answers ++ ends)).1 =
        (news { b with records := before ++ .chld :: after' } (answers ++ ends)).1) ∧
    (∀ cause rest, cause ≠ .noChild → cause ≠ .interrupted → .chld ∈ b.records →
      (b.news (answers ++ .failed cause :: rest)).1 = .error (.fatal "waitpid error" cause)) ∧
    ∀ m : Machine, ∀ before after, m.system.inbox.records = before ++ .chld :: after →
      .chld ∉ before → (Host.pending m).1 = .ok (before.flatMap Signal.own ++
          reports (m.system.changed.mergeSort fun a b => a.1.val ≤ b.1.val) ++
            after.flatMap Signal.own) ∧
        (Host.pending m).2.system.changed = [] := by
  refine ⟨fun before after => news_of_chld hanswers hends, fun h => news_of_not_chld h _,
    fun before after after' hbefore hafter => ?_,
    fun cause rest hchild hinterrupted h => news_failed hanswers hchild hinterrupted h rest,
    fun m before after => pending_of_chld⟩
  obtain ⟨left, -, heq⟩ :=
    news_of_chld (b := { b with records := before ++ .chld :: after }) hanswers hends rfl hbefore
  obtain ⟨left', -, heq'⟩ :=
    news_of_chld (b := { b with records := before ++ .chld :: after' }) hanswers hends rfl hbefore
  rw [heq, heq', ← Notification.flatMap_own_filter after, hafter, Notification.flatMap_own_filter]

/-- Four children changed, one of which only went on, for two SIGCHLDs among three other signals; asking
was interrupted once. Then the same without a SIGCHLD, with SIGCHLDs elsewhere, with a failure after the
changes, and on a machine. -/
theorem news_collapsed_burst :
    let answers : List Wait := [.changed ⟨101⟩ ⟨0x0300⟩, .changed ⟨102⟩ ⟨0xffff⟩, .failed .interrupted,
      .changed ⟨103⟩ ⟨0x0009⟩, .changed ⟨104⟩ ⟨0x147f⟩]
    let changes : List (Pid × WaitStatus) :=
      [(⟨101⟩, ⟨0x0300⟩), (⟨102⟩, ⟨0xffff⟩), (⟨103⟩, ⟨0x0009⟩), (⟨104⟩, ⟨0x147f⟩)]
    let ends : List Wait := [.notReady, .failed .noChild]
    let burst : Inbox := { records := [.int, .chld, .tstp, .chld, .quit] }
    let calm : Inbox := { records := [.int, .tstp] }
    let machine : Machine :=
      { system := { inbox := { records := [.chld, .int, .chld] }, changed := [(⟨101⟩, ⟨0x0300⟩)] } }
    Wait.HandsOut answers changes ∧ (∀ w ∈ ends, w.IsQuiet) ∧
    (burst.news (answers ++ ends)).1 = .ok [.keyboard .int, .child ⟨101⟩ (.exited 3),
      .child ⟨103⟩ (.signaled .kill), .child ⟨104⟩ (.stopped .tstp), .keyboard .tstp, .quit] ∧
    calm.news (answers ++ ends) = (.ok [.keyboard .int, .keyboard .tstp], {}, answers ++ ends) ∧
    (news { records := [.int, .chld, .tstp, .chld, .quit] } (answers ++ ends)).1 =
      (news { records := [.int, .chld, .chld, .chld, .tstp, .quit] } (answers ++ ends)).1 ∧
    (burst.news (answers ++ [.failed .perm])).1 = .error (.fatal "waitpid error" .perm) ∧
    (Host.pending machine).1 = .ok [.child ⟨101⟩ (.exited 3), .keyboard .int] ∧
    (Host.pending machine).2.system.changed = [] := by
  intro answers changes ends burst calm machine
  have hanswers : Wait.HandsOut answers changes :=
    .changed (.changed (.interrupted (.changed (.changed .nil))))
  have hends : ∀ w ∈ ends, w.IsQuiet := by decide
  have hfirst : Signal.chld ∉ [Signal.int] := by decide
  obtain ⟨left, -, hburst⟩ := (news_collapsed burst hanswers hends).1 [.int] [.tstp, .chld, .quit] rfl
    hfirst
  obtain ⟨hmachine, hleft⟩ := (news_collapsed burst hanswers hends).2.2.2.2 machine [] [.int, .chld] rfl
    (by decide)
  refine ⟨hanswers, hends, ?_, (news_collapsed calm hanswers hends).2.1 (by decide),
    (news_collapsed {} hanswers hends).2.2.1 [.int] [.tstp, .chld, .quit] [.chld, .chld, .tstp, .quit]
      hfirst (by decide),
    (news_collapsed burst hanswers hends).2.2.2.1 .perm [] (by decide) (by decide) (by decide), ?_, hleft⟩
  · rw [hburst]
    rfl
  · rw [hmachine, List.mergeSort_singleton]
    rfl

end Inbox
end JobControl

import JobControl.EventLoop.Commands
import JobControl.Proofs.EventLoop.Registry

/-!
# What an event loop calls

* `called` : the process and the registry after calls, one after another;
* `Lawful` : a callback that does to the registry only what may be done to it;
* `due` : the events of the registrations that a poll finds ready, each once and in order;
* `Calls` : calls up to the first that leaves a reason to stop; `dispatch_calls`;
* `Ending` : what ends a loop: its polls run out, a call leaves a reason to stop, or a poll fails;
* `Schedule` : the calls of a loop, in rounds, one for each poll; `run_schedule`.
-/

set_option autoImplicit false

namespace JobControl.EventLoop
variable {π φ ε β ξ : Type}

def called (handle : Callback π φ ε β ξ) (s : π × Registry φ ε β ξ) (calls : List ε) :
    π × Registry φ ε β ξ :=
  calls.foldl (fun s e => handle e s.1 s.2) s

/-- The callback does to the registry only what may be done to it. -/
def Lawful (handle : Callback π φ ε β ξ) : Prop :=
  ∀ (e : ε) (p : π) (r : Registry φ ε β ξ), r.Grown (handle e p r).2

/-- The events of the registrations that the poll finds ready, each once, in the order of
registration; none if it fails. -/
def due (poll : Poll π φ) (s : π × Registry φ ε β ξ) : List ε :=
  match poll s.1 with
  | .ok isReady => (s.2.registrations.filter fun reg => isReady reg.1).map Prod.snd
  | .error _ => []

def leave (stop : Option (Stop β ξ)) (s : π × Registry φ ε β ξ) : π × Registry φ ε β ξ :=
  if stop.isSome then (s.1, { s.2 with stop := none }) else s

/-- None of the calls leaves a reason to stop, except that the last one leaves `stop` if that is a
reason. -/
structure Calls (handle : Callback π φ ε β ξ) (s : π × Registry φ ε β ξ) (calls : List ε)
    (stop : Option (Stop β ξ)) : Prop where
  leaves : ∀ front e rest, calls = front ++ e :: rest →
    (called handle s (front ++ [e])).2.stop = if rest = [] then stop else none
  idle : calls = [] → stop = none

inductive Ending (β ξ : Type) where
  /-- There are no more polls. -/
  | idle
  /-- A call has left a reason to stop. -/
  | call (reason : Stop β ξ)
  /-- A poll has failed. -/
  | poll (cause : SystemError)

namespace Ending

def left? : Ending β ξ → Option (Stop β ξ)
  | call reason => some reason
  | _ => none

/-- Why the loop stops; `failed` makes a reason of the failure of a poll. -/
def stop? (failed : SystemError → β) : Ending β ξ → Option (Stop β ξ)
  | idle => none
  | call reason => some reason
  | poll cause => some (.abort (failed cause))

end Ending

/-- The calls of a loop in rounds, and what ends it. -/
structure Schedule (handle : Callback π φ ε β ξ) (polls : List (Poll π φ))
    (s : π × Registry φ ε β ξ) (rounds : List (List ε)) (ending : Ending β ξ) : Prop where
  /-- There is a round for each poll as long as the loop goes on. -/
  length : rounds.length ≤ polls.length ∧ (ending = .idle → rounds.length = polls.length)
  /-- A round hands over the events of the registrations that its poll finds ready: all of them, or in
  the round of a call that ends the loop, the first ones. -/
  round : ∀ n calls poll, rounds[n]? = some calls → polls[n]? = some poll →
    calls <+: due poll (called handle s (rounds.take n).flatten) ∧
      (ending.left? = none ∨ n + 1 < rounds.length →
        calls = due poll (called handle s (rounds.take n).flatten))
  /-- A poll that fails was interrupted, or it is the last one. -/
  failure : ∀ n poll e, polls[n]? = some poll → n < rounds.length →
    poll (called handle s (rounds.take n).flatten).1 = .error e →
      e.isInterrupted ∨ n + 1 = rounds.length ∧ ending = .poll e
  /-- A failure ends the loop only if the last poll has failed, and was not interrupted. -/
  polled : ∀ e, ending = .poll e → e.isInterrupted = false ∧ ∃ n poll, n + 1 = rounds.length ∧
    polls[n]? = some poll ∧ poll (called handle s (rounds.take n).flatten).1 = .error e
  /-- The first call that leaves a reason to stop is the last one. -/
  calls : Calls handle s rounds.flatten ending.left?
  /-- A call that ends the loop is made in the last round. -/
  last : ending.left?.isSome → ∃ calls ∈ rounds.getLast?, calls ≠ []

variable {handle : Callback π φ ε β ξ} {s : π × Registry φ ε β ξ} {stop : Option (Stop β ξ)}
  {ending : Ending β ξ} {poll : Poll π φ} {polls : List (Poll π φ)}

/-! ## Calls -/

theorem called_append (handle : Callback π φ ε β ξ) (s : π × Registry φ ε β ξ)
    (calls later : List ε) :
    called handle s (calls ++ later) = called handle (called handle s calls) later :=
  List.foldl_append

theorem Lawful.grown (lawful : Lawful handle) (s : π × Registry φ ε β ξ) (calls : List ε) :
    s.2.Grown (called handle s calls).2 := by
  induction calls generalizing s with
  | nil => exact .refl
  | cons e calls ih => exact (lawful e s.1 s.2).trans (ih _)

namespace Calls

theorem nil (handle : Callback π φ ε β ξ) (s : π × Registry φ ε β ξ) : Calls handle s [] none where
  leaves front e rest h := by simp at h
  idle _ := rfl

theorem single (handle : Callback π φ ε β ξ) (s : π × Registry φ ε β ξ) (e : ε) :
    Calls handle s [e] (handle e s.1 s.2).2.stop where
  leaves front e' rest h := by
    obtain ⟨rfl, rfl, rfl⟩ : front = [] ∧ e' = e ∧ rest = [] := by
      simpa [List.singleton_eq_append_iff] using h
    rfl
  idle h := by cases h

/-- Calls that leave no reason to stop may be followed by others. -/
theorem append {calls later : List ε} (h : Calls handle s calls none)
    (h' : Calls handle (called handle s calls) later stop) :
    Calls handle s (calls ++ later) stop where
  leaves front e rest hsplit := by
    rcases List.append_eq_append_iff.1 hsplit with ⟨front', rfl, hlater⟩ | ⟨rest', hcalls, hrest⟩
    · rw [List.append_assoc, called_append]
      exact h'.leaves front' e rest hlater
    · cases rest' with
      | nil =>
        have hstop := h'.leaves [] e rest hrest.symm
        rw [List.append_nil] at hcalls
        rwa [hcalls, ← called_append] at hstop
      | cons e' rest' =>
        obtain ⟨rfl, rfl⟩ := List.cons.inj hrest
        have hstop := h.leaves front e rest' hcalls
        rw [ite_self] at hstop
        rw [hstop]
        split
        · next hnil => exact (h'.idle (List.append_eq_nil_iff.1 hnil).2).symm
        · rfl
  idle hnil := h'.idle (List.append_eq_nil_iff.1 hnil).2

end Calls

/-! ## Rounds -/

/-- A dispatch hands over events in order, all of them unless it stops. -/
theorem dispatch_calls (handle : Callback π φ ε β ξ) (events : List ε) (s : π × Registry φ ε β ξ) :
    ∃ calls stop, dispatch handle events s.1 s.2 = (stop, leave stop (called handle s calls)) ∧
      Calls handle s calls stop ∧ calls <+: events ∧ (stop = none → calls = events) := by
  induction events generalizing s with
  | nil => exact ⟨[], none, rfl, .nil handle s, List.prefix_rfl, fun _ => rfl⟩
  | cons e events ih =>
    have hsingle := Calls.single handle s e
    rw [dispatch]
    dsimp only
    cases hstop : (handle e s.1 s.2).2.stop with
    | some reason =>
      rw [hstop] at hsingle
      exact ⟨[e], some reason, rfl, hsingle, List.prefix_append [e] events, fun h => by cases h⟩
    | none =>
      rw [hstop] at hsingle
      obtain ⟨calls, stop, hout, hcalls, hstart, hall⟩ := ih (handle e s.1 s.2)
      refine ⟨e :: calls, stop, hout, hsingle.append hcalls, ?_, fun h => by rw [hall h]⟩
      exact List.cons_prefix_cons.2 ⟨rfl, hstart⟩

namespace Schedule

theorem nil (handle : Callback π φ ε β ξ) (s : π × Registry φ ε β ξ) :
    Schedule handle [] s [] .idle where
  length := ⟨Nat.le_refl 0, fun _ => rfl⟩
  round n calls poll h := by cases h
  failure n poll e h := by cases h
  polled e h := by cases h
  calls := .nil handle s
  last h := by cases h

/-- A round in which a call ends the loop is the last one. -/
theorem stopped (polls : List (Poll π φ)) {calls : List ε} {reason : Stop β ξ}
    (h : Calls handle s calls (some reason)) (hstart : calls <+: due poll s) :
    Schedule handle (poll :: polls) s [calls] (.call reason) where
  length := ⟨by simp, fun h => by cases h⟩
  round n calls' poll' hcalls hpoll := by
    cases n with
    | zero =>
      obtain rfl : calls = calls' := Option.some.inj hcalls
      obtain rfl : poll = poll' := Option.some.inj hpoll
      refine ⟨hstart, fun hgo => ?_⟩
      rcases hgo with hnone | hlt
      · cases hnone
      · simp at hlt
    | succ n => cases hcalls
  failure n poll' e hpoll hn he := by
    obtain rfl : n = 0 := Nat.lt_one_iff.1 hn
    obtain rfl : poll = poll' := Option.some.inj hpoll
    have hnone : due poll s = [] := by
      have he : poll s.1 = .error e := he
      rw [due, he]
    rw [hnone, List.prefix_nil] at hstart
    cases h.idle hstart
  polled e h := by cases h
  calls := by
    rw [List.flatten_singleton]
    exact h
  last _ := by
    refine ⟨calls, rfl, fun hnil => ?_⟩
    cases h.idle hnil

/-- A poll that fails, and was not interrupted, is the last one. -/
theorem failed (polls : List (Poll π φ)) {e : SystemError} (he : poll s.1 = .error e)
    (hfatal : e.isInterrupted = false) :
    Schedule handle (poll :: polls) s [[]] (.poll e) where
  length := ⟨by simp, fun h => by cases h⟩
  round n calls poll' hcalls hpoll := by
    cases n with
    | zero =>
      obtain rfl : [] = calls := Option.some.inj hcalls
      obtain rfl : poll = poll' := Option.some.inj hpoll
      have hnone : due poll s = [] := by rw [due, he]
      exact ⟨List.nil_prefix, fun _ => hnone.symm⟩
    | succ n => cases hcalls
  failure n poll' e' hpoll hn he' := by
    obtain rfl : n = 0 := Nat.lt_one_iff.1 hn
    obtain rfl : poll = poll' := Option.some.inj hpoll
    obtain rfl : e = e' := Except.error.inj (he.symm.trans he')
    exact .inr ⟨rfl, rfl⟩
  polled e' h := by
    obtain rfl : e = e' := Ending.poll.inj h
    exact ⟨hfatal, 0, poll, rfl, rfl, he⟩
  calls := .nil handle s
  last h := by cases h

/-- Further rounds follow one that does not end the loop. -/
theorem cons {rounds : List (List ε)}
    (heard : ∀ e, poll s.1 = .error e → e.isInterrupted) (h : Calls handle s (due poll s) none)
    (h' : Schedule handle polls (called handle s (due poll s)) rounds ending) :
    Schedule handle (poll :: polls) s (due poll s :: rounds) ending where
  length := by
    obtain ⟨hle, hall⟩ := h'.length
    exact ⟨Nat.succ_le_succ hle, fun hidle => congrArg (· + 1) (hall hidle)⟩
  round n calls poll' hcalls hpoll := by
    cases n with
    | zero =>
      obtain rfl : due poll s = calls := Option.some.inj hcalls
      obtain rfl : poll = poll' := Option.some.inj hpoll
      exact ⟨List.prefix_rfl, fun _ => rfl⟩
    | succ n =>
      obtain ⟨hstart, hall⟩ := h'.round n calls poll' hcalls hpoll
      rw [← called_append] at hstart hall
      exact ⟨hstart, fun hgo => hall (hgo.imp_right Nat.lt_of_succ_lt_succ)⟩
  failure n poll' e hpoll hn he := by
    cases n with
    | zero =>
      obtain rfl : poll = poll' := Option.some.inj hpoll
      exact .inl (heard e he)
    | succ n =>
      have hlater := h'.failure n poll' e hpoll (Nat.lt_of_succ_lt_succ hn)
      rw [← called_append] at hlater
      exact (hlater he).imp_right fun ⟨hlast, hending⟩ => ⟨congrArg (· + 1) hlast, hending⟩
  polled e hending := by
    obtain ⟨hfatal, n, poll', hlast, hpoll, he⟩ := h'.polled e hending
    rw [← called_append] at he
    exact ⟨hfatal, n + 1, poll', congrArg (· + 1) hlast, hpoll, he⟩
  calls := h.append h'.calls
  last hstop := by
    obtain ⟨calls, hcalls, hne⟩ := h'.last hstop
    refine ⟨calls, ?_, hne⟩
    rw [List.getLast?_cons, Option.mem_def.1 hcalls]
    rfl

end Schedule

/-- A loop makes its calls in rounds. -/
theorem exists_schedule (handle : Callback π φ ε β ξ) (failed : SystemError → β)
    (polls : List (Poll π φ)) (s : π × Registry φ ε β ξ) :
    ∃ rounds ending, run handle failed polls s.1 s.2 =
        (ending.stop? failed, leave ending.left? (called handle s rounds.flatten)) ∧
      Schedule handle polls s rounds ending := by
  induction polls generalizing s with
  | nil => exact ⟨[], .idle, rfl, .nil handle s⟩
  | cons poll polls ih =>
    cases hpoll : poll s.1 with
    | error e =>
      have hnone : due poll s = [] := by rw [due, hpoll]
      rw [run, hpoll]
      dsimp only
      split
      · next heard =>
        obtain ⟨rounds, ending, hout, hrounds⟩ := ih s
        have hcons : Schedule handle (poll :: polls) s (due poll s :: rounds) ending :=
          .cons (fun e' he' => Except.error.inj (hpoll.symm.trans he') ▸ heard)
            (hnone ▸ .nil handle s) (hnone ▸ hrounds)
        refine ⟨_, ending, ?_, hcons⟩
        rw [hnone]
        exact hout
      · next hfatal => exact ⟨[[]], .poll e, rfl, .failed polls hpoll (by simpa using hfatal)⟩
    | ok isReady =>
      have hdue : due poll s = s.2.readyEvents isReady := by
        rw [due, hpoll, Registry.readyEvents_eq]
      obtain ⟨calls, stop, hout, hcalls, hstart, hall⟩ :=
        dispatch_calls handle (s.2.readyEvents isReady) s
      rw [← hdue] at hstart hall
      rw [run, hpoll]
      dsimp only
      rw [hout]
      cases stop with
      | some reason =>
        refine ⟨[calls], .call reason, ?_, .stopped polls hcalls hstart⟩
        rw [List.flatten_singleton]
        rfl
      | none =>
        obtain rfl : calls = due poll s := hall rfl
        obtain ⟨rounds, ending, hout', hrounds⟩ := ih (called handle s (due poll s))
        refine ⟨due poll s :: rounds, ending, ?_, .cons (fun e he => ?_) hcalls hrounds⟩
        · rw [List.flatten_cons, called_append]
          exact hout'
        · cases hpoll.symm.trans he

/-- **Dispatch is complete and in order.** Whatever history a registry has, and whatever a lawful
callback does, a loop calls it in rounds, one for each poll: with the events of the registrations that
the poll finds ready, each once and in the order of registration, and no further after the first call
that leaves a reason to stop. A registration made on the way comes after all earlier ones. A poll that
was interrupted makes an empty round, and one that fails otherwise ends the loop. Whatever is done to a
registry, the keys of its maps are the same, no lookup fails and no registration is lost. -/
theorem run_schedule {handle : Callback π φ ε β ξ} (lawful : Lawful handle)
    (failed : SystemError → β) (polls : List (Poll π φ)) (p : π) {r : Registry φ ε β ξ}
    (grown : ({} : Registry φ ε β ξ).Grown r) :
    (∃ rounds ending, Schedule handle polls (p, r) rounds ending ∧
      run handle failed polls p r =
        (ending.stop? failed, leave ending.left? (called handle (p, r) rounds.flatten))) ∧
    (∀ calls later, ({} : Registry φ ε β ξ).Grown (called handle (p, r) (calls ++ later)).2 ∧
      (called handle (p, r) calls).2.registrations <+:
        (called handle (p, r) (calls ++ later)).2.registrations) ∧
    ∀ r' : Registry φ ε β ξ, ({} : Registry φ ε β ξ).Grown r' → r'.InStep := by
  have hcalled (calls : List ε) : ({} : Registry φ ε β ξ).Grown (called handle (p, r) calls).2 :=
    grown.trans (lawful.grown (p, r) calls)
  refine ⟨?_, fun calls later => ⟨hcalled _, ?_⟩, fun r' hr' => hr'.inStep⟩
  · obtain ⟨rounds, ending, hout, hrounds⟩ := exists_schedule handle failed polls (p, r)
    exact ⟨rounds, ending, hrounds, hout⟩
  · rw [called_append]
    exact (hcalled calls).registrations (lawful.grown _ later)

/-! ## Commands -/

theorem Commands.lawful_handle : Lawful Commands.handle := by
  intro n p r
  have hobey (byte : Option Char) (count : Nat) : r.Grown (Commands.obey byte n count r) := by
    unfold Commands.obey
    split
    · exact .exit _ .refl
    · exact .exit _ .refl
    · exact .abort _ .refl
    · exact .abort _ (.exit _ .refl)
    · exact .exit _ (.abort _ .refl)
    · exact .exit _ (.exit _ .refl)
    · exact .register _ _ .refl
    · exact .refl
  exact hobey _ _

theorem Commands.grown_registry (p : Commands) : ({} : Commands.Loop).Grown p.registry := by
  have hfold (streams : List Nat) {r : Commands.Loop} (h : ({} : Commands.Loop).Grown r) :
      ({} : Commands.Loop).Grown (streams.foldl (fun r n => r.register n n) r) := by
    induction streams generalizing r with
    | nil => exact h
    | cons n streams ih => exact ih (.register n n h)
  exact hfold _ .refl

/-- The first byte registers its stream once more. The next poll is interrupted. In the round after it
the stream is read twice, and the second time it stops the loop. Without that, the last poll would have
failed. -/
theorem run_schedule_of_commands :
    let p : Commands := { streams := [[43, 97, 113], [97, 97]] }
    let ready : Poll Commands Nat := fun _ => .ok fun _ => true
    let polls := [ready, fun _ => .error .interrupted, ready, fun _ => .error .perm]
    let out := run Commands.handle id polls p p.registry
    (Lawful Commands.handle ∧ ({} : Commands.Loop).Grown p.registry) ∧
      (out.1 = some (.exit 4) ∧ out.2.1.trace.map Prod.fst = [0, 1, 0, 1, 0] ∧
        out.2.2.registrations = [(0, 0), (1, 1), (0, 0)]) ∧
      (run Commands.handle id (polls.tail.eraseIdx 1) p p.registry).1 = some (.abort .perm) ∧
      ∃ rounds ending, Schedule Commands.handle polls (p, p.registry) rounds ending ∧
        out = (ending.stop? id,
          leave ending.left? (called Commands.handle (p, p.registry) rounds.flatten)) := by
  intro p ready polls out
  exact ⟨⟨Commands.lawful_handle, p.grown_registry⟩, by decide, by decide,
    (run_schedule Commands.lawful_handle id polls p p.grown_registry).1⟩

end JobControl.EventLoop

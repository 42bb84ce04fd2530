import JobControl.Proofs.EventLoop.Run
import JobControl.Proofs.ReadLoop.Interpreter
import JobControl.Proofs.Shell.Run

/-!
# Runs of the read loop

* `Shell.Keeps` : what the operations of the shell keep as long as it goes on (`K`), and what they keep
  anyway (`J`); so does a shell that follows events (`Keeps.follow`);
* `Reader.holds_run` : the read loop does too, since its shell follows events;
* `Reader.recorded_run` : whatever the shell of a read loop does is recorded.
-/

set_option autoImplicit false

namespace JobControl

/-! ## What operations keep -/

namespace Shell
variable {σ : Type} [Host σ] {s : Shell σ} {op : Op}

theorem past_step (s : Shell σ) (op : Op) : (s.step op).2.past = (s.perform op).2.past := by
  unfold step
  obtain ⟨e | flow, s'⟩ := s.perform op
  · dsimp only
    split <;> rfl
  · cases flow <;> rfl

theorem goesOn_of_step (h : (s.step op).1 = none) : GoesOn (s.perform op).1 := by
  unfold step at h
  rcases hout : s.perform op with ⟨e | flow, s'⟩ <;> rw [hout] at h
  · refine .inr ⟨e, rfl, fun hfatal => ?_⟩
    simp [hfatal] at h
  · cases flow with
    | «continue» => exact .inl rfl
    | exit code => cases h

/-- `K` holds if the shell goes on, and `J` anyway. -/
structure Kept (K J : Shell σ → Prop) (out : Option (Except Error Int) × Shell σ) : Prop where
  always : J out.2
  going : out.1 = none → K out.2

/-- Operations keep `K` as long as the shell goes on, and `J` anyway; `K` is not about the host, or
what the shell has said. -/
structure Keeps (σ : Type) [Host σ] (K J : Shell σ → Prop) : Prop where
  weaken : ∀ s, K s → J s
  step : ∀ (s : Shell σ) (op : Op), K s → Kept K J (s.step op)
  say : ∀ (s : Shell σ) (n : Notice), K s → K (s.say n)
  host : ∀ (s : Shell σ) (host : σ), K s → K { s with host }

variable {K J : Shell σ → Prop}

omit [Host σ] in
theorem Kept.goOn {out : Option (Except Error Int) × Shell σ}
    {next : Shell σ → Option (Except Error Int) × Shell σ} (h : Kept K J out)
    (hnext : ∀ s, K s → Kept K J (next s)) : Kept K J (goOn out next) := by
  obtain ⟨_ | outcome, s⟩ := out
  · exact hnext s (h.going rfl)
  · exact ⟨h.always, nofun⟩

namespace Keeps

/-- For properties of the past it is enough to look at operations. -/
theorem ofPast {K J : Past → Prop} (weaken : ∀ p, K p → J p)
    (perform : ∀ (s : Shell σ) (op : Op), K s.past → J (s.perform op).2.past ∧
      (GoesOn (s.perform op).1 → K (s.perform op).2.past)) :
    Keeps σ (fun s => K s.past) (fun s => J s.past) where
  weaken s := weaken s.past
  step s op h := by
    obtain ⟨hj, hk⟩ := perform s op h
    rw [← past_step] at hj hk
    exact ⟨hj, fun hgo => hk (goesOn_of_step hgo)⟩
  say _ _ h := h
  host _ _ h := h

variable (keeps : Keeps σ K J)
include keeps

theorem kept (h : K s) : Kept K J (none, s) := ⟨keeps.weaken s h, fun _ => h⟩

theorem attend (h : K s) (line : List UInt8) : Kept K J (s.attend line) :=
  (keeps.step s .drain h).goOn fun s h => keeps.step s _ h

theorem heed (h : K s) (prompt : Bool) (e : Event) : Kept K J (s.heed prompt e) := by
  cases e with
  | news => exact keeps.step s .drain h
  | line bytes =>
    refine (keeps.attend h bytes).goOn fun s h => keeps.kept ?_
    unfold greet
    split
    · exact keeps.say s .prompt h
    · exact h
  | ended rest =>
    have hlast : Kept K J (if rest.isEmpty then (none, s) else s.attend rest) := by
      split
      · exact keeps.kept h
      · exact keeps.attend h rest
    exact hlast.goOn fun s h => ⟨keeps.weaken _ (keeps.say s .blank h), nofun⟩

theorem follow (h : K s) (prompt : Bool) (events : List Event) :
    Kept K J (s.follow prompt events) := by
  induction events generalizing s with
  | nil => exact keeps.kept h
  | cons e events ih => exact (keeps.heed h prompt e).goOn fun s h => ih h

end Keeps
end Shell

/-! ## What the loop keeps -/

namespace Reader
open Shell (Keeps Kept)
variable {σ : Type} {K J : Shell σ → Prop} {l : Reader σ} {r : Loop}

/-- `J` holds, and `K` while the loop goes on. -/
structure Holds (K J : Shell σ → Prop) (l : Reader σ) (r : Loop) : Prop where
  always : J l.shell
  going : r.stop = none → K l.shell

theorem Holds.proceed {out : Option (Except Error Int) × Shell σ} (h : Kept K J out)
    (hr : r.stop = none) : Holds K J (l.proceed r out).1 (l.proceed r out).2 := by
  refine ⟨h.always, fun hr' => h.going ?_⟩
  rw [← EventLoop.Registry.outcome_halt hr out.1]
  exact congrArg _ hr'

variable [Host σ] [Input σ]

theorem holds_onInput (keeps : Keeps σ K J) (h : Holds K J l r) (hr : r.stop = none) :
    Holds K J (l.onInput r).1 (l.onInput r).2 := by
  rcases hread : Input.read Command.maxLine l.shell.host with ⟨e | bytes, host⟩
  · have hk : K { l.shell with host } := keeps.host _ _ (h.going hr)
    rw [onInput, hread]
    dsimp only
    split
    · exact ⟨keeps.weaken _ hk, fun _ => hk⟩
    · exact ⟨keeps.weaken _ hk, fun hstop => by cases hstop⟩
  · rw [l.onInput_eq hr hread]
    exact .proceed (keeps.follow (keeps.host _ _ (h.going hr)) _ _) hr

/-- What the operations of the shell keep, a run of the loop keeps. -/
theorem holds_run (keeps : Keeps σ K J) (h : K l.shell)
    (polls : List (EventLoop.Poll (Reader σ) Channel)) : J (l.run polls).2 := by
  have step : ∀ (e : Channel) (l : Reader σ) (r : Loop), Holds K J l r → r.stop = none →
      Holds K J (handle e l r).1 (handle e l r).2 := by
    intro e l r h hr
    cases e with
    | signals =>
      rw [handle, l.onSignal_eq]
      exact .proceed (keeps.heed (h.going hr) _ _) hr
    | input => exact holds_onInput keeps h hr
  have hstart : K l.showPrompt.shell := by
    unfold showPrompt
    split
    · exact keeps.say _ _ h
    · exact h
  obtain ⟨r', hend⟩ := EventLoop.run_keeps step polls ⟨keeps.weaken _ hstart, fun _ => hstart⟩
    (r := registry) rfl
  exact hend.always

theorem recorded_run (host : σ) (console : Console) (prompt : Bool)
    (polls : List (EventLoop.Poll (Reader σ) Channel)) :
    (Reader.run { shell := { host, console }, prompt } polls).2.past.Recorded σ := by
  have keeps : Keeps σ (fun s => s.past.Recorded σ ∧ s.past.Settled) (fun s => s.past.Recorded σ) := by
    refine .ofPast (K := fun p => p.Recorded σ ∧ p.Settled) (fun _ h => h.1) fun s op h => ?_
    obtain ⟨hpath, hsettled⟩ := s.reach_perform op h.2
    have hrecorded : (s.perform op).2.past.Recorded σ := Relation.ReflTransGen.trans h.1 hpath
    exact ⟨hrecorded, fun _ => ⟨hrecorded, hsettled⟩⟩
  exact holds_run (l := { shell := { host, console }, prompt }) keeps
    ⟨Relation.ReflTransGen.refl, Past.settled_nil _ _⟩ polls

end Reader
end JobControl

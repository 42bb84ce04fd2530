import JobControl.Proofs.Table.Foreground
import Mathlib.Data.List.Induction

/-!
# Table lemmas: a second job in the foreground

A table compares processes to keep a second job out of the foreground, but moves the first job of a
process. Where a process has two jobs, these need not be the same.

* `OneForeground.perform_iff` : only moving a shadowed process to the foreground leads to two jobs
  there;
* `oneForeground_after_iff` : when there is at most one job in the foreground through operations one
  after another;
* `second_foreground_admitted` : there may be two.
-/

set_option autoImplicit false

namespace JobControl.Table
open List

variable {t : Table}

/-! ## One operation -/

/-- The table moves a shadowed process to the foreground. -/
theorem Shadowed.moves {pid : Pid} (h : t.Shadowed pid) : t.Moves pid .foreground := by
  obtain ⟨hfg, -⟩ := h
  refine ⟨fun _ owner ho => ?_, ?_⟩
  · rw [hfg] at ho
    exact (Option.some.inj ho).symm
  · obtain ⟨k, hk, hpid, -⟩ := foreground?_eq_some hfg
    exact ⟨k, hk, hpid⟩

/-- From a table with at most one job in the foreground, an operation leads to another such table
unless it moves a shadowed process to the foreground. -/
theorem OneForeground.perform_iff (h : t.OneForeground) (op : Op) :
    (t.perform op).2.OneForeground ↔
      ∀ pid, op = .setState pid .foreground → ¬ t.Shadowed pid := by
  cases op with
  | setState pid state =>
    cases hset : t.setState pid state with
    | error reason =>
      simp only [perform, hset]
      refine iff_of_true h fun p hp shadowed => ?_
      obtain ⟨rfl, rfl⟩ := Op.setState.inj hp
      have hok := setState_eq_ok_iff.2 ⟨shadowed.moves, rfl⟩
      rw [hset] at hok
      cases hok
    | ok t' =>
      obtain ⟨moves, rfl⟩ := setState_eq_ok_iff.1 hset
      simp only [perform, hset]
      by_cases hs : state = .foreground
      · subst hs
        rw [h.moved_iff moves]
        constructor
        · rintro hclear p hp
          obtain ⟨rfl, -⟩ := Op.setState.inj hp
          exact hclear
        · exact fun hall => hall pid rfl
      · refine iff_of_true (h.moved_away moves.found hs) fun p hp => ?_
        exact absurd (Op.setState.inj hp).2 hs
  | add pid state line =>
    refine iff_of_true ?_ fun p hp => by cases hp
    cases hadd : t.add pid state line with
    | error reason => simpa only [perform, hadd] using h
    | ok answer =>
      obtain ⟨admits, -, ht⟩ := add_eq_ok_iff.1 hadd
      simp only [perform, hadd, ht]
      exact h.placed admits
  | remove pid =>
    refine iff_of_true ?_ fun p hp => by cases hp
    cases hremove : t.remove pid with
    | none => simpa only [perform, hremove] using h
    | some answer =>
      obtain ⟨found, ht⟩ := remove_eq_some_iff.1 hremove
      simp only [perform, hremove, ht]
      exact h.removed found
  | clear => exact iff_of_true (.empty _) fun p hp => by cases hp
  | findByPid pid => exact iff_of_true h fun p hp => by cases hp
  | findById i => exact iff_of_true h fun p hp => by cases hp
  | list => exact iff_of_true h fun p hp => by cases hp

/-! ## Operations one after another -/

/-- **Jobs in the foreground.** Through any operations on an empty table there is at most one at
every point, just if no operation moves a shadowed process to the foreground; and so there is if no
process is added while a live job has it. -/
theorem oneForeground_after_iff (c : Nat) (ops : List Op) :
    ((∀ q, q <+: ops → (after c q).OneForeground) ↔
      ∀ q pid, q ++ [.setState pid .foreground] <+: ops → ¬ (after c q).Shadowed pid) ∧
    ((empty c).AddsFresh ops → ∀ q, q <+: ops → (after c q).OneForeground) := by
  have hiff : (∀ q, q <+: ops → (after c q).OneForeground) ↔
      ∀ q pid, q ++ [.setState pid .foreground] <+: ops → ¬ (after c q).Shadowed pid := by
    constructor
    · intro hone q pid hq
      have hbefore := hone q ((List.prefix_append q _).trans hq)
      have hafter := hone _ hq
      rw [after_concat] at hafter
      exact (hbefore.perform_iff _).1 hafter pid rfl
    · intro hclear q hq
      induction q using List.reverseRecOn with
      | nil => exact .empty c
      | append_singleton q op ih =>
        rw [after_concat]
        refine ((ih ((List.prefix_append q [op]).trans hq)).perform_iff op).2 fun pid hop => ?_
        exact hclear q pid (hop ▸ hq)
  refine ⟨hiff, fun fresh => hiff.2 fun q pid hq => ?_⟩
  have hdistinct : (after c q).Distinct :=
    (Distinct.empty c).performAll fresh ((List.prefix_append q _).trans hq)
  exact hdistinct.not_shadowed pid

/-- Two jobs take turns in the foreground. -/
theorem oneForeground_after_taking_turns :
    let ops : List Op := [.add ⟨7⟩ .stopped "a", .add ⟨8⟩ .foreground "b",
      .setState ⟨8⟩ .stopped, .setState ⟨7⟩ .foreground, .setState ⟨7⟩ .foreground]
    (empty 2).AddsFresh ops ∧ (∀ q, q <+: ops → (after 2 q).OneForeground) ∧
      ∀ q pid, q ++ [.setState pid .foreground] <+: ops → ¬ (after 2 q).Shadowed pid := by
  intro ops
  have fresh : (empty 2).AddsFresh ops := by decide
  have hone := (oneForeground_after_iff 2 ops).2 fresh
  exact ⟨fresh, hone, (oneForeground_after_iff 2 ops).1.1 hone⟩

/-- A process has a stopped job and then one in the foreground. Moved to the foreground, it has two
there. -/
theorem second_foreground_admitted :
    let ops : List Op := [.add ⟨7⟩ .stopped "a", .add ⟨7⟩ .foreground "b", .setState ⟨7⟩ .foreground]
    ((empty 2).performAll ops).1 = [.added 1, .added 2, .done] ∧
      (after 2 ops).jobs = [⟨1, ⟨7⟩, .foreground, "a"⟩, ⟨2, ⟨7⟩, .foreground, "b"⟩] ∧
      ¬ (after 2 ops).OneForeground ∧ ¬ ∀ c ops, (after c ops).OneForeground := by
  intro ops
  have htwo : ¬ (after 2 ops).OneForeground := by
    unfold OneForeground
    decide
  exact ⟨rfl, rfl, htwo, fun hall => htwo (hall 2 ops)⟩

end JobControl.Table

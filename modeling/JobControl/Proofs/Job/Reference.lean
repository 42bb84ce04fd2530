import JobControl.Job
import JobControl.Proofs.Text.Decimal

/-!
# Writing a reference down

* `Job.Reference.Spells` : the characters stand for a reference; `Job.Reference.Fits` : its number is one
  that can be written;
* `Job.Reference.text` : a reference as a user writes it, `parse?_text` : it is read as such;
* `Job.Reference.Names` : the jobs that a reference is for;
* `parse_language` : just the references that fit are read, each as what it stands for.
-/

set_option autoImplicit false

namespace JobControl

namespace Job.Reference

def Fits : Reference → Prop
  | .id i => i ≤ maxId
  | .pid p => minPid ≤ p.val ∧ p.val ≤ maxPid

instance : DecidablePred Fits
  | .id i => inferInstanceAs (Decidable (i ≤ maxId))
  | .pid p => inferInstanceAs (Decidable (minPid ≤ p.val ∧ p.val ≤ maxPid))

def text : Reference → String
  | .id i => "%" ++ toString i
  | .pid p => toString p

def Names : Reference → Job → Prop
  | .id i, k => k.id = i
  | .pid p, k => k.pid = p

/-- The characters stand for this reference, whether or not its number fits. -/
inductive Spells : List Char → Reference → Prop where
  | id {cs : List Char} {i : Nat} : Decimal.Unsigned cs i → Spells ('%' :: cs) (.id i)
  | pid {cs : List Char} {z : Int} : Decimal.Signed cs z → Spells cs (.pid ⟨z⟩)

theorem toList_text_id (i : Nat) : (text (.id i)).toList = '%' :: Nat.toDigits 10 i := by
  rw [text, String.toList_append, Nat.toString_eq_repr, Nat.toList_repr]
  rfl

/-- The characters of a reference are digits, but for the first one. -/
theorem exists_toList_text (r : Reference) : ∃ c cs, r.text.toList = c :: cs ∧
    (c.isDigit = true ∨ c = '%' ∨ c = '-') ∧ ∀ d ∈ cs, d.isDigit = true := by
  cases r with
  | id i =>
    obtain ⟨c, cs, hdigits, hall⟩ := Decimal.exists_toDigits i
    exact ⟨'%', c :: cs, by rw [toList_text_id, hdigits], by simp, hall⟩
  | pid p =>
    obtain ⟨c, cs, htext, hc, hcs⟩ := Decimal.exists_toList_toString p.val
    exact ⟨c, cs, htext, hc.imp_right .inr, hcs⟩

theorem spells_percent_iff {cs : List Char} {r : Reference} :
    Spells ('%' :: cs) r ↔ ∃ i, Decimal.Unsigned cs i ∧ .id i = r := by
  constructor
  · rintro (h | h)
    · exact ⟨_, h, rfl⟩
    · exact absurd h.head (by decide)
  · rintro ⟨i, h, rfl⟩
    exact .id h

theorem spells_iff_of_ne {cs : List Char} {r : Reference} (hcs : ∀ rest, cs ≠ '%' :: rest) :
    Spells cs r ↔ ∃ z, Decimal.Signed cs z ∧ .pid ⟨z⟩ = r := by
  constructor
  · rintro (h | h)
    · exact absurd rfl (hcs _)
    · exact ⟨_, h, rfl⟩
  · rintro ⟨z, h, rfl⟩
    exact .pid h

theorem Spells.unique {cs : List Char} {r r' : Reference} (h : Spells cs r) (h' : Spells cs r') :
    r = r' := by
  rcases h with h | h
  · obtain ⟨i, hi, rfl⟩ := spells_percent_iff.1 h'
    rw [h.unique hi]
  · rcases h' with h' | h'
    · exact absurd h.head (by decide)
    · rw [h.unique h']

theorem parse?_eq_some_iff {arg : String} {r : Reference} :
    parse? arg = some r ↔ Spells arg.toList r ∧ r.Fits := by
  have hleast : minPid ≤ 0 := by decide
  have hmost : 0 ≤ maxPid := by decide
  unfold parse?
  split
  · next rest heq =>
    rw [heq, spells_percent_iff, Option.map_eq_some_iff]
    constructor
    · rintro ⟨i, hread, rfl⟩
      obtain ⟨h, hfits⟩ := Decimal.unsigned?_eq_some_iff.1 hread
      exact ⟨⟨i, h, rfl⟩, hfits⟩
    · rintro ⟨⟨i, h, rfl⟩, hfits⟩
      exact ⟨i, Decimal.unsigned?_eq_some_iff.2 ⟨h, hfits⟩, rfl⟩
  · next hne =>
    rw [spells_iff_of_ne hne, Option.map_eq_some_iff]
    constructor
    · rintro ⟨z, hread, rfl⟩
      obtain ⟨h, hfits⟩ := (Decimal.signed?_eq_some_iff hleast hmost).1 hread
      exact ⟨⟨z, h, rfl⟩, hfits⟩
    · rintro ⟨⟨z, h, rfl⟩, hfits⟩
      exact ⟨z, (Decimal.signed?_eq_some_iff hleast hmost).2 ⟨h, hfits⟩, rfl⟩

theorem spells_text (r : Reference) : Spells r.text.toList r := by
  cases r with
  | id i =>
    rw [toList_text_id]
    exact .id (Decimal.unsigned_toDigits i)
  | pid p => exact .pid (Decimal.signed_toString p.val)

/-- A reference is read as it is written. -/
theorem parse?_text {r : Reference} (h : r.Fits) : parse? r.text = some r :=
  parse?_eq_some_iff.2 ⟨r.spells_text, h⟩

theorem length_text_le {r : Reference} (h : r.Fits) : r.text.toList.length ≤ 11 := by
  have hdigits {n : Nat} (hn : n ≤ maxId) : (Nat.toDigits 10 n).length ≤ 10 := by
    refine (Nat.length_toDigits_le_iff (by decide) (by decide)).2 ?_
    unfold maxId at hn
    omega
  cases r with
  | id i =>
    rw [toList_text_id, List.length_cons]
    exact Nat.succ_le_succ (hdigits h)
  | pid p =>
    have hrange : minPid ≤ p.val ∧ p.val ≤ maxPid := h
    have htext : (text (.pid p)).toList = _ := Decimal.toList_toString p.val
    unfold minPid maxPid at hrange
    rw [htext]
    split
    · exact Nat.le_succ_of_le (hdigits (by unfold maxId; omega))
    · rw [List.length_cons]
      exact Nat.succ_le_succ (hdigits (by unfold maxId; omega))

/-- **The language of references.** A string is read as a reference just if it stands for it and the
number fits: after a percent sign, digits with or without a plus sign and up to 4294967295 for a job id;
otherwise digits with or without a sign, from -2147483648 to 2147483647, for a process id. Nothing else
is read. In particular a number that does not fit is refused, and never read as another one; and a
reference that fits is read as it is written. -/
theorem parse_language (arg : String) :
    (∀ r, parse? arg = some r ↔ Spells arg.toList r ∧ r.Fits) ∧
    (parse? arg = none ↔ ∀ r, Spells arg.toList r → ¬ r.Fits) ∧
    (∀ r, Spells arg.toList r → ¬ r.Fits → parse? arg = none) ∧
    ∀ r : Reference, r.Fits → parse? r.text = some r := by
  have hnone : parse? arg = none ↔ ∀ r, Spells arg.toList r → ¬ r.Fits := by
    simp only [Option.eq_none_iff_forall_ne_some, ne_eq, parse?_eq_some_iff, not_and]
  refine ⟨fun r => parse?_eq_some_iff, hnone, fun r hspells hfits => ?_, fun r => parse?_text⟩
  refine hnone.2 fun r' hspells' => ?_
  rwa [hspells'.unique hspells]

/-- A job id with leading zeros, one that is too large, and the least process id. -/
theorem parse_language_bounds :
    (Spells "%+007".toList (.id 7) ∧ (id 7).Fits ∧ parse? "%+007" = some (.id 7)) ∧
    (Spells "%4294967297".toList (.id 4294967297) ∧ ¬ (id 4294967297).Fits ∧
      parse? "%4294967297" = none) ∧
    (Spells "-2147483648".toList (.pid ⟨-2147483648⟩) ∧ (pid ⟨-2147483648⟩).Fits ∧
      parse? "-2147483648" = some (.pid ⟨-2147483648⟩)) ∧
    parse? (text (.pid ⟨-2147483648⟩)) = some (.pid ⟨-2147483648⟩) := by
  have hseven : Decimal.Unsigned "+007".toList 7 :=
    Decimal.unsigned_plus_iff.2 ⟨by decide, by decide⟩
  have hlarge : Decimal.Unsigned "4294967297".toList 4294967297 :=
    (Decimal.unsigned_iff_of_ne (by simp)).2 ⟨by decide, by decide⟩
  have hleast : Decimal.Signed "-2147483648".toList (-2147483648) :=
    Decimal.signed_minus_iff.2 ⟨by decide, by decide⟩
  have hfits : (pid ⟨-2147483648⟩).Fits := by decide
  refine ⟨⟨.id hseven, by decide, ?_⟩, ⟨.id hlarge, by decide, ?_⟩, ⟨.pid hleast, hfits, ?_⟩, ?_⟩
  · exact ((parse_language _).1 _).2 ⟨.id hseven, by decide⟩
  · exact (parse_language _).2.2.1 _ (.id hlarge) (by decide)
  · exact ((parse_language _).1 _).2 ⟨.pid hleast, hfits⟩
  · exact (parse_language "").2.2.2 _ hfits

end Job.Reference
end JobControl

import JobControl.WaitStatus
import Mathlib.Algebra.Group.Nat.Defs

/-!
# The number of a wait status

* `WaitStatus.reading` : what the number says happened to the child;
* `toNat_lowBits`, `payload_eq` : the parts of the word as parts of the number, and the tests as
  comparisons of them (`hasExited_eq`, `wasSignaled_eq`, `wasStopped_eq`);
* `tests` : the three tests of a status; together they find what the number says, and nothing else
  (`filterMap_tests`);
* `change?_eq_reading` : so a status is read as what its number says, and in whatever order it is
  tested (`findSome?_of_perm`);
* `bits`, `Reports` : what the bits of the word report, bit field by bit field; `change?_eq_iff`;
* `change?_unambiguous` : the three readings exclude each other.
-/

set_option autoImplicit false

namespace JobControl

namespace WaitStatus

/-- What the number of a status says happened to the child. Its low seven bits are zero after an exit, all
set after a stop, which leaves the eighth one clear, and else the signal that killed the child; the next
byte holds the exit code or the stopping signal. -/
def reading (s : WaitStatus) : Option ChildChange :=
  let n := s.word.toNat
  if n % 128 = 0 then some (.exited ↑(n / 256 % 256))
  else if n % 128 < 127 then some (.signaled ⟨↑(n % 128)⟩)
  else if n % 256 = 127 then some (.stopped ⟨↑(n / 256 % 256)⟩)
  else none

theorem toNat_lowBits (s : WaitStatus) : s.lowBits.toNat = s.word.toNat % 128 := by
  rw [lowBits, BitVec.toNat_and]
  exact Nat.and_two_pow_sub_one_eq_mod _ 7

theorem payload_eq (s : WaitStatus) : s.payload = s.word.toNat / 256 % 256 := by
  have hshift : (s.word &&& 0xff00#32) >>> 8 = (s.word >>> 8) &&& 0xff#32 := by
    rw [BitVec.ushiftRight_and_distrib]
    rfl
  rw [payload, hshift, BitVec.toNat_and, BitVec.toNat_ushiftRight, Nat.shiftRight_eq_div_pow]
  exact Nat.and_two_pow_sub_one_eq_mod _ 8

theorem hasExited_eq (s : WaitStatus) : s.hasExited = decide (s.word.toNat % 128 = 0) := by
  rw [hasExited, ← toNat_lowBits, Bool.eq_iff_iff, beq_iff_eq, decide_eq_true_iff,
    ← BitVec.toNat_inj]
  rfl

theorem wasSignaled_eq (s : WaitStatus) :
    s.wasSignaled = decide (0 < s.word.toNat % 128 ∧ s.word.toNat % 128 < 127) := by
  have hbyte : ∀ k < 128, (0#8).slt ((BitVec.ofNat 8 k + 1#8).sshiftRight 1) =
      decide (0 < k ∧ k < 127) := by decide
  have hlow : s.lowBits.truncate 8 = BitVec.ofNat 8 (s.word.toNat % 128) := by
    rw [← toNat_lowBits]
    rfl
  rw [wasSignaled, hlow, hbyte _ (Nat.mod_lt _ (by decide))]

theorem wasStopped_eq (s : WaitStatus) : s.wasStopped = decide (s.word.toNat % 256 = 127) := by
  have hand : (s.word &&& 0xff#32).toNat = s.word.toNat % 256 := by
    rw [BitVec.toNat_and]
    exact Nat.and_two_pow_sub_one_eq_mod _ 8
  rw [wasStopped, ← hand, Bool.eq_iff_iff, beq_iff_eq, decide_eq_true_iff, ← BitVec.toNat_inj]
  rfl

/-! ## The tests -/

/-- The tests of a status, in the order in which they are made. -/
def tests : List (WaitStatus → Option ChildChange) :=
  [fun s => s.exitStatus?.map .exited, fun s => s.termSignal?.map .signaled,
    fun s => s.stopSignal?.map .stopped]

theorem filterMap_tests_eq (s : WaitStatus) : tests.filterMap (· s) =
    (s.exitStatus?.map .exited).toList ++ (s.termSignal?.map .signaled).toList ++
      (s.stopSignal?.map ChildChange.stopped).toList := by
  change [s.exitStatus?.map .exited, s.termSignal?.map .signaled,
    s.stopSignal?.map ChildChange.stopped].filterMap id = _
  cases s.exitStatus? <;> cases s.termSignal? <;> cases s.stopSignal? <;> rfl

/-- All that the tests find is what the number says. -/
theorem filterMap_tests (s : WaitStatus) : tests.filterMap (· s) = s.reading.toList := by
  rw [filterMap_tests_eq]
  unfold reading exitStatus? termSignal? stopSignal?
  rw [hasExited_eq, wasSignaled_eq, wasStopped_eq, payload_eq, toNat_lowBits]
  -- the last test looks at one bit more, so that it excludes the other two
  by_cases hexited : s.word.toNat % 128 = 0
  · have hstopped : s.word.toNat % 256 ≠ 127 := by omega
    simp [hexited, hstopped]
  · by_cases hkilled : s.word.toNat % 128 < 127
    · have hstopped : s.word.toNat % 256 ≠ 127 := by omega
      simp [hexited, hkilled, hstopped, Nat.pos_of_ne_zero hexited]
    · by_cases hstopped : s.word.toNat % 256 = 127 <;> simp [hexited, hkilled, hstopped]

theorem change?_eq_head? (s : WaitStatus) : s.change? = (tests.filterMap (· s)).head? := by
  rw [filterMap_tests_eq]
  unfold change?
  cases s.exitStatus? <;> cases s.termSignal? <;> cases s.stopSignal? <;> rfl

/-- A status is read as what its number says. -/
theorem change?_eq_reading (s : WaitStatus) : s.change? = s.reading := by
  rw [change?_eq_head?, filterMap_tests, Option.head?_toList]

/-- No other order of the tests finds anything else. -/
theorem findSome?_of_perm {order : List (WaitStatus → Option ChildChange)} (h : order.Perm tests)
    (s : WaitStatus) : order.findSome? (· s) = s.change? := by
  have hfound : (order.filterMap (· s)).Perm s.change?.toList := by
    rw [change?_eq_reading, ← filterMap_tests]
    exact h.filterMap _
  rw [← List.head?_filterMap]
  cases hchange : s.change? with
  | none =>
    rw [hchange] at hfound
    rw [List.perm_nil.1 hfound]
    rfl
  | some change =>
    rw [hchange] at hfound
    rw [List.perm_singleton.1 hfound]
    rfl

theorem count_tests_le_one (s : WaitStatus) :
    [s.exitStatus?.isSome, s.termSignal?.isSome, s.stopSignal?.isSome].count true ≤ 1 := by
  have hcount : [s.exitStatus?.isSome, s.termSignal?.isSome, s.stopSignal?.isSome].count true =
      (tests.filterMap (· s)).length := by
    rw [filterMap_tests_eq]
    cases s.exitStatus? <;> cases s.termSignal? <;> cases s.stopSignal? <;> rfl
  rw [hcount, filterMap_tests]
  cases s.reading <;> simp

end WaitStatus

def ChildChange.text : ChildChange → String
  | .exited code => s!"exited with {code}"
  | .signaled signal => s!"killed by {signal.nameOrMark}"
  | .stopped signal => s!"stopped by {signal.nameOrMark}"

namespace WaitStatus

/-- The text of a status is that of its change. -/
theorem describe_eq (s : WaitStatus) :
    s.describe = (s.change?.map ChildChange.text).getD s!"status {s.hex}" := by
  unfold describe change?
  cases s.exitStatus? <;> cases s.termSignal? <;> cases s.stopSignal? <;> rfl

/-! ## The bits -/

/-- So many bits of the word, from bit `low` on, as a number. -/
def bits (s : WaitStatus) (low count : Nat) : Nat := (s.word.extractLsb' low count).toNat

def ofContinue : WaitStatus := ⟨0xffff#32⟩

/-- What the bits of a status report. -/
inductive Reports (s : WaitStatus) : Option ChildChange → Prop where
  | exited : s.bits 0 7 = 0 → Reports s (some (.exited (s.bits 8 8)))
  | signaled : 1 ≤ s.bits 0 7 → s.bits 0 7 ≤ 126 → Reports s (some (.signaled ⟨s.bits 0 7⟩))
  | stopped : s.bits 0 8 = 0x7f → Reports s (some (.stopped ⟨s.bits 8 8⟩))
  | nothing : s.bits 0 8 = 0xff → Reports s none

theorem bits_eq (s : WaitStatus) (low count : Nat) :
    s.bits low count = s.word.toNat / 2 ^ low % 2 ^ count := by
  rw [bits, BitVec.extractLsb'_toNat, Nat.shiftRight_eq_div_pow]

theorem bits_low (s : WaitStatus) : s.bits 0 7 = s.bits 0 8 % 128 := by
  simp only [bits_eq]
  omega

theorem reading_eq_bits (s : WaitStatus) : s.reading =
    if s.bits 0 7 = 0 then some (.exited (s.bits 8 8))
    else if s.bits 0 7 < 127 then some (.signaled ⟨s.bits 0 7⟩)
    else if s.bits 0 8 = 0x7f then some (.stopped ⟨s.bits 8 8⟩)
    else none := by
  simp only [reading, bits_eq, Nat.pow_zero, Nat.div_one, Nat.reducePow]

theorem Reports.change?_eq {s : WaitStatus} {r : Option ChildChange} (h : Reports s r) :
    s.change? = r := by
  have hlow := s.bits_low
  rw [change?_eq_reading, reading_eq_bits]
  cases h with
  | exited h => rw [if_pos h]
  | signaled hpos hle => rw [if_neg (by omega), if_pos (by omega)]
  | stopped h => rw [if_neg (by omega), if_neg (by omega), if_pos h]
  | nothing h => rw [if_neg (by omega), if_neg (by omega), if_neg (by omega)]

theorem exists_reports (s : WaitStatus) : ∃ r, Reports s r := by
  have hlow := s.bits_low
  have hbound : s.bits 0 8 < 256 := (s.word.extractLsb' 0 8).isLt
  by_cases hexited : s.bits 0 7 = 0
  · exact ⟨_, .exited hexited⟩
  · by_cases hkilled : s.bits 0 7 ≤ 126
    · exact ⟨_, .signaled (by omega) hkilled⟩
    · by_cases hstopped : s.bits 0 8 = 0x7f
      · exact ⟨_, .stopped hstopped⟩
      · exact ⟨_, .nothing (by omega)⟩

/-- A status is read as what its bits report, and as nothing else. -/
theorem change?_eq_iff (s : WaitStatus) (r : Option ChildChange) : s.change? = r ↔ Reports s r := by
  constructor
  · rintro rfl
    obtain ⟨r, h⟩ := s.exists_reports
    exact h.change?_eq ▸ h
  · exact Reports.change?_eq

/-- Bit 7 is none of the low seven bits. -/
theorem bits_flip (s : WaitStatus) : bits ⟨s.word ^^^ 0x80#32⟩ 0 7 = s.bits 0 7 := by
  have hxor : (s.word ^^^ 0x80#32).extractLsb' 0 7 = s.word.extractLsb' 0 7 := by
    rw [BitVec.extractLsb'_xor]
    simp
  rw [bits, bits, hxor]

theorem Reports.flip {s : WaitStatus} {signal : Signal} (h : Reports s (some (.signaled signal))) :
    Reports ⟨s.word ^^^ 0x80#32⟩ (some (.signaled signal)) := by
  cases h with
  | signaled hpos hle =>
    rw [← s.bits_flip] at hpos hle ⊢
    exact .signaled hpos hle

/-- **A wait status is read in one way.** At most one of the three readings is there, so the tests find the
same change, and lead to the same text, in whatever order they are made. The change is an exit just if the
low seven bits are zero, a kill just if they are a number from 1 to 126 (bit 7, which tells of a core dump,
does not matter), and a stop just if the low byte is `0x7f`; none is found just if the low byte is `0xff`,
as for a child that was continued. -/
theorem change?_unambiguous (s : WaitStatus) :
    [s.exitStatus?.isSome, s.termSignal?.isSome, s.stopSignal?.isSome].count true ≤ 1 ∧
    s.describe = (s.change?.map ChildChange.text).getD s!"status {s.hex}" ∧
    (∀ order : List (WaitStatus → Option ChildChange), order.Perm tests →
      order.findSome? (· s) = s.change? ∧
      (order.findSome? fun test => (test s).map ChildChange.text).getD s!"status {s.hex}" =
        s.describe) ∧
    (∀ r, s.change? = r ↔ Reports s r) ∧
    (∀ signal, change? ⟨s.word ^^^ 0x80#32⟩ = some (.signaled signal) ↔
      s.change? = some (.signaled signal)) ∧
    (s = ofContinue → s.change? = none) := by
  refine ⟨s.count_tests_le_one, s.describe_eq, fun order h => ⟨findSome?_of_perm h s, ?_⟩,
    s.change?_eq_iff, fun signal => ?_, ?_⟩
  · have htext : (order.findSome? fun test => (test s).map ChildChange.text) =
        s.change?.map ChildChange.text := by
      rw [← findSome?_of_perm h s, List.map_findSome?]
      rfl
    rw [htext, describe_eq]
  · rw [change?_eq_iff, change?_eq_iff]
    constructor
    · intro h
      have hback := h.flip
      rwa [BitVec.xor_assoc, BitVec.xor_self, BitVec.xor_zero] at hback
    · exact Reports.flip
  · rintro rfl
    exact (change?_eq_iff _ _).2 (.nothing rfl)

/-- A child that was killed and left a core dump, tested for a stop first; and one that was continued. -/
theorem change?_unambiguous_dumped :
    let dumped : WaitStatus := ⟨0x8b#32⟩
    (tests.reverse.Perm tests ∧ Reports dumped (some (.signaled ⟨11⟩))) ∧
    tests.reverse.findSome? (· dumped) = dumped.change? ∧ dumped.change? = some (.signaled ⟨11⟩) ∧
    change? ⟨0x0b#32⟩ = some (.signaled ⟨11⟩) ∧ ofContinue.change? = none := by
  intro dumped
  have horder : tests.reverse.Perm tests := List.reverse_perm tests
  have hbits : dumped.bits 0 7 = 11 := by decide
  have hreports : Reports dumped (some (.signaled ⟨11⟩)) := by
    have h : Reports dumped (some (.signaled ⟨dumped.bits 0 7⟩)) :=
      .signaled (by decide) (by decide)
    rwa [hbits] at h
  obtain ⟨-, -, hsame, hiff, hflip, -⟩ := change?_unambiguous dumped
  have hkilled : dumped.change? = some (.signaled ⟨11⟩) := (hiff _).2 hreports
  have hbare : change? ⟨0x0b#32⟩ = some (.signaled ⟨11⟩) := by
    have hword : dumped.word ^^^ 0x80#32 = 0x0b#32 := by decide
    rw [← hword]
    exact (hflip _).2 hkilled
  exact ⟨⟨horder, hreports⟩, (hsame tests.reverse horder).1, hkilled, hbare,
    (change?_unambiguous ofContinue).2.2.2.2.2 rfl⟩

end WaitStatus
end JobControl

import JobControl.Text.Decimal

/-!
# Reading decimal numbers

* `Decimal.IsNumeral` : one or more digits, and nothing else; `Unsigned`, `Signed` : the number that a
  numeral stands for, with or without a sign;
* `Decimal.push?_magnitude`, `foldlM_push?` : what one more digit, and what many, make of a number that
  is in range. Digits only take a number farther from zero, so it never comes back into range;
* `count?_eq_some_iff`, `unsigned?_eq_some_iff`, `signed?_eq_some_iff` : so just the numbers in range are
  read;
* `exists_toDigits`, `toList_toString` : the digits that a number is written with;
* `not_mem_toDigits`, `not_mem_toString` : there is nothing else in it but a minus sign.
-/

set_option autoImplicit false

namespace JobControl.Decimal

/-! ## Numerals -/

def IsNumeral (cs : List Char) : Prop := cs ≠ [] ∧ ∀ c ∈ cs, c.isDigit = true

theorem isNumeral_iff {cs : List Char} : (cs ≠ [] ∧ cs.all Char.isDigit = true) ↔ IsNumeral cs := by
  rw [IsNumeral, List.all_eq_true]

instance : DecidablePred IsNumeral := fun _ => decidable_of_iff _ isNumeral_iff

/-- The characters stand for this number, with or without a plus sign. -/
inductive Unsigned : List Char → Nat → Prop where
  | plain {digits : List Char} : IsNumeral digits → Unsigned digits (value digits)
  | plus {digits : List Char} : IsNumeral digits → Unsigned ('+' :: digits) (value digits)

/-- The characters stand for this number, with or without a sign. -/
inductive Signed : List Char → Int → Prop where
  | unsigned {cs : List Char} {n : Nat} : Unsigned cs n → Signed cs n
  | minus {digits : List Char} : IsNumeral digits → Signed ('-' :: digits) (-value digits)

/-- A digit is none of the other characters of a number. -/
theorem ne_of_isDigit {c d : Char} (h : c.isDigit = true) (hd : d.isDigit = false) : c ≠ d := by
  rintro rfl
  rw [h] at hd
  cases hd

theorem IsNumeral.head_ne {c d : Char} {cs : List Char} (h : IsNumeral (c :: cs))
    (hd : d.isDigit = false) : c ≠ d :=
  ne_of_isDigit (h.2 c List.mem_cons_self) hd

theorem natural?_eq_some_iff {cs : List Char} {n : Nat} :
    natural? cs = some n ↔ IsNumeral cs ∧ n = value cs := by
  rw [natural?]
  split
  · next h => simp [isNumeral_iff.1 h, eq_comm]
  · next h => simp [mt isNumeral_iff.2 h]

/-! ## Counting -/

/-- The number this far from zero, below it if `negative`. -/
def magnitude (negative : Bool) (m : Nat) : Int := if negative then -m else m

section Range
variable {least most : Int}

/-- The number that is this far from zero is in `least..most`. -/
def Reaches (least most : Int) (negative : Bool) (m : Nat) : Prop :=
  least ≤ magnitude negative m ∧ magnitude negative m ≤ most

theorem Reaches.check_eq {negative : Bool} {m : Nat} (h : Reaches least most negative m) :
    check least most (magnitude negative m) = some (magnitude negative m) := if_pos h

theorem check_of_not_reaches {negative : Bool} {m : Nat} (h : ¬ Reaches least most negative m) :
    check least most (magnitude negative m) = none := if_neg h

variable (hleast : least ≤ 0) (hmost : 0 ≤ most)
include hleast hmost

theorem reaches_zero (negative : Bool) : Reaches least most negative 0 := by
  cases negative <;> exact ⟨hleast, hmost⟩

theorem Reaches.of_le {negative : Bool} {m m' : Nat} (h : Reaches least most negative m')
    (hle : m ≤ m') : Reaches least most negative m := by
  unfold Reaches magnitude at h ⊢
  cases negative
  · rw [if_neg Bool.false_ne_true] at h ⊢
    omega
  · rw [if_pos rfl] at h ⊢
    omega

/-- One more digit. -/
theorem push?_magnitude (negative : Bool) (m : Nat) (c : Char) :
    push? least most negative (magnitude negative m) c =
      if c.isDigit then check least most (magnitude negative (10 * m + digit c)) else none := by
  have htens : 10 * magnitude negative m = magnitude negative (10 * m) := by
    unfold magnitude
    cases negative
    · rw [if_neg Bool.false_ne_true, if_neg Bool.false_ne_true, Int.natCast_mul]
      rfl
    · rw [if_pos rfl, if_pos rfl, Int.natCast_mul, Int.mul_neg]
      rfl
  have hsum : (if negative then magnitude negative (10 * m) - digit c
      else magnitude negative (10 * m) + digit c) = magnitude negative (10 * m + digit c) := by
    unfold magnitude
    cases negative
    · simp
    · simp
      omega
  rw [push?, htens]
  by_cases htimes : Reaches least most negative (10 * m)
  · rw [htimes.check_eq, ← hsum]
  · have hnot : ¬ Reaches least most negative (10 * m + digit c) :=
      fun h => htimes (h.of_le hleast hmost (Nat.le_add_right _ _))
    rw [check_of_not_reaches htimes, check_of_not_reaches hnot, ite_self]

omit hleast hmost in
theorem le_foldl_digit (cs : List Char) (m : Nat) :
    m ≤ cs.foldl (fun n c => 10 * n + digit c) m := by
  induction cs generalizing m with
  | nil => exact Nat.le_refl m
  | cons c cs ih =>
    have hrest := ih (10 * m + digit c)
    rw [List.foldl_cons]
    omega

/-- Many more digits. It is enough to look whether the number in the end is in range. -/
theorem foldlM_push? (negative : Bool) (cs : List Char) {m : Nat}
    (h : Reaches least most negative m) :
    cs.foldlM (push? least most negative) (magnitude negative m) =
      if cs.all Char.isDigit then
        check least most (magnitude negative (cs.foldl (fun n c => 10 * n + digit c) m))
      else none := by
  induction cs generalizing m with
  | nil => exact h.check_eq.symm
  | cons c cs ih =>
    rw [List.foldlM_cons, push?_magnitude hleast hmost, List.all_cons, List.foldl_cons]
    cases hc : c.isDigit with
    | false => rfl
    | true =>
      rw [if_pos rfl, Bool.true_and]
      by_cases hnext : Reaches least most negative (10 * m + digit c)
      · rw [hnext.check_eq]
        exact ih hnext
      · have hend : ¬ Reaches least most negative
            (cs.foldl (fun n c => 10 * n + digit c) (10 * m + digit c)) :=
          fun h => hnext (h.of_le hleast hmost (le_foldl_digit cs _))
        rw [check_of_not_reaches hnext, check_of_not_reaches hend, ite_self]
        rfl

/-- A numeral is read if its number is in range. -/
theorem count?_eq_some_iff {negative : Bool} {cs : List Char} {z : Int} :
    count? least most negative cs = some z ↔
      IsNumeral cs ∧ z = magnitude negative (value cs) ∧ least ≤ z ∧ z ≤ most := by
  cases cs with
  | nil => simp [count?, IsNumeral]
  | cons c cs =>
    have hfold := foldlM_push? hleast hmost negative (c :: cs) (reaches_zero hleast hmost negative)
    have hzero : magnitude negative 0 = 0 := by cases negative <;> rfl
    rw [hzero] at hfold
    rw [count?, hfold, ← value, check, IsNumeral, ← List.all_eq_true]
    by_cases hdigits : (c :: cs).all Char.isDigit = true
    · rw [if_pos hdigits]
      constructor
      · intro h
        split at h
        · next hrange =>
          obtain rfl := Option.some.inj h
          exact ⟨⟨List.cons_ne_nil c cs, hdigits⟩, rfl, hrange⟩
        · cases h
      · rintro ⟨-, rfl, hrange⟩
        exact if_pos hrange
    · rw [if_neg hdigits]
      exact ⟨nofun, fun h => absurd h.1.2 hdigits⟩

end Range

/-! ## Signs -/

theorem not_isNumeral_of_isDigit {c : Char} (h : c.isDigit = false) (cs : List Char) :
    ¬ IsNumeral (c :: cs) := fun hc => hc.head_ne h rfl

theorem unsigned_plus_iff {rest : List Char} {n : Nat} :
    Unsigned ('+' :: rest) n ↔ IsNumeral rest ∧ n = value rest := by
  constructor
  · rintro (h | h)
    · exact absurd h (not_isNumeral_of_isDigit (by decide) rest)
    · exact ⟨h, rfl⟩
  · rintro ⟨h, rfl⟩
    exact .plus h

theorem unsigned_iff_of_ne {cs : List Char} {n : Nat} (hcs : ∀ rest, cs ≠ '+' :: rest) :
    Unsigned cs n ↔ IsNumeral cs ∧ n = value cs := by
  constructor
  · rintro (h | h)
    · exact ⟨h, rfl⟩
    · exact absurd rfl (hcs _)
  · rintro ⟨h, rfl⟩
    exact .plain h

theorem signed_minus_iff {rest : List Char} {z : Int} :
    Signed ('-' :: rest) z ↔ IsNumeral rest ∧ z = -value rest := by
  constructor
  · rintro (h | h)
    · rw [unsigned_iff_of_ne (by simp)] at h
      exact absurd h.1 (not_isNumeral_of_isDigit (by decide) rest)
    · exact ⟨h, rfl⟩
  · rintro ⟨h, rfl⟩
    exact .minus h

theorem signed_iff_of_ne {cs : List Char} {z : Int} (hcs : ∀ rest, cs ≠ '-' :: rest) :
    Signed cs z ↔ ∃ n : Nat, Unsigned cs n ∧ z = n := by
  constructor
  · rintro (h | h)
    · exact ⟨_, h, rfl⟩
    · exact absurd rfl (hcs _)
  · rintro ⟨n, h, rfl⟩
    exact .unsigned h

theorem unsigned?_eq_some_iff {most n : Nat} {cs : List Char} :
    unsigned? most cs = some n ↔ Unsigned cs n ∧ n ≤ most := by
  have hcount (digits : List Char) : (count? 0 most false digits).map Int.toNat = some n ↔
      (IsNumeral digits ∧ n = value digits) ∧ n ≤ most := by
    simp only [Option.map_eq_some_iff, count?_eq_some_iff (Int.le_refl 0) (Int.natCast_nonneg most)]
    constructor
    · rintro ⟨_, ⟨hdigits, rfl, -, hrange⟩, rfl⟩
      exact ⟨⟨hdigits, rfl⟩, Int.ofNat_le.1 hrange⟩
    · rintro ⟨⟨hdigits, rfl⟩, hrange⟩
      exact ⟨value digits, ⟨hdigits, rfl, Int.natCast_nonneg _, Int.ofNat_le.2 hrange⟩, rfl⟩
  unfold unsigned?
  split
  · rw [unsigned_plus_iff]
    exact hcount _
  · next hne =>
    rw [unsigned_iff_of_ne hne]
    exact hcount cs

theorem signed?_eq_some_iff {least most : Int} (hleast : least ≤ 0) (hmost : 0 ≤ most) {z : Int}
    {cs : List Char} : signed? least most cs = some z ↔ Signed cs z ∧ least ≤ z ∧ z ≤ most := by
  have hcount (digits : List Char) : count? least most false digits = some z ↔
      (∃ n : Nat, (IsNumeral digits ∧ n = value digits) ∧ z = n) ∧ least ≤ z ∧ z ≤ most := by
    rw [count?_eq_some_iff hleast hmost, ← and_assoc]
    refine and_congr_left fun _ => ⟨fun ⟨hdigits, hz⟩ => ⟨_, ⟨hdigits, rfl⟩, hz⟩, ?_⟩
    rintro ⟨_, ⟨hdigits, rfl⟩, rfl⟩
    exact ⟨hdigits, rfl⟩
  unfold signed?
  split
  · rw [signed_iff_of_ne (by simp)]
    simp only [unsigned_plus_iff]
    exact hcount _
  · rw [count?_eq_some_iff hleast hmost, signed_minus_iff, ← and_assoc]
    rfl
  · next hplus hminus =>
    rw [signed_iff_of_ne hminus]
    simp only [unsigned_iff_of_ne hplus]
    exact hcount cs

theorem Unsigned.unique {cs : List Char} {n n' : Nat} (h : Unsigned cs n) (h' : Unsigned cs n') :
    n = n' := by
  rcases h with h | h
  · rcases h' with _ | h'
    · rfl
    · exact absurd h (not_isNumeral_of_isDigit (by decide) _)
  · exact (unsigned_plus_iff.1 h').2.symm

theorem Signed.unique {cs : List Char} {z z' : Int} (h : Signed cs z) (h' : Signed cs z') :
    z = z' := by
  rcases h with h | h
  · rcases h' with h' | h'
    · rw [h.unique h']
    · rw [unsigned_iff_of_ne (by simp)] at h
      exact absurd h.1 (not_isNumeral_of_isDigit (by decide) _)
  · exact (signed_minus_iff.1 h').2.symm

/-- A number begins with a digit or a sign. -/
theorem Signed.head {c : Char} {cs : List Char} {z : Int} (h : Signed (c :: cs) z) :
    c.isDigit = true ∨ c = '+' ∨ c = '-' := by
  rcases h with (h | h) | h
  · exact .inl (h.2 c List.mem_cons_self)
  · exact .inr (.inl rfl)
  · exact .inr (.inr rfl)

/-! ## Writing -/

theorem isNumeral_toDigits (n : Nat) : IsNumeral (Nat.toDigits 10 n) :=
  ⟨Nat.toDigits_ne_nil, fun _ hd => Nat.isDigit_of_mem_toDigits (by decide) (by decide) hd⟩

theorem value_toDigits (n : Nat) : value (Nat.toDigits 10 n) = n :=
  Nat.ofDigitChars_toDigits (by decide) (by decide)

theorem natural?_toDigits (n : Nat) : natural? (Nat.toDigits 10 n) = some n :=
  natural?_eq_some_iff.2 ⟨isNumeral_toDigits n, (value_toDigits n).symm⟩

theorem exists_toDigits (n : Nat) :
    ∃ c cs, Nat.toDigits 10 n = c :: cs ∧ ∀ d ∈ c :: cs, d.isDigit = true := by
  obtain ⟨hne, hall⟩ := isNumeral_toDigits n
  obtain ⟨c, cs, h⟩ := List.exists_cons_of_ne_nil hne
  exact ⟨c, cs, h, h ▸ hall⟩

theorem unsigned_toDigits (n : Nat) : Unsigned (Nat.toDigits 10 n) n := by
  have h := Unsigned.plain (isNumeral_toDigits n)
  rwa [value_toDigits] at h

theorem toList_toString (z : Int) : (toString z).toList =
    if 0 ≤ z then Nat.toDigits 10 z.toNat else '-' :: Nat.toDigits 10 (-z).toNat := by
  rw [Int.toString_eq_repr, Int.repr_eq_if]
  split
  · exact Nat.toList_repr
  · rw [String.toList_append, Nat.toList_repr]
    rfl

/-- The characters of a number are digits, but for a sign. -/
theorem exists_toList_toString (z : Int) : ∃ c cs, (toString z).toList = c :: cs ∧
    (c.isDigit = true ∨ c = '-') ∧ ∀ d ∈ cs, d.isDigit = true := by
  rw [toList_toString]
  split
  · obtain ⟨c, cs, hdigits, hall⟩ := exists_toDigits z.toNat
    exact ⟨c, cs, hdigits, .inl (hall c List.mem_cons_self), fun d hd =>
      hall d (List.mem_cons_of_mem c hd)⟩
  · obtain ⟨c, cs, hdigits, hall⟩ := exists_toDigits (-z).toNat
    exact ⟨'-', c :: cs, by rw [hdigits], .inr rfl, hall⟩

/-- Nothing but digits and a minus sign is in a number as it is written. -/
theorem not_mem_toDigits {c : Char} (hc : c.isDigit = false) (n : Nat) : c ∉ Nat.toDigits 10 n :=
  fun h => ne_of_isDigit ((isNumeral_toDigits n).2 c h) hc rfl

@[inherit_doc not_mem_toDigits]
theorem not_mem_toString {c : Char} (hc : c.isDigit = false) (hminus : c ≠ '-') (z : Int) :
    c ∉ (toString z).toList := by
  rw [toList_toString]
  split
  · exact not_mem_toDigits hc _
  · exact List.not_mem_cons_of_ne_of_not_mem hminus (not_mem_toDigits hc _)

theorem signed_toString (z : Int) : Signed (toString z).toList z := by
  rw [toList_toString]
  split
  · next hz =>
    have h := Signed.unsigned (unsigned_toDigits z.toNat)
    rwa [Int.toNat_of_nonneg hz] at h
  · next hz =>
    have h := Signed.minus (isNumeral_toDigits (-z).toNat)
    rwa [value_toDigits, Int.toNat_of_nonneg (by omega), Int.neg_neg] at h

end JobControl.Decimal

import JobControl.Text.Utf8

/-!
# Decoding makes no ASCII characters up

* `Utf8.Sequence.Long` : what a sequence of several bytes will be is no ASCII character;
* `Utf8.start_ascii`, `step_ascii` : a byte completes an ASCII character only if it is that character,
  and opens or goes on with long sequences only;
* `Utf8.mem_decode` : so an ASCII character of a decoded text is one of the bytes.

The zero character is left out. It also stands for a number that is no character.
-/

set_option autoImplicit false

namespace JobControl.Utf8

/-- The sequence can only be completed to a character that takes several bytes: it has more bits
already than fit into the last byte, or will have after the next one. -/
structure Sequence.Long (s : Sequence) : Prop where
  high : s.high ≤ 0xBF
  bits : 2 ≤ s.bits ∨ 0 < s.missing ∧ (1 ≤ s.bits ∨ 0x90 ≤ s.low)

/-- The state of the decoder is between two characters, or in a long sequence. -/
def Long (state : Option Sequence) : Prop := ∀ s ∈ state, s.Long

/-- The characters are no ASCII characters but for the byte `b`. -/
def Sole (b : UInt8) (cs : List Char) : Prop :=
  ∀ c ∈ cs, 0 < c.toNat → c.toNat < 128 → c.toNat = b.toNat

theorem toNat_ofNat (n : Nat) : (Char.ofNat n).toNat = n ∨ (Char.ofNat n).toNat = 0 := by
  by_cases h : n.isValidChar
  · exact .inl (congrArg Char.toNat (dif_pos h))
  · exact .inr (congrArg Char.toNat (dif_neg h))

theorem sole_ofNat (b : UInt8) : Sole b [Char.ofNat b.toNat] := by
  intro c hc hpos _
  obtain rfl := List.mem_singleton.1 hc
  exact (toNat_ofNat b.toNat).resolve_right (Nat.ne_of_gt hpos)

theorem sole_replacement {b : UInt8} {cs : List Char} (h : Sole b cs) : Sole b (replacement :: cs) := by
  intro c hc hpos hascii
  rcases List.mem_cons.1 hc with rfl | hc
  · exact absurd hascii (by decide)
  · exact h c hc hpos hascii

theorem sole_nil (b : UInt8) : Sole b [] := fun c hc => by cases hc

theorem long_none : Long none := fun s hs => by cases hs

theorem Sequence.Long.some {s : Sequence} (h : s.Long) : Utf8.Long (some s) :=
  fun _ hs => Option.some.inj hs ▸ h

/-- A lead byte opens a long sequence if it brings a bit; `lead` does not, and the byte after it has to. -/
theorem long_opened {b lead low high : UInt8} {missing bits : Nat} (hmissing : 0 < missing)
    (hhigh : high ≤ 0xBF) (hlead : b = lead → 0x90 ≤ low) (hbits : b.toNat ≠ lead.toNat → 1 ≤ bits) :
    Long (some ⟨missing, low, high, bits⟩) := by
  refine .some ⟨hhigh, .inr ⟨hmissing, ?_⟩⟩
  by_cases hb : b = lead
  · exact .inr (hlead hb)
  · exact .inl (hbits fun heq => hb (UInt8.toNat_inj.1 heq))

/-- A byte completes no ASCII character but itself, and opens no sequence but long ones. -/
theorem start_ascii (b : UInt8) : Sole b (start b).1 ∧ Long (start b).2 := by
  simp only [start, UInt8.lt_iff_toNat_lt, UInt8.reduceToNat]
  split
  · exact ⟨sole_ofNat b, long_none⟩
  split
  · exact ⟨sole_replacement (sole_nil b), long_none⟩
  split
  · refine ⟨sole_nil b, .some ⟨UInt8.le_refl _, .inl ?_⟩⟩
    dsimp only
    omega
  split
  · have hlead : b = 0xE0 → (0x90 : UInt8) ≤ if b = 0xE0 then 0xA0 else 0x80 := by
      rintro rfl
      decide
    refine ⟨sole_nil b, long_opened Nat.one_pos ?_ hlead fun hne => ?_⟩
    · split <;> decide
    · simp only [UInt8.reduceToNat] at hne
      omega
  split
  · have hlead : b = 0xF0 → (0x90 : UInt8) ≤ if b = 0xF0 then 0x90 else 0x80 := by
      rintro rfl
      decide
    refine ⟨sole_nil b, long_opened Nat.two_pos ?_ hlead fun hne => ?_⟩
    · split <;> decide
    · simp only [UInt8.reduceToNat] at hne
      omega
  · exact ⟨sole_replacement (sole_nil b), long_none⟩

/-- So does a byte in a long sequence, which it completes, goes on with, or breaks off. -/
theorem step_ascii {state : Option Sequence} (h : Long state) (b : UInt8) :
    Sole b (step state b).1 ∧ Long (step state b).2 := by
  cases state with
  | none => exact start_ascii b
  | some s =>
    obtain ⟨hhigh, hbits⟩ := h s rfl
    rw [step]
    split
    · next hrange =>
      simp only [UInt8.le_iff_toNat_le, UInt8.reduceToNat] at hrange hhigh hbits
      split
      · next hmissing =>
        refine ⟨?_, long_none⟩
        intro c hc hpos hascii
        obtain rfl := List.mem_singleton.1 hc
        rcases toNat_ofNat (s.bits * 64 + b.toNat % 64) with heq | heq <;> omega
      · next n hmissing =>
        refine ⟨sole_nil b, .some ⟨UInt8.le_refl _, ?_⟩⟩
        dsimp only
        omega
    · obtain ⟨hsole, hlong⟩ := start_ascii b
      exact ⟨sole_replacement hsole, hlong⟩

/-- An ASCII character of a decoded text is one of the bytes. -/
theorem mem_decodeFrom {state : Option Sequence} (h : Long state) {bytes : List UInt8} {c : Char}
    (hc : c ∈ decodeFrom state bytes) (hpos : 0 < c.toNat) (hascii : c.toNat < 128) :
    ∃ b ∈ bytes, c.toNat = b.toNat := by
  induction bytes generalizing state with
  | nil =>
    have hreplacement : c = replacement := by
      rw [decodeFrom] at hc
      split at hc
      · exact List.mem_singleton.1 hc
      · cases hc
    rw [hreplacement] at hascii
    exact absurd hascii (by decide)
  | cons b bytes ih =>
    obtain ⟨hsole, hlong⟩ := step_ascii h b
    rw [decodeFrom, List.mem_append] at hc
    rcases hc with hc | hc
    · exact ⟨b, List.mem_cons_self, hsole c hc hpos hascii⟩
    · obtain ⟨b', hb', heq⟩ := ih hlong hc
      exact ⟨b', List.mem_cons_of_mem b hb', heq⟩

theorem mem_decode {bytes : List UInt8} {c : Char} (hc : c ∈ (decode bytes).toList)
    (hpos : 0 < c.toNat) (hascii : c.toNat < 128) : ∃ b ∈ bytes, c.toNat = b.toNat := by
  rw [decode, String.toList_ofList] at hc
  exact mem_decodeFrom (fun s hs => by cases hs) hc hpos hascii

end JobControl.Utf8

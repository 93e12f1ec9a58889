/-
  Subject:   The two CRCs of the modem protocols (`crc.rs`) and the algebra of CRC-16/XMODEM the
             two header conventions turn on.

  * `crc16Xmodem`, `crc32Ieee` and their byte updates, as the source computes them, bit by bit;
  * `crc16_residue` -- appending two bytes brings the register to zero exactly when they are the
    register's own bytes, high byte first: the DIRECT convention of the receivers;
  * `crc16_two_zeros` -- feeding two zero bytes (the AUGMENTED convention) leaves a register as it
    is only at `0` and `0xf01f`: the shift is multiplication by `x`, `x¹⁶ + 1 = (x + 1)¹⁶` over
    GF(2), and the polynomial has `x + 1` as a simple factor.
-/
import Mathlib.Init
import Mathlib.Logic.Function.Iterate
import Mathlib.Tactic.Common

namespace Hapcli.Modem

open BitVec

/-! ## 1. The registers -/

/-- One shift of the CRC-16/XMODEM register. -/
def crc16Shift (crc : BitVec 16) : BitVec 16 :=
  if crc &&& 0x8000#16 ≠ 0 then (crc <<< 1) ^^^ 0x1021#16 else crc <<< 1

/-- `crc16_xmodem_update`: one byte into the register. -/
def crc16XmodemUpdate (crc : BitVec 16) (byte : UInt8) : BitVec 16 :=
  crc16Shift^[8] (crc ^^^ (byte.toBitVec.setWidth 16 <<< 8))

def crc16Xmodem (bytes : List UInt8) : BitVec 16 := bytes.foldl crc16XmodemUpdate 0

/-- One shift of the IEEE CRC-32 register. -/
def crc32Shift (crc : BitVec 32) : BitVec 32 :=
  if crc &&& 1#32 ≠ 0 then (crc >>> 1) ^^^ 0xedb88320#32 else crc >>> 1

/-- `crc32_ieee_update`: one byte into the unfinalized register. -/
def crc32IeeeUpdate (crc : BitVec 32) (byte : UInt8) : BitVec 32 :=
  crc32Shift^[8] (crc ^^^ byte.toBitVec.setWidth 32)

def crc32Ieee (bytes : List UInt8) : BitVec 32 := ~~~ (bytes.foldl crc32IeeeUpdate 0xffffffff#32)

example : crc16Xmodem [0x31, 0x32, 0x33, 0x34, 0x35, 0x36, 0x37, 0x38, 0x39] = 0x31c3#16 := by
  decide +kernel

example : crc32Ieee [0x31, 0x32, 0x33, 0x34, 0x35, 0x36, 0x37, 0x38, 0x39] = 0xcbf43926#32 := by
  decide +kernel

/-! ## 2. The bytes of a register -/

/-- `(crc >> 8) as u8`. -/
def crcHigh (crc : BitVec 16) : UInt8 := ⟨(crc >>> 8).setWidth 8⟩

/-- `crc as u8`. -/
def crcLow (crc : BitVec 16) : UInt8 := ⟨crc.setWidth 8⟩

/-- `u16::from_be_bytes`. -/
def u16FromBeBytes (high low : UInt8) : BitVec 16 := .ofNat 16 (high.toNat * 256 + low.toNat)

/-- `u32::to_le_bytes`. -/
def u32ToLeBytes (crc : BitVec 32) : List UInt8 :=
  [⟨crc.setWidth 8⟩, ⟨(crc >>> 8).setWidth 8⟩, ⟨(crc >>> 16).setWidth 8⟩, ⟨(crc >>> 24).setWidth 8⟩]

/-- `u32::from_le_bytes`. -/
def u32FromLeBytes (b0 b1 b2 b3 : UInt8) : BitVec 32 :=
  .ofNat 32 (b0.toNat + b1.toNat * 256 + b2.toNat * 65536 + b3.toNat * 16777216)

variable (c crc : BitVec 16)

theorem crcHigh_toNat : (crcHigh crc).toNat = crc.toNat / 256 := by
  have := crc.isLt
  simp only [crcHigh, UInt8.toNat, toNat_setWidth, toNat_ushiftRight, Nat.shiftRight_eq_div_pow]
  omega

theorem crcLow_toNat : (crcLow crc).toNat = crc.toNat % 256 := by
  simp [crcLow, UInt8.toNat]

theorem u16FromBeBytes_eq_iff (high low : UInt8) (crc : BitVec 16) :
    u16FromBeBytes high low = crc ↔ high = crcHigh crc ∧ low = crcLow crc := by
  have h1 := high.toNat_lt
  have h2 := low.toNat_lt
  have h3 := crc.isLt
  rw [← BitVec.toNat_inj, ← UInt8.toNat_inj, ← UInt8.toNat_inj, crcHigh_toNat, crcLow_toNat,
    u16FromBeBytes, toNat_ofNat]
  omega

@[simp] theorem u16FromBeBytes_crc : u16FromBeBytes (crcHigh crc) (crcLow crc) = crc :=
  (u16FromBeBytes_eq_iff _ _ crc).mpr ⟨rfl, rfl⟩

@[simp] theorem u32FromLeBytes_toLeBytes (crc : BitVec 32) :
    u32FromLeBytes ⟨crc.setWidth 8⟩ ⟨(crc >>> 8).setWidth 8⟩ ⟨(crc >>> 16).setWidth 8⟩
      ⟨(crc >>> 24).setWidth 8⟩ = crc := by
  have h := crc.isLt
  apply eq_of_toNat_eq
  simp only [u32FromLeBytes, UInt8.toNat, toNat_ofNat, toNat_setWidth, toNat_ushiftRight,
    Nat.shiftRight_eq_div_pow]
  omega

theorem u32ToLeBytes_fromLeBytes (b0 b1 b2 b3 : UInt8) :
    u32ToLeBytes (u32FromLeBytes b0 b1 b2 b3) = [b0, b1, b2, b3] := by
  have h0 := b0.toNat_lt
  have h1 := b1.toNat_lt
  have h2 := b2.toNat_lt
  have h3 := b3.toNat_lt
  simp only [u32ToLeBytes, List.cons.injEq, and_true, ← UInt8.toNat_inj]
  simp only [u32FromLeBytes, UInt8.toNat, toNat_ofNat, toNat_setWidth, toNat_ushiftRight,
    Nat.shiftRight_eq_div_pow] at *
  omega

/-! ## 3. The shift of CRC-16/XMODEM -/

theorem topBit : c &&& 0x8000#16 ≠ 0 ↔ c.getLsbD 15 = true := by
  rw [show 0x8000#16 = twoPow 16 15 by decide, and_twoPow]
  cases c.getLsbD 15 <;> decide

theorem crc16Shift_eq :
    crc16Shift c = (c <<< 1) ^^^ (if c.getLsbD 15 then 0x1021#16 else 0#16) := by
  unfold crc16Shift
  rw [if_congr (topBit c) rfl rfl]
  split <;> simp

theorem xor_cancel (x y z : BitVec 16) : x ^^^ y ^^^ (y ^^^ z) = x ^^^ z := by
  rw [BitVec.xor_assoc, ← BitVec.xor_assoc y, BitVec.xor_self, BitVec.zero_xor]

theorem crc16Shift_xor (a b : BitVec 16) :
    crc16Shift (a ^^^ b) = crc16Shift a ^^^ crc16Shift b := by
  simp only [crc16Shift_eq, getLsbD_xor, shiftLeft_xor_distrib]
  cases a.getLsbD 15 <;> cases b.getLsbD 15
  · simp
  · simp [BitVec.xor_assoc]
  · simp only [Bool.xor_false, if_true, Bool.false_eq_true, if_false, xor_zero]
    ac_rfl
  · simpa [BitVec.xor_comm (b <<< 1)] using (xor_cancel (a <<< 1) 0x1021#16 (b <<< 1)).symm

theorem iterate_xor (n : Nat) (a b : BitVec 16) :
    crc16Shift^[n] (a ^^^ b) = crc16Shift^[n] a ^^^ crc16Shift^[n] b := by
  induction n generalizing a b with
  | zero => rfl
  | succ n ih => simp only [Function.iterate_succ_apply, crc16Shift_xor, ih]

theorem crc16Shift_bit0 : (crc16Shift c).getLsbD 0 = c.getLsbD 15 := by
  rw [crc16Shift_eq]
  cases c.getLsbD 15 <;> simp

theorem crc16Shift_bit_succ {i : Nat} (hi : i + 1 < 16) :
    (crc16Shift c).getLsbD (i + 1) =
      (c.getLsbD i ^^ (c.getLsbD 15 && (0x1021#16).getLsbD (i + 1))) := by
  have hs : (c <<< 1).getLsbD (i + 1) = c.getLsbD i := by
    rw [getLsbD_shiftLeft]
    simp only [hi, decide_true, Bool.true_and, Nat.add_sub_cancel, show ¬ i + 1 < 1 by omega,
      decide_false, Bool.not_false]
  rw [crc16Shift_eq, getLsbD_xor, hs]
  cases c.getLsbD 15
  · simp only [Bool.false_eq_true, if_false, Bool.false_and, getLsbD_zero]
  · simp only [if_true, Bool.true_and]

theorem crc16Shift_injective : Function.Injective crc16Shift := by
  intro a b h
  have h15 : a.getLsbD 15 = b.getLsbD 15 := by
    rw [← crc16Shift_bit0, ← crc16Shift_bit0, h]
  apply eq_of_getLsbD_eq
  intro i hi
  rcases Nat.lt_or_ge (i + 1) 16 with hlt | hge
  · have := congrArg (fun x => x.getLsbD (i + 1)) h
    simp only [crc16Shift_bit_succ _ hlt, h15] at this
    exact Bool.xor_left_inj.mp this
  · obtain rfl : i = 15 := by omega
    exact h15

/-- A register whose high byte is clear only moves up through eight shifts. -/
theorem iterate_shift_low (l : UInt8) :
    crc16Shift^[8] (l.toBitVec.setWidth 16) = l.toBitVec.setWidth 16 <<< 8 := by
  have h : ∀ k, k ≤ 8 → crc16Shift^[k] (l.toBitVec.setWidth 16) = l.toBitVec.setWidth 16 <<< k := by
    intro k
    induction k with
    | zero => intro _; simp
    | succ k ih =>
      intro hk
      rw [Function.iterate_succ_apply', ih (by omega), crc16Shift_eq]
      have h0 : (l.toBitVec.setWidth 16 <<< k).getLsbD 15 = false := by
        rw [getLsbD_shiftLeft, getLsbD_setWidth, getLsbD_of_ge l.toBitVec (15 - k) (by omega)]
        simp
      rw [h0, ← shiftLeft_add]
      simp
  exact h 8 (Nat.le_refl 8)

/-! ## 4. The direct convention -/

theorem xor_high_eq_low_iff (high low : UInt8) :
    c ^^^ (high.toBitVec.setWidth 16 <<< 8) = low.toBitVec.setWidth 16 ↔
      high = crcHigh c ∧ low = crcLow c := by
  have hl : ∀ i, i < 16 → (low.toBitVec.setWidth 16).getLsbD i = low.toBitVec.getLsbD i := by
    intro i hi
    simp only [getLsbD_setWidth, hi, decide_true, Bool.true_and]
  have hh : ∀ i, i < 16 → (high.toBitVec.setWidth 16 <<< 8).getLsbD i =
      (!decide (i < 8) && high.toBitVec.getLsbD (i - 8)) := by
    intro i hi
    simp only [getLsbD_shiftLeft, getLsbD_setWidth, hi, show i - 8 < 16 by omega, decide_true,
      Bool.true_and]
  constructor
  · intro h
    have hb : ∀ i, i < 16 → c.getLsbD i =
        (low.toBitVec.getLsbD i ^^ (!decide (i < 8) && high.toBitVec.getLsbD (i - 8))) := by
      intro i hi
      rw [← hh i hi, ← hl i hi, ← h, getLsbD_xor, Bool.xor_assoc, Bool.xor_self, Bool.xor_false]
    constructor
    · apply UInt8.toBitVec_inj.mp
      apply eq_of_getLsbD_eq
      intro i hi
      simp only [crcHigh, getLsbD_setWidth, getLsbD_ushiftRight, hi, decide_true, Bool.true_and]
      rw [hb (8 + i) (by omega), getLsbD_of_ge low.toBitVec (8 + i) (by omega)]
      simp
    · apply UInt8.toBitVec_inj.mp
      apply eq_of_getLsbD_eq
      intro i hi
      simp only [crcLow, getLsbD_setWidth, hi, decide_true, Bool.true_and]
      rw [hb i (by omega)]
      simp [hi]
  · rintro ⟨rfl, rfl⟩
    apply eq_of_getLsbD_eq
    intro i hi
    rw [getLsbD_xor, hh i hi, hl i hi]
    simp only [crcHigh, crcLow, getLsbD_setWidth, getLsbD_ushiftRight]
    by_cases h8 : i < 8
    · simp [h8]
    · simp [h8, show i - 8 < 8 by omega, show 8 + (i - 8) = i by omega]

/-- The residue is zero exactly for the register's own bytes, high byte first. -/
theorem crc16_residue (high low : UInt8) :
    crc16XmodemUpdate (crc16XmodemUpdate c high) low = 0 ↔ high = crcHigh c ∧ low = crcLow c := by
  have hinj := (crc16Shift_injective).iterate 8
  have h0 : crc16Shift^[8] 0#16 = 0#16 := by decide
  unfold crc16XmodemUpdate
  calc crc16Shift^[8] (crc16Shift^[8] (c ^^^ (high.toBitVec.setWidth 16 <<< 8)) ^^^
          (low.toBitVec.setWidth 16 <<< 8)) = 0#16
      ↔ crc16Shift^[8] (c ^^^ (high.toBitVec.setWidth 16 <<< 8)) ^^^
          (low.toBitVec.setWidth 16 <<< 8) = 0#16 :=
        ⟨fun h => hinj (h.trans h0.symm), fun h => (congrArg _ h).trans h0⟩
    _ ↔ crc16Shift^[8] (c ^^^ (high.toBitVec.setWidth 16 <<< 8)) =
          crc16Shift^[8] (low.toBitVec.setWidth 16) := by
        rw [BitVec.xor_eq_zero_iff, iterate_shift_low low]
    _ ↔ c ^^^ (high.toBitVec.setWidth 16 <<< 8) = low.toBitVec.setWidth 16 := hinj.eq_iff
    _ ↔ high = crcHigh c ∧ low = crcLow c := xor_high_eq_low_iff c high low

/-! ## 5. The augmented convention -/

theorem bits_of_shift_xor {c t : BitVec 16} (u : BitVec 16) (h0 : u.getLsbD 0 = t.getLsbD 0)
    (hu : ∀ i, i < 15 → u.getLsbD (i + 1) = (u.getLsbD i ^^ t.getLsbD (i + 1)))
    (h : crc16Shift c ^^^ c = t) (i : Nat) (hi : i < 16) :
    c.getLsbD i = ((c.getLsbD 15 && (0xf01f#16).getLsbD i) ^^ u.getLsbD i) := by
  have hq : ∀ i, i < 15 → (0xf01f#16).getLsbD (i + 1) =
      ((0xf01f#16).getLsbD i ^^ (0x1021#16).getLsbD (i + 1)) := by decide
  have hbit : ∀ i, (crc16Shift c).getLsbD i = (t.getLsbD i ^^ c.getLsbD i) := by
    intro i
    rw [← h, getLsbD_xor, Bool.xor_assoc, Bool.xor_self, Bool.xor_false]
  induction i with
  | zero =>
    have := hbit 0
    rw [crc16Shift_bit0] at this
    rw [h0]
    revert this
    cases c.getLsbD 15 <;> cases c.getLsbD 0 <;> cases t.getLsbD 0 <;> decide
  | succ i ih =>
    have hb := hbit (i + 1)
    rw [crc16Shift_bit_succ c hi, ih (by omega)] at hb
    rw [hq i (by omega), hu i (by omega)]
    revert hb
    generalize (0x1021#16).getLsbD (i + 1) = p
    generalize (0xf01f#16).getLsbD i = q
    cases c.getLsbD 15 <;> cases c.getLsbD (i + 1) <;> cases t.getLsbD (i + 1) <;>
      cases u.getLsbD i <;> cases p <;> cases q <;> decide

theorem crc16Shift_xor_self_eq_zero {c : BitVec 16} (h : crc16Shift c ^^^ c = 0) :
    c = 0 ∨ c = 0xf01f#16 := by
  have hb := bits_of_shift_xor 0 rfl (by decide) h
  cases h15 : c.getLsbD 15 with
  | false =>
    refine .inl (eq_of_getLsbD_eq fun i hi => ?_)
    rw [hb i hi, h15]
    simp
  | true =>
    refine .inr (eq_of_getLsbD_eq fun i hi => ?_)
    rw [hb i hi, h15]
    simp

/-- `x + 1` is a SIMPLE factor of the polynomial: no register is taken to `0xf01f`. -/
theorem crc16Shift_xor_self_ne : crc16Shift c ^^^ c ≠ 0xf01f#16 := by
  intro h
  have hb := bits_of_shift_xor 0xaff5#16 (by decide) (by decide) h 15 (by omega)
  revert hb
  cases c.getLsbD 15 <;> decide

/-- `c ↦ shift c ^ c`, multiplication by `x + 1`. -/
def crc16Diff (c : BitVec 16) : BitVec 16 := crc16Shift c ^^^ c

theorem crc16Diff_iterate {n : Nat} {c : BitVec 16} (h : crc16Diff^[n + 1] c = 0) :
    crc16Diff c = 0 := by
  induction n with
  | zero => exact h
  | succ n ih =>
    rw [Function.iterate_succ_apply', Function.iterate_succ_apply'] at h
    rcases crc16Shift_xor_self_eq_zero h with h' | h'
    · exact ih (by rw [Function.iterate_succ_apply']; exact h')
    · exact absurd h' (crc16Shift_xor_self_ne _)

theorem crc16Diff_double {n : Nat} (h : ∀ c, crc16Diff^[n] c = crc16Shift^[n] c ^^^ c)
    (c : BitVec 16) : crc16Diff^[n + n] c = crc16Shift^[n + n] c ^^^ c := by
  rw [Function.iterate_add_apply, h, h, iterate_xor, Function.iterate_add_apply, xor_cancel]

theorem crc16XmodemUpdate_zero : crc16XmodemUpdate c 0 = crc16Shift^[8] c := by
  unfold crc16XmodemUpdate
  congr 1
  simp

/-- Two zero bytes leave a register as it is only at `0` and `0xf01f`. -/
theorem crc16_two_zeros :
    crc16XmodemUpdate (crc16XmodemUpdate c 0) 0 = c ↔ c = 0 ∨ c = 0xf01f#16 := by
  rw [crc16XmodemUpdate_zero, crc16XmodemUpdate_zero, ← Function.iterate_add_apply]
  constructor
  · intro h
    have h2 := crc16Diff_double (n := 1) fun _ => rfl
    have h16 := crc16Diff_double (crc16Diff_double (crc16Diff_double h2)) c
    rw [h, BitVec.xor_self] at h16
    exact crc16Shift_xor_self_eq_zero (crc16Diff_iterate h16)
  · rintro (rfl | rfl) <;> decide

/-! ## 6. Two bytes -/

/-- From one register, no two pairs of bytes lead to the same. -/
theorem crc16_two_bytes {high low high' low' : UInt8}
    (h : crc16XmodemUpdate (crc16XmodemUpdate c high) low =
      crc16XmodemUpdate (crc16XmodemUpdate c high') low') : high = high' ∧ low = low' := by
  have hshift := (crc16Shift_injective).iterate 8
  have hxor : ∀ x y : BitVec 16, x ^^^ y ^^^ x = y := fun x y => by
    rw [BitVec.xor_comm, ← BitVec.xor_assoc, BitVec.xor_self, BitVec.zero_xor]
  have h := hshift h
  unfold crc16XmodemUpdate at h
  rw [← iterate_shift_low low, ← iterate_shift_low low', ← iterate_xor, ← iterate_xor] at h
  have h := hshift h
  rw [BitVec.xor_assoc, BitVec.xor_assoc, BitVec.xor_right_inj] at h
  obtain ⟨hhigh, hlow⟩ := (xor_high_eq_low_iff _ high low).mp (h ▸ hxor _ _)
  obtain ⟨hhigh', hlow'⟩ := (xor_high_eq_low_iff _ high' low').mp (hxor _ _)
  exact ⟨hhigh.trans hhigh'.symm, hlow.trans hlow'.symm⟩

theorem foldl_crc16_inj {bytes : List UInt8} {c c' : BitVec 16}
    (h : bytes.foldl crc16XmodemUpdate c = bytes.foldl crc16XmodemUpdate c') : c = c' := by
  induction bytes generalizing c c' with
  | nil => exact h
  | cons byte bytes ih => exact (BitVec.xor_left_inj _).mp ((crc16Shift_injective).iterate 8 (ih h))

end Hapcli.Modem

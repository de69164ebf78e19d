import Mathlib
import RoomWatch.Number.Numeral

/-!
# Whole numbers as doubles

A positive whole number that becomes a double keeps the 53 bits in front of its trailing zeros that
are nearest to it (`nearest`). A product of two of them is rounded in the same way, and it is
infinite from half way between the largest double and the next power of two on.

* `roundedMantissa_shift`: what is kept of a significand that is shifted to the right.
* `roundWithAccuracy_eq`, `unpack_pack_finite`: rounded numbers have 53 bits, and they are stored.
* `denotes_toFloat`, `denotes_tenTo`: numbers of 64 bits and powers of ten as doubles.
* `isInf_mul`: **when a product is infinite.**
-/

namespace RoomWatch

open Float.Model Float.Model.UnpackedFloat

namespace Number

/-- `n / 2 ^ s`, rounded to the nearest integer and to the even one of two. -/
def roundShift (n s : Nat) : Nat :=
  if 2 * (n % 2 ^ s) < 2 ^ s then n / 2 ^ s
  else if 2 * (n % 2 ^ s) = 2 ^ s then n / 2 ^ s + n / 2 ^ s % 2
  else n / 2 ^ s + 1

/-- The nearest number to `n` with no more than 53 bits before its trailing zeros, the even one of
two. -/
def nearest (n : Nat) : Nat := roundShift n (n.log2 - 52) * 2 ^ (n.log2 - 52)

/-- Half way between the largest double, `(2 ^ 53 - 1) * 2 ^ 971`, and `2 ^ 1024`. -/
def limit : Nat := (2 ^ 54 - 1) * 2 ^ 970

theorem shift_succ (n s : Nat) :
    (ExtendedMantissa.ofMantissaAndAccuracy n .exact >>> (s + 1) : ExtendedMantissa) =
      ⟨n / 2 ^ (s + 1), n / 2 ^ s % 2 != 0, n % 2 ^ s != 0⟩ := by
  induction s with
  | zero =>
    have hfirst : (ExtendedMantissa.ofMantissaAndAccuracy n .exact >>> 1 : ExtendedMantissa) =
        ⟨n / 2, n % 2 != 0, false⟩ := rfl
    rw [hfirst]
    simp [Nat.mod_one]
  | succ s ih =>
    have hstep : (ExtendedMantissa.ofMantissaAndAccuracy n .exact >>> (s + 1 + 1) :
        ExtendedMantissa) =
        (ExtendedMantissa.ofMantissaAndAccuracy n .exact >>> (s + 1)).shiftRightOne := rfl
    have hmod : n % 2 ^ (s + 1) = n % 2 ^ s + 2 ^ s * (n / 2 ^ s % 2) := Nat.mod_pow_succ
    have hpow := Nat.two_pow_pos s
    rw [hstep, ih, ExtendedMantissa.shiftRightOne]
    simp only [ExtendedMantissa.mk.injEq]
    refine ⟨by rw [Nat.div_div_eq_div_mul, ← Nat.pow_succ], trivial, ?_⟩
    rw [hmod, Bool.eq_iff_iff]
    simp
    grind

theorem roundedMantissa_mk (m : Nat) (half below : Bool) :
    (⟨m, half, below⟩ : ExtendedMantissa).roundedMantissa =
      if half then if below then m + 1 else m + m % 2 else m := by
  cases half <;> cases below <;> rfl

theorem roundedMantissa_shift (n s : Nat) :
    (ExtendedMantissa.ofMantissaAndAccuracy n .exact >>> s).roundedMantissa = roundShift n s := by
  cases s with
  | zero =>
    have hnone : (ExtendedMantissa.ofMantissaAndAccuracy n .exact >>> 0 : ExtendedMantissa) =
        ⟨n, false, false⟩ := rfl
    rw [hnone, roundedMantissa_mk]
    simp [roundShift, Nat.mod_one]
  | succ s =>
    have hmod : n % 2 ^ (s + 1) = n % 2 ^ s + 2 ^ s * (n / 2 ^ s % 2) := Nat.mod_pow_succ
    have hlow : n % 2 ^ s < 2 ^ s := Nat.mod_lt _ (Nat.two_pow_pos s)
    have hpow : 2 ^ (s + 1) = 2 * 2 ^ s := Nat.pow_succ'
    rw [shift_succ, roundedMantissa_mk, roundShift, hmod, hpow]
    -- the bit below the unit is half of it
    rcases Nat.mod_two_eq_zero_or_one (n / 2 ^ s) with hbit | hbit <;> rw [hbit] <;>
      simp only [bne_iff_ne, ne_eq, not_true_eq_false, one_ne_zero, not_false_eq_true, if_true,
        if_false, mul_zero, mul_one, add_zero, ite_not] <;> split_ifs <;> omega

theorem roundShift_bounds {n s : Nat} (hn : n.log2 = s + 52) :
    2 ^ 52 ≤ roundShift n s ∧ roundShift n s ≤ 2 ^ 53 := by
  have hne : n ≠ 0 := by rintro rfl; simp at hn
  have hlow : 2 ^ (s + 52) ≤ n := (Nat.le_log2 hne).1 (by omega)
  have hhigh : n < 2 ^ (s + 53) := (Nat.log2_lt hne).1 (by omega)
  have hdiv : 2 ^ 52 ≤ n / 2 ^ s := by
    rw [Nat.le_div_iff_mul_le (Nat.two_pow_pos s), ← Nat.pow_add, Nat.add_comm]
    exact hlow
  have hdiv' : n / 2 ^ s < 2 ^ 53 := by
    rw [Nat.div_lt_iff_lt_mul (Nat.two_pow_pos s), ← Nat.pow_add, Nat.add_comm]
    exact hhigh
  unfold roundShift
  split
  · omega
  · split <;> omega

/-- Rounding adds no more than one bit. -/
theorem le_one_of_roundShift {n s m k : Nat} (hn : n.log2 = s + 52) (hlow : 2 ^ 52 ≤ m)
    (hround : roundShift n s = m * 2 ^ k) : k ≤ 1 := by
  have hbound := (roundShift_bounds hn).2
  rw [hround] at hbound
  refine Nat.le_of_not_lt fun hk => ?_
  have hpow : 2 ^ 2 ≤ 2 ^ k := Nat.pow_le_pow_right (by decide) hk
  have hmul := Nat.mul_le_mul hlow hpow
  omega

/-- A significand is shifted until it has 53 bits. -/
theorem shiftToTargetExponent_eq {n s : Nat} {e : Int} (hn : n.log2 = s + 52)
    (he : -1074 ≤ e + s) :
    shiftToTargetExponent Format.binary64 n e .exact =
      (ExtendedMantissa.ofMantissaAndAccuracy n .exact >>> s, e + s) := by
  have htarget : Format.binary64.targetExponent (totalExponent n e) = e + s := by
    simp only [Format.targetExponent, totalExponent, hn, Format.mantissaBits, Format.minExponent]
    omega
  have hamount : (e + s - e).toNat = s := by omega
  simp only [shiftToTargetExponent, shiftToExponent, htarget, hamount]

/-- **Rounding a product of two significands** gives 53 bits again. -/
theorem roundWithAccuracy_eq {n s : Nat} {e : Int} (hn : n.log2 = s + 52)
    (he : -1074 ≤ e + s) :
    ∃ m k h, 2 ^ 52 ≤ m ∧ m < 2 ^ 53 ∧ roundShift n s = m * 2 ^ k ∧
      roundWithAccuracy Format.binary64 .positive n e .exact =
        .finite .positive m (e + s + (k : Nat)) h := by
  obtain ⟨hlow, hhigh⟩ := roundShift_bounds hn
  unfold roundWithAccuracy
  simp only [shiftToTargetExponent_eq hn he, roundedMantissa_shift]
  rcases Nat.lt_or_eq_of_le hhigh with hlt | heq
  · have hlog : (roundShift n s).log2 = 0 + 52 := (Nat.log2_eq_iff (by omega)).2 ⟨hlow, hlt⟩
    refine ⟨roundShift n s, 0, by omega, hlow, hlt, by rw [Nat.pow_zero, Nat.mul_one], ?_⟩
    simp only [shiftToTargetExponent_eq hlog (show -1074 ≤ e + s + (0 : Nat) by omega)]
    exact dif_neg (show ¬roundShift n s = 0 by omega)
  · -- the number has been rounded up to one bit more
    have hlog : (2 ^ 53 : Nat).log2 = 1 + 52 := Nat.log2_two_pow
    refine ⟨2 ^ 52, 1, by omega, by omega, by omega, heq, ?_⟩
    simp only [heq, shiftToTargetExponent_eq hlog (show -1074 ≤ e + s + (1 : Nat) by omega)]
    rfl

/-! ## Packing -/

theorem toBitVec_pack (f : UnpackedFloat) :
    (Float.Model.pack f).toBits.toBitVec = UnpackedFloat.pack Format.binary64 f := rfl

theorem unpackSign_packComponents {sign : Sign} {exponent : BitVec 11} {mantissa : BitVec 52} :
    unpackSign (packComponents Format.binary64 sign exponent mantissa) = sign.toBitVec := by
  ext i hi
  obtain rfl : i = 0 := by omega
  have happend : (sign.toBitVec ++ exponent ++ mantissa).getLsbD 63 = sign.toBitVec[0] := by
    rw [BitVec.getLsbD_append, BitVec.getLsbD_append]
    rfl
  simp [unpackSign, packComponents, happend]

/-- A number of 53 bits is unpacked as it has been packed, if its exponent is in the range. -/
theorem unpack_pack_finite {m : Nat} {e : Int} {h : 0 < m} (hlow : 2 ^ 52 ≤ m) (hhigh : m < 2 ^ 53)
    (hmin : -1074 ≤ e) (hmax : e < 972) :
    (Float.Model.pack (.finite .positive m e h)).unpack = .finite .positive m e h := by
  have hlog : m.log2 = 52 := (Nat.log2_eq_iff (by omega)).2 ⟨hlow, hhigh⟩
  obtain ⟨b, hb⟩ : ∃ b, b = (e + Format.binary64.exponentBias +
    Format.binary64.mantissaBitsWithoutImplicit).toNat := ⟨_, rfl⟩
  have hbias : Format.binary64.exponentBias = 1023 := rfl
  have hbits : (Format.binary64.mantissaBitsWithoutImplicit : Int) = 52 := rfl
  have hbe : (b : Int) = e + 1075 := by
    rw [hb, hbias, hbits]
    omega
  have hpack : UnpackedFloat.pack Format.binary64 (.finite .positive m e h) =
      packComponents Format.binary64 .positive (BitVec.ofNat 11 b) (BitVec.ofNat 52 m) := by
    rw [UnpackedFloat.pack]
    simp only [← hb]
    rw [if_neg (by omega), if_pos (by rw [hlog]; rfl)]
  have hb' : (BitVec.ofNat 11 b).toNat = b := by
    rw [BitVec.toNat_ofNat, Nat.mod_eq_of_lt (by omega)]
  -- the stored exponent is neither that of the infinities nor that of the subnormal numbers
  have hsome : BitVec.ofNat 11 b ≠ -1#11 := by
    intro heq
    rw [heq] at hb'
    have hall : (-1#11 : BitVec 11).toNat = 2047 := rfl
    omega
  have hnone : BitVec.ofNat 11 b ≠ 0#11 := by
    intro heq
    rw [heq] at hb'
    have hzero : (0#11 : BitVec 11).toNat = 0 := rfl
    omega
  have hmantissa : (1#1 ++ BitVec.ofNat 52 m).toNat = m := by
    rw [BitVec.toNat_append, BitVec.toNat_ofNat, BitVec.toNat_ofNat]
    -- the leading bit of a normal number is not stored
    have hmod : m % 2 ^ 52 = m - 2 ^ 52 := by omega
    rw [hmod, ← Nat.shiftLeft_add_eq_or_of_lt (by omega)]
    omega
  rw [Float.Model.unpack, toBitVec_pack, hpack, UnpackedFloat.unpack]
  simp only [unpackMantissa_packComponents, unpackExponent_packComponents,
    unpackSign_packComponents, if_neg hsome, if_neg hnone, hmantissa, hb', hbias, hbits]
  congr 1
  omega

theorem unpack_pack_infinite {m : Nat} {e : Int} {h : 0 < m} (hmax : 972 ≤ e) :
    (Float.Model.pack (.finite .positive m e h)).unpack = .infinity .positive := by
  have hbias : 2 ^ Format.binary64.exponentBits ≤
      (e + Format.binary64.exponentBias + Format.binary64.mantissaBitsWithoutImplicit).toNat +
        1 := by
    simp only [Format.exponentBias]
    omega
  rw [Float.Model.unpack, toBitVec_pack, UnpackedFloat.pack]
  simp only [if_pos hbias]
  rfl

/-! ## Whole numbers as doubles -/

/-- `x` is the positive number `v`, with 53 bits in front of an exponent. -/
def Denotes (x : Float) (v : Nat) : Prop :=
  ∃ m e h, x.toModel.unpack = .finite .positive m e h ∧ 2 ^ 52 ≤ m ∧ m < 2 ^ 53 ∧ -52 ≤ e ∧
    m * 2 ^ (e + 52).toNat = v * 2 ^ 52

theorem denotes_round {n s v : Nat} {e : Int} (hn : n.log2 = s + 52) (hmin : -52 ≤ e + s)
    (hmax : e + s < 971) (hv : roundShift n s * 2 ^ (e + s + 52).toNat = v * 2 ^ 52) :
    Denotes (.ofModel (.pack (roundWithAccuracy Format.binary64 .positive n e .exact))) v := by
  obtain ⟨m, k, h, hlow, hhigh, hround, heq⟩ :=
    roundWithAccuracy_eq hn (show -1074 ≤ e + s by omega)
  have hk := le_one_of_roundShift hn hlow hround
  refine ⟨m, e + s + (k : Nat), h, ?_, hlow, hhigh, by omega, ?_⟩
  · rw [heq]
    exact unpack_pack_finite hlow hhigh (by omega) (by omega)
  · have hexp : (e + s + (k : Nat) + 52).toNat = k + (e + s + 52).toNat := by omega
    rw [hexp, Nat.pow_add, ← Nat.mul_assoc, ← hround, hv]

theorem roundShift_mul (n s c : Nat) : roundShift (n * 2 ^ c) (s + c) = roundShift n s := by
  have hpow : 2 ^ (s + c) = 2 ^ s * 2 ^ c := Nat.pow_add ..
  have hpos := Nat.two_pow_pos c
  have hdiv : n * 2 ^ c / (2 ^ s * 2 ^ c) = n / 2 ^ s := Nat.mul_div_mul_right _ _ hpos
  have hmod : n * 2 ^ c % (2 ^ s * 2 ^ c) = n % 2 ^ s * 2 ^ c := Nat.mul_mod_mul_right ..
  simp only [roundShift, hpow, hdiv, hmod, ← Nat.mul_assoc, Nat.mul_lt_mul_right hpos,
    Nat.mul_left_inj hpos.ne']

theorem roundShift_zero (n : Nat) : roundShift n 0 = n := by
  simp [roundShift, Nat.mod_one]

theorem log2_mul_two_pow {n : Nat} (hn : n ≠ 0) (c : Nat) : (n * 2 ^ c).log2 = n.log2 + c := by
  rw [Nat.log2_eq_iff (Nat.mul_ne_zero hn (Nat.two_pow_pos c).ne'), Nat.pow_add,
    Nat.mul_le_mul_right_iff (Nat.two_pow_pos c), Nat.add_right_comm, Nat.pow_add,
    Nat.mul_lt_mul_right (Nat.two_pow_pos c)]
  exact (Nat.log2_eq_iff hn).1 rfl

/-- **A number of 64 bits becomes the nearest one of 53 bits.** -/
theorem denotes_toFloat {n : UInt64} (hn : n.toNat ≠ 0) : Denotes n.toFloat (nearest n.toNat) := by
  have hlt : n.toNat.log2 < 64 := (Nat.log2_lt hn).2 n.toNat_lt
  have hround : n.toFloat =
      .ofModel (.pack (UnpackedFloat.round Format.binary64 .positive n.toNat 0)) := by
    have hcompare : compare (n.toNat : Int) 0 = .gt := by
      rw [Int.compare_eq_gt]
      omega
    show Float.ofModel (.pack (UnpackedFloat.normalize _ (n.toNat : Int) 0 .positive)) = _
    rw [UnpackedFloat.normalize, hcompare]
    rfl
  have htarget : Format.binary64.targetExponent (totalExponent n.toNat 0) =
      (n.toNat.log2 : Int) - 52 := by
    simp only [Format.targetExponent, totalExponent, Format.mantissaBits, Format.minExponent]
    omega
  rw [hround, UnpackedFloat.round]
  simp only [htarget, decreaseExponent]
  rcases Nat.lt_or_ge n.toNat.log2 52 with hsmall | hlarge
  · -- a number with fewer bits is shifted to the left
    obtain ⟨c, hc⟩ : ∃ c, n.toNat.log2 + c = 52 := ⟨52 - n.toNat.log2, by omega⟩
    have hamount : (0 - ((n.toNat.log2 : Int) - 52)).toNat = c := by omega
    have hlog := log2_mul_two_pow hn c
    have hzero : n.toNat.log2 - 52 = 0 := by omega
    rw [hamount, Nat.shiftLeft_eq]
    refine denotes_round (s := 0) (by omega) (by omega) (by omega) ?_
    have hexp : ((0 : Int) - (c : Nat) + (0 : Nat) + 52).toNat = n.toNat.log2 := by omega
    rw [nearest, hzero, roundShift_zero, roundShift_zero, hexp, Nat.pow_zero, Nat.mul_one,
      Nat.mul_assoc, ← Nat.pow_add, Nat.add_comm, hc]
  · obtain ⟨s, hs⟩ := Nat.exists_eq_add_of_le' hlarge
    have hamount : (0 - ((n.toNat.log2 : Int) - 52)).toNat = 0 := by omega
    rw [hamount, Nat.shiftLeft_zero]
    refine denotes_round (s := s) hs (by omega) (by omega) ?_
    have hexp : ((0 : Int) - (0 : Nat) + (s : Nat) + 52).toNat = s + 52 := by omega
    have hsub : n.toNat.log2 - 52 = s := by omega
    rw [nearest, hsub, hexp, Nat.pow_add, Nat.mul_assoc]

/-- Whether a float is the given positive number. -/
def isNumber (x : Float) (v : Nat) : Bool :=
  match x.toModel.unpack with
  | .finite .positive m e _ =>
    decide (2 ^ 52 ≤ m ∧ m < 2 ^ 53 ∧ -52 ≤ e ∧ m * 2 ^ (e + 52).toNat = v * 2 ^ 52)
  | _ => false

theorem denotes_of_isNumber {x : Float} {v : Nat} (h : isNumber x v = true) : Denotes x v := by
  unfold isNumber at h
  split at h
  · next m e hpos heq => exact ⟨m, e, hpos, heq, of_decide_eq_true h⟩
  · cases h

theorem tenTo_eq {n : Nat} (hlow : 22 < n) (hhigh : n ≤ 308) :
    Numeral.tenTo n = .ofModel (.pack
      (roundWithAccuracy Format.binary64 .positive (2 ^ 53 * 10 ^ n) (-53) .exact)) := by
  have hlarge : ¬(1 < 2 ^ 53 ∧ n ≤ 22) := by omega
  have hbits : (2 : Int) ^ Format.binary64.exponentBits = 2048 := rfl
  have hbig : ¬((n : Int) > 2 ^ Format.binary64.exponentBits) := by
    rw [hbits]
    omega
  have hsmall : ¬((n : Int) < -((2 ^ Format.binary64.exponentBits : Int) + Nat.log2 1)) := by
    rw [hbits]
    omega
  rw [Numeral.tenTo, Float.ofScientific, dif_neg hlarge]
  simp only [Bool.false_eq_true, if_false, Float.Model.ofScientific, UnpackedFloat.ofScientific,
    Int.ofNat_eq_natCast, dif_neg Nat.one_ne_zero, if_neg hbig, if_neg hsmall,
    if_pos (Int.natCast_nonneg n)]
  rfl

/-- **Powers of ten as doubles.** -/
theorem denotes_tenTo {n : Nat} (hn : n ≤ 308) : Denotes (Numeral.tenTo n) (nearest (10 ^ n)) := by
  by_cases hedge : n < 23 ∨ n = 308
  · -- the small ones are taken from a table, and the last one is close to the end of the range
    have htable : ∀ n, n < 23 ∨ n = 308 →
        isNumber (Numeral.tenTo n) (nearest (10 ^ n)) = true := by
      have hsmall : ∀ n < 23, isNumber (Numeral.tenTo n) (nearest (10 ^ n)) = true := by
        decide +kernel
      rintro n (hn | rfl)
      · exact hsmall n hn
      · decide +kernel
    exact denotes_of_isNumber (htable n hedge)
  · have hne : 10 ^ n ≠ 0 := (Nat.pow_pos (by decide)).ne'
    have hpow := Nat.pow_le_pow_right (show 0 < 10 by decide) (show 23 ≤ n by omega)
    have hlow : 52 ≤ (10 ^ n).log2 := (Nat.le_log2 hne).2 (Nat.le_trans (by decide) hpow)
    have hpow' := Nat.pow_le_pow_right (show 0 < 10 by decide) (show n ≤ 307 by omega)
    have hhigh : (10 ^ n).log2 < 1021 :=
      (Nat.log2_lt hne).2 (Nat.lt_of_le_of_lt hpow' (by decide +kernel))
    obtain ⟨s, hs⟩ := Nat.exists_eq_add_of_le' hlow
    have hlog := log2_mul_two_pow hne 53
    have hsub : (10 ^ n).log2 - 52 = s := by omega
    rw [tenTo_eq (by omega) hn, Nat.mul_comm]
    refine denotes_round (s := s + 53) (by omega) (by omega) (by omega) ?_
    have hexp : ((-53 : Int) + (s + 53 : Nat) + 52).toNat = s + 52 := by omega
    rw [nearest, hsub, roundShift_mul, hexp, Nat.pow_add, Nat.mul_assoc]

/-! ## Products -/

/-- The significand of the largest double is rounded up from half a unit above it on. -/
theorem roundShift_eq_iff {n s : Nat} (hn : n.log2 = s + 52) :
    roundShift n s = 2 ^ 53 ↔ (2 ^ 54 - 1) * 2 ^ s ≤ 2 * n := by
  have hne : n ≠ 0 := by rintro rfl; simp at hn
  have hhigh : n < 2 ^ (s + 53) := (Nat.log2_lt hne).1 (by omega)
  have hpos := Nat.two_pow_pos s
  have hdiv : n / 2 ^ s < 2 ^ 53 := by
    rw [Nat.div_lt_iff_lt_mul hpos, ← Nat.pow_add, Nat.add_comm]
    exact hhigh
  have hrest : n % 2 ^ s < 2 ^ s := Nat.mod_lt _ hpos
  have hsplit := Nat.div_add_mod n (2 ^ s)
  unfold roundShift
  by_cases hlast : n / 2 ^ s = 2 ^ 53 - 1
  · rw [hlast] at hsplit ⊢
    split
    · omega
    · split <;> omega
  · have hprod : 2 ^ s * (n / 2 ^ s + 1) ≤ 2 ^ s * (2 ^ 53 - 1) :=
      Nat.mul_le_mul_left _ (by omega)
    rw [Nat.mul_add] at hprod
    have hround : (if 2 * (n % 2 ^ s) < 2 ^ s then n / 2 ^ s
        else if 2 * (n % 2 ^ s) = 2 ^ s then n / 2 ^ s + n / 2 ^ s % 2
        else n / 2 ^ s + 1) < 2 ^ 53 := by
      split
      · omega
      · split <;> omega
    omega

theorem scaled_le_iff {n s t c : Nat} (h : s + t = c + 1) :
    (2 ^ 54 - 1) * 2 ^ c ≤ n * 2 ^ t ↔ (2 ^ 54 - 1) * 2 ^ s ≤ 2 * n := by
  have hpow : 2 ^ s * 2 ^ t = 2 * 2 ^ c := by rw [← Nat.pow_add, h, Nat.pow_succ']
  have hscaled : (2 ^ 54 - 1) * 2 ^ s ≤ 2 * n ↔ (2 ^ 54 - 1) * 2 ^ s * 2 ^ t ≤ 2 * n * 2 ^ t :=
    (Nat.mul_le_mul_right_iff (Nat.two_pow_pos t)).symm
  rw [hscaled, Nat.mul_assoc _ (2 ^ s), hpow, Nat.mul_assoc 2 n]
  omega

/-- Whether a rounded number is beyond the largest double. -/
theorem overflow_iff {n s m k v : Nat} {e : Int} (hn : n.log2 = s + 52) (he : 0 ≤ e + 104)
    (hlow : 2 ^ 52 ≤ m) (hhigh : m < 2 ^ 53) (hround : roundShift n s = m * 2 ^ k)
    (hv : n * 2 ^ (e + 104).toNat = v * 2 ^ 104) :
    972 ≤ e + s + (k : Nat) ↔ (2 ^ 54 - 1) * 2 ^ 970 ≤ v := by
  have hne : n ≠ 0 := by rintro rfl; simp at hn
  have hbelow : 2 ^ (s + 52) ≤ n := (Nat.le_log2 hne).1 (by omega)
  have habove : n < 2 ^ (s + 53) := (Nat.log2_lt hne).1 (by omega)
  have hbound := (roundShift_bounds hn).2
  obtain ⟨t, ht⟩ : ∃ t, t = (e + 104).toNat := ⟨_, rfl⟩
  obtain ⟨b, hb⟩ : ∃ b, b = 970 := ⟨_, rfl⟩
  obtain ⟨c, hc⟩ : ∃ c, c = b + 104 := ⟨_, rfl⟩
  have hpos := Nat.two_pow_pos c
  have hscale : (2 ^ 54 - 1) * 2 ^ 970 ≤ v ↔ (2 ^ 54 - 1) * 2 ^ c ≤ n * 2 ^ t := by
    rw [← hb, ht, hv, hc, Nat.pow_add, ← Nat.mul_assoc,
      Nat.mul_le_mul_right_iff (Nat.two_pow_pos 104)]
  rw [hscale]
  have hk := le_one_of_roundShift hn hlow hround
  have hone : k = 0 ∧ roundShift n s < 2 ^ 53 ∨ k = 1 ∧ roundShift n s = 2 ^ 53 := by
    interval_cases k
    · exact .inl ⟨rfl, by omega⟩
    · exact .inr ⟨rfl, by omega⟩
  rcases Nat.lt_trichotomy (s + t) (c + 1) with hless | heq | hmore
  · -- too small, even if it is rounded up
    have hlt : n * 2 ^ t < 2 ^ (s + 53) * 2 ^ t :=
      Nat.mul_lt_mul_of_pos_right habove (Nat.two_pow_pos t)
    have hpow := Nat.pow_le_pow_right (show 0 < 2 by decide) (show s + 53 + t ≤ 53 + c by omega)
    rw [Nat.pow_add 2 (s + 53), Nat.pow_add 2 53] at hpow
    exact iff_of_false (by omega) (by omega)
  · -- the significand decides
    rw [scaled_le_iff heq, ← roundShift_eq_iff hn]
    omega
  · have hle : 2 ^ (s + 52) * 2 ^ t ≤ n * 2 ^ t := Nat.mul_le_mul_right _ hbelow
    have hpow := Nat.pow_le_pow_right (show 0 < 2 by decide) (show 54 + c ≤ s + 52 + t by omega)
    rw [Nat.pow_add 2 54, Nat.pow_add 2 (s + 52)] at hpow
    exact iff_of_true (by omega) (by omega)

/-- **A product of doubles is infinite** if and only if it is no less than half way from the largest
double to the next power of two. -/
theorem isInf_mul {x y : Float} {v w : Nat} (hx : Denotes x v) (hy : Denotes y w) :
    (x * y).isInf = true ↔ limit ≤ v * w := by
  obtain ⟨m, e, h, hunpack, hlow, hhigh, he, hv⟩ := hx
  obtain ⟨m', e', h', hunpack', hlow', hhigh', he', hw⟩ := hy
  have hmul : x * y = .ofModel (.pack
      (roundWithAccuracy Format.binary64 .positive (m * m') (e + e') .exact)) := by
    show Float.ofModel (.pack (UnpackedFloat.mul _ x.toModel.unpack y.toModel.unpack)) = _
    rw [hunpack, hunpack']
    rfl
  have hne : m * m' ≠ 0 := Nat.mul_ne_zero h.ne' h'.ne'
  have hlog : 104 ≤ (m * m').log2 :=
    (Nat.le_log2 hne).2 (Nat.le_trans (by decide) (Nat.mul_le_mul hlow hlow'))
  obtain ⟨s, hs⟩ := Nat.exists_eq_add_of_le' (Nat.le_trans (show 52 ≤ 104 by decide) hlog)
  obtain ⟨p, k, hp, hplow, hphigh, hround, heq⟩ :=
    roundWithAccuracy_eq hs (show -1074 ≤ e + e' + s by omega)
  have hprod : m * m' * 2 ^ (e + e' + 104).toNat = v * w * 2 ^ 104 := by
    have hexp : (e + e' + 104).toNat = (e + 52).toNat + (e' + 52).toNat := by omega
    rw [hexp, Nat.pow_add, Nat.mul_mul_mul_comm, hv, hw, Nat.mul_mul_mul_comm, ← Nat.pow_add]
  rw [hmul, limit, ← overflow_iff hs (by omega) hplow hphigh hround hprod, heq]
  show (Float.Model.pack _).unpack.isInf = true ↔ _
  by_cases hmax : 972 ≤ e + e' + s + (k : Nat)
  · rw [unpack_pack_infinite hmax]
    exact iff_of_true rfl hmax
  · rw [unpack_pack_finite hplow hphigh (by omega) (by omega)]
    exact iff_of_false nofun hmax

end Number

end RoomWatch

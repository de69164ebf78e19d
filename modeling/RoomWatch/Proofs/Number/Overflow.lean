import RoomWatch.Proofs.Number.Doubles

/-!
# Literals that are too large

A literal that is read as a double is a significand and a power of ten. The significand takes digits
as long as it fits 64 bits (`Taken`); every other digit counts for the exponent only (`Scaled`).
Both are rounded to 53 bits before they are multiplied.

* `absorb_eq`: the digits that are taken.
* `scaleFloat_eq_none_iff`: when the product with a power of ten is too large.
* `toFloat?_eq_none_iff`: **a literal is too large if and only if its digits and its exponent say
  so** (`TooLarge`).
-/

namespace RoomWatch

namespace Number

open Float.Model

/-- Of the digits `ds` the first `k` are taken into a significand in which `m` is already: as many
as fit 64 bits. -/
structure Taken (m : Nat) (ds : List Char) (k : Nat) : Prop where
  le : k ≤ ds.length
  fits : Nat.ofDigitChars 10 (ds.take k) m < 2 ^ 64
  full : k < ds.length → 2 ^ 64 ≤ Nat.ofDigitChars 10 (ds.take (k + 1)) m

namespace Numeral

/-- The digits of a literal are read as `m * 10 ^ e`: with `k` digits before the point and `l`
digits behind it in `m`. -/
def Scaled (x : Numeral) (m : Nat) (e : Int) : Prop :=
  ∃ k l, Taken 0 x.whole k ∧ Taken (Nat.ofDigitChars 10 (x.whole.take k) 0) x.fraction l ∧
    m = Nat.ofDigitChars 10 (x.whole.take k ++ x.fraction.take l) 0 ∧
    e = x.whole.length - k - l + x.exponent.getD 0

/-- **A literal is too large for a double** when it is not zero and its exponent is above 308, or
the product of its significand and its power of ten, each with 53 bits, is no less than half way
between the largest double and the next power of two. -/
def TooLarge (x : Numeral) : Prop :=
  ∃ m e, x.Scaled m e ∧ m ≠ 0 ∧
    (308 < e ∨ 0 ≤ e ∧ limit ≤ nearest m * nearest (10 ^ e.toNat))

end Numeral

/-! ## The digits of the significand -/

theorem le_ofDigitChars (ds : List Char) (m : Nat) : m ≤ Nat.ofDigitChars 10 ds m := by
  induction ds generalizing m with
  | nil => exact Nat.le_refl m
  | cons d ds ih =>
    rw [Nat.ofDigitChars_cons]
    exact Nat.le_trans (by omega) (ih _)

theorem ofDigitChars_take_le (ds : List Char) (m : Nat) {k l : Nat} (h : k ≤ l) :
    Nat.ofDigitChars 10 (ds.take k) m ≤ Nat.ofDigitChars 10 (ds.take l) m := by
  obtain ⟨later, hsplit⟩ := List.take_prefix_take_left (l := ds) h
  rw [← hsplit, Nat.ofDigitChars_append]
  exact le_ofDigitChars _ _

/-- There is one way to take digits only. -/
theorem Taken.unique {m k l : Nat} {ds : List Char} (hk : Taken m ds k) (hl : Taken m ds l) :
    k = l := by
  have hle {i j : Nat} (hi : Taken m ds i) (hj : Taken m ds j) : j ≤ i := by
    refine Nat.le_of_not_lt fun hlt => ?_
    have hfull := hi.full (Nat.lt_of_lt_of_le hlt hj.le)
    have hmore := ofDigitChars_take_le ds m (Nat.succ_le_of_lt hlt)
    exact absurd hj.fits (Nat.not_lt.2 (Nat.le_trans hfull hmore))
  exact Nat.le_antisymm (hle hl hk) (hle hk hl)

/-- **Digits are taken one by one.** -/
theorem absorb_eq {m : Nat} (hm : m < UInt64.size) (ds : List Char) :
    ∃ k, Taken m ds k ∧
      Numeral.absorb m ds = (Nat.ofDigitChars 10 (ds.take k) m, ds.drop k) := by
  induction ds generalizing m with
  | nil => exact ⟨0, ⟨Nat.le_refl _, hm, nofun⟩, rfl⟩
  | cons d ds ih =>
    by_cases hnext : 10 * m + (d.toNat - 48) < UInt64.size
    · obtain ⟨k, ⟨hle, hfits, hfull⟩, hk⟩ := ih hnext
      refine ⟨k + 1, ⟨Nat.succ_le_succ hle, hfits, fun hlt => ?_⟩, ?_⟩
      · exact hfull (Nat.lt_of_succ_lt_succ hlt)
      · rw [Numeral.absorb, if_pos hnext, hk]
        rfl
    · refine ⟨0, ⟨Nat.zero_le _, hm, fun _ => Nat.le_of_not_lt hnext⟩, ?_⟩
      rw [Numeral.absorb, if_neg hnext]
      rfl

/-! ## Powers of ten -/

theorem unpack_toFloat_zero : (0 : UInt64).toFloat.toModel.unpack = .zero .positive := rfl

theorem unpack_zero : (0 : Float).toModel.unpack = .zero .positive := rfl

/-- A number of 64 bits is zero as a double, or it is the nearest number of 53 bits. -/
theorem toFloat_cases (n : UInt64) :
    n.toNat = 0 ∧ n.toFloat.toModel.unpack = .zero .positive ∨
      n.toNat ≠ 0 ∧ Denotes n.toFloat (nearest n.toNat) := by
  by_cases hn : n.toNat = 0
  · obtain rfl : n = 0 := UInt64.toNat_inj.1 hn
    exact .inl ⟨hn, unpack_toFloat_zero⟩
  · exact .inr ⟨hn, denotes_toFloat hn⟩

theorem toFloat_beq_zero (n : UInt64) : (n.toFloat == 0) = decide (n.toNat = 0) := by
  show (n.toFloat.toModel.unpack.beq (0 : Float).toModel.unpack) = _
  rw [unpack_zero]
  rcases toFloat_cases n with ⟨hn, hunpack⟩ | ⟨hn, m, e, h, hunpack, -⟩
  · rw [hunpack, decide_eq_true hn]
    rfl
  · rw [hunpack, decide_eq_false hn]
    rfl

/-- Whether a number of 64 bits is too large for a double after it has been multiplied by a power of
ten. -/
theorem isInf_toFloat_mul (n : UInt64) {k : Nat} (hk : k ≤ 308) :
    (n.toFloat * Numeral.tenTo k).isInf = true ↔
      n.toNat ≠ 0 ∧ limit ≤ nearest n.toNat * nearest (10 ^ k) := by
  have hten := denotes_tenTo hk
  rcases toFloat_cases n with ⟨hn, hunpack⟩ | ⟨hn, hdenotes⟩
  · obtain ⟨m, e, h, hunpack', -⟩ := hten
    have hzero : (n.toFloat * Numeral.tenTo k).isInf =
        (Float.Model.pack (.zero .positive)).unpack.isInf := by
      show (Float.Model.pack (UnpackedFloat.mul _ n.toFloat.toModel.unpack
        (Numeral.tenTo k).toModel.unpack)).unpack.isInf = _
      rw [hunpack, hunpack']
      rfl
    rw [hzero]
    exact iff_of_false Bool.false_ne_true fun hlarge => hlarge.1 hn
  · rw [isInf_mul hdenotes hten]
    exact (and_iff_right hn).symm

/-- What is divided by powers of ten is never too large. -/
theorem scaleFloat_of_neg (f : Float) {e : Int} (he : e < 0) : Numeral.scaleFloat f e ≠ none := by
  fun_induction Numeral.scaleFloat f e with
  | case1 | case2 | case3 | case4 => omega
  | case5 | case6 => nofun
  | case7 f e _ _ hsmall _ ih => exact ih (by omega)

theorem scaleFloat_eq_none_iff (n : UInt64) (e : Int) :
    Numeral.scaleFloat n.toFloat e = none ↔
      n.toNat ≠ 0 ∧ (308 < e ∨ 0 ≤ e ∧ limit ≤ nearest n.toNat * nearest (10 ^ e.toNat)) := by
  by_cases hneg : e < 0
  · exact iff_of_false (scaleFloat_of_neg _ hneg) (by omega)
  · rw [Numeral.scaleFloat, toFloat_beq_zero]
    by_cases hlarge : 308 < e
    · simp [hlarge]
    · have hproduct := isInf_toFloat_mul n (show e.toNat ≤ 308 by omega)
      have hnonneg : 0 ≤ e := Int.not_lt.1 hneg
      rw [if_neg hlarge, if_pos hnonneg]
      simp [hproduct, hlarge, hnonneg]

/-- The digits of a literal are read in one way only. -/
theorem Numeral.Scaled.tooLarge_iff {x : Numeral} {m : Nat} {e : Int} (h : x.Scaled m e) :
    x.TooLarge ↔
      m ≠ 0 ∧ (308 < e ∨ 0 ≤ e ∧ limit ≤ nearest m * nearest (10 ^ e.toNat)) := by
  obtain ⟨k, l, hk, hl, hm, he⟩ := h
  constructor
  · rintro ⟨m', e', ⟨k', l', hk', hl', hm', he'⟩, hlarge⟩
    -- with the digits that are taken, significand and exponent are the same
    obtain rfl := hk.unique hk'
    obtain rfl := hl.unique hl'
    rw [hm, he, ← hm', ← he']
    exact hlarge
  · exact fun hlarge => ⟨m, e, ⟨k, l, hk, hl, hm, he⟩, hlarge⟩

/-- **A literal is too large** if and only if its digits and its exponent say so. -/
theorem toFloat?_eq_none_iff (x : Numeral) : x.toFloat? = none ↔ x.TooLarge := by
  obtain ⟨k, hk, hwhole⟩ := absorb_eq (m := 0) (by decide) x.whole
  obtain ⟨l, hl, hfraction⟩ := absorb_eq hk.fits x.fraction
  obtain ⟨m, hm⟩ : ∃ m, m = Nat.ofDigitChars 10 (x.whole.take k ++ x.fraction.take l) 0 := ⟨_, rfl⟩
  obtain ⟨e, he⟩ : ∃ e : Int, e = x.whole.length - k - l + x.exponent.getD 0 := ⟨_, rfl⟩
  have hscaled : x.Scaled m e := ⟨k, l, hk, hl, hm, he⟩
  have hlt : m < UInt64.size := by
    rw [hm, Nat.ofDigitChars_append]
    exact hl.fits
  have hread : x.toFloat? = (Numeral.scaleFloat m.toUInt64.toFloat e).map fun f =>
      if x.negative then -f else f := by
    -- the exponent is counted from the digits that are left over
    have hplaces : ((x.whole.drop k).length : Int) -
        (x.fraction.length - (x.fraction.drop l).length : Nat) + x.exponent.getD 0 = e := by
      have := hk.le
      have := hl.le
      rw [he, List.length_drop, List.length_drop]
      omega
    simp only [Numeral.toFloat?, hwhole, hfraction, hplaces]
    rw [hm, Nat.ofDigitChars_append]
  have hsize : m.toUInt64.toNat = m := UInt64.toNat_ofNat_of_lt' hlt
  rw [hread, Option.map_eq_none_iff, scaleFloat_eq_none_iff, hsize, hscaled.tooLarge_iff]

end Number

end RoomWatch

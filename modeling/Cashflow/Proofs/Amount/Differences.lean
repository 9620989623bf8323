import Cashflow.Proofs.Amount.Doubles
import Cashflow.Proofs.Amount.Ordered

/-!
# Differences of doubles

A finite double stands for a whole number of units, and the difference of two is rounded to 53
binary figures: it is the double nearest to the difference of what they are worth, infinity where
that is beyond all of them (`isWorth_sub`). Rounding keeps the order and the sign
(`nearestWorth_mono`, `nearestWorth_nonneg_iff`), so doubles are `Amount.Ordered`.

The rounding is that of the logical model of `Float`, in which a mantissa is shifted bit by bit and
two further bits tell how what is lost compares with a half (`Shows`).
-/

namespace Cashflow.Doubles
open Float.Model Float.Model.UnpackedFloat Decimal

/-! ## Rounding -/

/-- A mantissa with its two further bits shows a fraction: what is missing from the whole part is
compared with the half. -/
structure Shows (em : ExtendedMantissa) (n d : Nat) : Prop where
  mantissa : em.mantissa = n / d
  roundBit : em.roundBit = true ↔ d ≤ 2 * (n % d)
  stickyBit : em.stickyBit = true ↔ n % d ≠ 0 ∧ 2 * (n % d) ≠ d

theorem shows_exact (m : Nat) : Shows (.ofMantissaAndAccuracy m .exact) m 1 where
  mantissa := (Nat.div_one m).symm
  roundBit := iff_of_false Bool.false_ne_true (by omega)
  stickyBit := iff_of_false Bool.false_ne_true (by omega)

theorem Shows.shiftRightOne {em : ExtendedMantissa} {n d : Nat} (h : Shows em n d) (hd : 0 < d) :
    Shows em.shiftRightOne n (d * 2) := by
  have hrest : n % (d * 2) = n % d + d * (n / d % 2) := Nat.mod_mul
  have hlt := Nat.mod_lt n hd
  refine ⟨?_, ?_, ?_⟩
  · show em.mantissa / 2 = _
    rw [h.mantissa, Nat.div_div_eq_div_mul]
  · show (em.mantissa % 2 != 0) = true ↔ _
    rw [h.mantissa, hrest, bne_iff_ne]
    rcases Nat.mod_two_eq_zero_or_one (n / d) with hb | hb <;> rw [hb] <;> omega
  · show (em.roundBit || em.stickyBit) = true ↔ _
    rw [Bool.or_eq_true, h.roundBit, h.stickyBit, hrest]
    rcases Nat.mod_two_eq_zero_or_one (n / d) with hb | hb <;> rw [hb] <;> omega

theorem shows_shift (m k : Nat) :
    Shows ((ExtendedMantissa.ofMantissaAndAccuracy m .exact) >>> k) m (2 ^ k) := by
  show Shows (k.repeat ExtendedMantissa.shiftRightOne _) m (2 ^ k)
  induction k with
  | zero => exact shows_exact m
  | succ k ih =>
    rw [Nat.repeat, Nat.pow_succ]
    exact ih.shiftRightOne (Nat.two_pow_pos k)

theorem Shows.roundedMantissa {em : ExtendedMantissa} {n d : Nat} (h : Shows em n d) (hd : 0 < d) :
    em.roundedMantissa = Fraction.round ⟨n, d⟩ := by
  obtain ⟨m, r, s⟩ := em
  obtain ⟨hm, hr, hs⟩ := h
  dsimp only at hm hr hs
  unfold Fraction.round
  dsimp only
  rw [← hm]
  cases r <;> cases s <;>
    simp only [ExtendedMantissa.roundedMantissa, ExtendedMantissa.accuracy,
      Accuracy.roundToNearestEven, Bool.false_eq_true, true_iff, false_iff] at hr hs ⊢ <;>
    split_ifs <;> omega

/-- How far a mantissa is shifted to the right to be placed. -/
def shift (m : Nat) (e : Int) : Nat := (max (m.log2 + e - 52) (-1074) - e).toNat

theorem targetExponent_eq (m : Nat) (e : Int) :
    Format.binary64.targetExponent (totalExponent m e) = max (m.log2 + e - 52) (-1074) := by
  show max ((m.log2 : Int) + 1 + e - 53) (-1074) = _
  omega

theorem shiftToTargetExponent_eq (m : Nat) (e : Int) :
    shiftToTargetExponent Format.binary64 m e .exact =
      ((ExtendedMantissa.ofMantissaAndAccuracy m .exact) >>> shift m e, e + shift m e) := by
  unfold shiftToTargetExponent shiftToExponent
  rw [targetExponent_eq]
  rfl

/-- A short mantissa is not shifted, and one with a carry by one place. -/
theorem shiftToTargetExponent_short {q : Nat} {e : Int} (hq : q < 2 ^ 53) (he : -1074 ≤ e) :
    shiftToTargetExponent Format.binary64 q e .exact = (⟨q, false, false⟩, e) := by
  have hlog : q.log2 < 53 := by
    rcases Nat.eq_zero_or_pos q with rfl | hpos
    · decide
    · exact (Nat.log2_lt hpos.ne').2 hq
  have hshift : shift q e = 0 := by
    unfold shift
    omega
  rw [shiftToTargetExponent_eq, hshift]
  exact congrArg (Prod.mk _) (Int.add_zero e)

theorem shiftToTargetExponent_carry {e : Int} (he : -1074 ≤ e) :
    shiftToTargetExponent Format.binary64 (2 ^ 53) e .exact = (⟨2 ^ 52, false, false⟩, e + 1) := by
  have hshift : shift (2 ^ 53) e = 1 := by
    have hlog : (2 ^ 53).log2 = 53 := Nat.log2_two_pow
    unfold shift
    rw [hlog]
    omega
  rw [shiftToTargetExponent_eq, hshift]
  rfl

/-- A number in the place it is rounded at, after the carry. -/
theorem exists_placed {q : Nat} {e : Int} (hq : 0 < q) (hle : q ≤ 2 ^ 53) (he : -1074 ≤ e)
    (hfull : 2 ^ 52 ≤ q ∨ e = -1074) :
    ∃ q' t, shiftToTargetExponent Format.binary64 q e .exact = (⟨q', false, false⟩, t) ∧ 0 < q' ∧
      Placed q' t ∧ size q' t = size q e := by
  rcases Nat.lt_or_eq_of_le hle with hlt | rfl
  · exact ⟨q, e, shiftToTargetExponent_short hlt he, hq, ⟨hlt, he, hfull⟩, rfl⟩
  · exact ⟨2 ^ 52, e + 1, shiftToTargetExponent_carry he, by decide,
      ⟨by decide, by omega, .inl (Nat.le_refl _)⟩, (size_carry he).symm⟩

theorem exists_roundWithAccuracy {m : Nat} {e : Int} (s : Sign) (hm : 0 < m) (he : -1074 ≤ e)
    (hlow : e ≤ max (m.log2 + e - 52) (-1074)) :
    ∃ q t hq, roundWithAccuracy Format.binary64 s m e .exact = .finite s q t hq ∧ Placed q t ∧
      size q t = rounded (size m e) := by
  have hsize : size m e ≠ 0 := (size_pos hm e).ne'
  have hexcess : excessFigures (size m e) = shift m e + (e + 1074).toNat := by
    rw [excessFigures, size, log2_mul_pow hm.ne', shift]
    omega
  have hrounded : (((ExtendedMantissa.ofMantissaAndAccuracy m .exact) >>> shift m e)).roundedMantissa =
      significand (size m e) := by
    rw [(shows_shift m (shift m e)).roundedMantissa (Nat.two_pow_pos _)]
    exact (significand_mul_pow hexcess).symm
  have hfull : 2 ^ 52 ≤ significand (size m e) ∨ e + shift m e = -1074 := by
    by_cases h : excessFigures (size m e) = 0
    · exact .inr (by omega)
    · exact .inl (le_significand hsize h)
  obtain ⟨q, t, hplace, hq, hplaced, heq⟩ :=
    exists_placed (significand_pos hsize) (significand_le _) (by omega) hfull
  refine ⟨q, t, hq, ?_, hplaced, heq.trans ?_⟩
  · unfold roundWithAccuracy
    rw [shiftToTargetExponent_eq]
    dsimp only
    rw [hrounded, hplace]
    exact dif_neg hq.ne'
  · rw [rounded, hexcess, size]
    congr 2
    omega

theorem exists_round {m : Nat} {e : Int} (s : Sign) (hm : 0 < m) (he : -1074 ≤ e) :
    ∃ q t hq, UnpackedFloat.round Format.binary64 s m e = .finite s q t hq ∧ Placed q t ∧
      size q t = rounded (size m e) := by
  unfold UnpackedFloat.round decreaseExponent
  dsimp only
  rw [targetExponent_eq, Nat.shiftLeft_eq]
  generalize hd : (e - max (m.log2 + e - 52) (-1074)).toNat = d
  have hlog := log2_mul_pow hm.ne' d
  have hsize : size (m * 2 ^ d) (e - d) = size m e := by
    rw [size, size, Nat.mul_assoc, ← Nat.pow_add]
    congr 2
    omega
  rw [← hsize]
  refine exists_roundWithAccuracy s (Nat.mul_pos hm (Nat.two_pow_pos d)) (by omega) ?_
  rw [hlog]
  omega

/-! ## The nearest double -/

/-- The size of the double nearest to a size. -/
def nearestSize (n : Nat) : Nat := min (rounded n) beyond

/-- What the double nearest to a whole number of units is worth. -/
def nearestWorth (i : Int) : Int := if i < 0 then -nearestSize i.natAbs else nearestSize i.natAbs

theorem nearestSize_mono {n n' : Nat} (h : n ≤ n') : nearestSize n ≤ nearestSize n' :=
  min_le_min_right beyond (rounded_mono h)

theorem nearestSize_zero : nearestSize 0 = 0 := by
  rw [nearestSize, rounded_zero, Nat.zero_min]

theorem nearestSize_pos {n : Nat} (h : n ≠ 0) : 0 < nearestSize n :=
  lt_min (rounded_pos h) beyond_pos

theorem nearestSize_size {m : Nat} {e : Int} (h : Placed m e) (he : e ≤ 971) :
    nearestSize (size m e) = size m e := by
  rw [nearestSize, size, rounded_of_short h.short]
  exact min_eq_left (size_lt_beyond h he).le

theorem nearestWorth_natCast (n : Nat) : nearestWorth n = nearestSize n := by
  rw [nearestWorth, if_neg (by omega), Int.natAbs_natCast]

theorem nearestWorth_neg (i : Int) : nearestWorth (-i) = -nearestWorth i := by
  unfold nearestWorth
  rw [Int.natAbs_neg]
  rcases Int.lt_trichotomy i 0 with h | rfl | h
  · rw [if_neg (by omega), if_pos h, Int.neg_neg]
  · rw [Int.neg_zero, if_neg (by omega), Int.natAbs_zero, nearestSize_zero]
    rfl
  · rw [if_pos (by omega), if_neg (by omega)]

theorem nearestWorth_mono {i i' : Int} (h : i ≤ i') : nearestWorth i ≤ nearestWorth i' := by
  unfold nearestWorth
  split_ifs with hi hi' hi'
  · have habs : i'.natAbs ≤ i.natAbs := by omega
    have hsize := nearestSize_mono habs
    omega
  · omega
  · omega
  · have habs : i.natAbs ≤ i'.natAbs := by omega
    have hsize := nearestSize_mono habs
    omega

theorem nearestWorth_nonneg_iff {i : Int} : 0 ≤ nearestWorth i ↔ 0 ≤ i := by
  unfold nearestWorth
  split_ifs with h
  · have hpos := nearestSize_pos (n := i.natAbs) (by omega)
    omega
  · omega

theorem nearestWorth_nonpos_iff {i : Int} : nearestWorth i ≤ 0 ↔ i ≤ 0 := by
  have h := nearestWorth_nonneg_iff (i := -i)
  rw [nearestWorth_neg] at h
  omega

theorem nearestWorth_apply (s : Sign) (n : Nat) : nearestWorth (s.apply n) = s.apply (nearestSize n) := by
  cases s with
  | positive => exact nearestWorth_natCast n
  | negative => exact (nearestWorth_neg n).trans (congrArg (-·) (nearestWorth_natCast n))

/-- A finite double is the nearest to what it is worth. -/
theorem nearestWorth_worth {u : UnpackedFloat} (h : Standard u) (hu : u.isFinite = true) :
    nearestWorth (worth u) = worth u := by
  cases u with
  | notANumber => cases hu
  | infinity s => cases hu
  | zero s => exact (nearestWorth_natCast 0).trans (congrArg _ nearestSize_zero)
  | finite s m e hm =>
    exact (nearestWorth_apply s _).trans (congrArg _ (congrArg _ (nearestSize_size h.1 h.2)))

/-! ## Differences -/

/-- A number that is there, and what it is worth. -/
structure IsWorth (u : UnpackedFloat) (i : Int) : Prop where
  there : u ≠ .notANumber
  eq : worth u = i

theorem isWorth_unpack_pack {u : UnpackedFloat} (h : Standard u) (hu : u.isFinite = true) :
    IsWorth (Float.Model.pack u).unpack (nearestWorth (worth u)) := by
  rw [unpack_pack h, nearestWorth_worth h hu]
  refine ⟨?_, rfl⟩
  rintro rfl
  cases hu

theorem isWorth_pack {m : Nat} {e : Int} (s : Sign) (hm : 0 < m) (h : Placed m e) :
    IsWorth (Float.Model.pack (.finite s m e hm)).unpack (s.apply (min (size m e) beyond : Nat)) := by
  by_cases he : e ≤ 971
  · rw [unpack_pack_finite s hm h he, Nat.min_eq_left (size_lt_beyond h he).le]
    exact ⟨nofun, rfl⟩
  · rw [unpack_pack_over s hm (by omega), Nat.min_eq_right (beyond_le_size h (by omega))]
    exact ⟨nofun, rfl⟩

theorem isWorth_round {m : Nat} {e : Int} (s : Sign) (hm : 0 < m) (he : -1074 ≤ e) :
    IsWorth (Float.Model.pack (UnpackedFloat.round Format.binary64 s m e)).unpack
      (nearestWorth (s.apply (size m e))) := by
  obtain ⟨q, t, hq, hround, hplaced, hsize⟩ := exists_round s hm he
  rw [hround, nearestWorth_apply, nearestSize, ← hsize]
  exact isWorth_pack s hq hplaced

theorem isWorth_normalize (i : Int) {e : Int} (he : -1074 ≤ e) :
    IsWorth (Float.Model.pack (UnpackedFloat.normalize Format.binary64 i e .positive)).unpack
      (nearestWorth (i * 2 ^ (e + 1074).toNat)) := by
  unfold UnpackedFloat.normalize
  rcases Int.lt_trichotomy i 0 with h | rfl | h
  · have hround := isWorth_round .negative (m := (-i).toNat) (by omega) he
    have happly : Sign.negative.apply (size (-i).toNat e) = i * 2 ^ (e + 1074).toNat := by
      show -((size (-i).toNat e : Nat) : Int) = _
      rw [size, Int.natCast_mul, Int.toNat_of_nonneg (by omega), Int.natCast_pow, ← Int.neg_mul,
        Int.neg_neg]
      rfl
    rw [compare_lt_iff_lt.2 h, ← happly]
    exact hround
  · rw [compare_eq_iff_eq.2 rfl, Int.zero_mul]
    exact isWorth_unpack_pack (u := .zero .positive) trivial rfl
  · have hround := isWorth_round .positive (m := i.toNat) (by omega) he
    have happly : Sign.positive.apply (size i.toNat e) = i * 2 ^ (e + 1074).toNat := by
      show ((size i.toNat e : Nat) : Int) = _
      rw [size, Int.natCast_mul, Int.toNat_of_nonneg (by omega), Int.natCast_pow]
      rfl
    rw [compare_gt_iff_gt.2 h, ← happly]
    exact hround

theorem worth_neg_finite (s : Sign) {m : Nat} {e : Int} (hm : 0 < m) :
    worth (.finite (-s) m e hm) = -worth (.finite s m e hm) := by
  cases s with
  | negative => exact (Int.neg_neg _).symm
  | positive => rfl

/-- A finite number with a lower exponent is worth the same. -/
theorem apply_decreaseExponent (s : Sign) {m : Nat} {e e' : Int} (he : -1074 ≤ e') (hle : e' ≤ e) :
    s.apply (decreaseExponent m e e').1 * 2 ^ (e' + 1074).toNat = s.apply (size m e) := by
  have hsize : (decreaseExponent m e e').1 * 2 ^ (e' + 1074).toNat = size m e := by
    show m <<< (e - e').toNat * 2 ^ (e' + 1074).toNat = size m e
    rw [Nat.shiftLeft_eq, Nat.mul_assoc, ← Nat.pow_add, size]
    congr 2
    omega
  rw [← hsize, Int.natCast_mul, Int.natCast_pow]
  cases s with
  | negative => exact Int.neg_mul _ _
  | positive => rfl

/-- The difference of finite doubles is the double nearest to the difference of what they are
worth. -/
theorem isWorth_sub {u v : UnpackedFloat} (hu : Standard u) (hv : Standard v)
    (hu' : u.isFinite = true) (hv' : v.isFinite = true) :
    IsWorth (Float.Model.pack (u.sub Format.binary64 v)).unpack (nearestWorth (worth u - worth v)) := by
  cases u with
  | notANumber => cases hu'
  | infinity s => cases hu'
  | zero s =>
    cases v with
    | notANumber => cases hv'
    | infinity t => cases hv'
    | zero t =>
      show IsWorth (Float.Model.pack (if s == -t then .zero s else .zero .positive)).unpack _
      split
      · exact isWorth_unpack_pack (u := .zero s) trivial rfl
      · exact isWorth_unpack_pack (u := .zero .positive) trivial rfl
    | finite t m e hm =>
      have hneg := isWorth_unpack_pack (u := .finite (-t) m e hm) hv rfl
      rw [worth_neg_finite] at hneg
      rw [worth_zero, Int.zero_sub]
      exact hneg
  | finite s m e hm =>
    cases v with
    | notANumber => cases hv'
    | infinity t => cases hv'
    | zero t =>
      rw [worth_zero, Int.sub_zero]
      exact isWorth_unpack_pack hu rfl
    | finite t m' e' hm' =>
      have hlow : -1074 ≤ min e e' := le_min hu.1.low hv.1.low
      have hdiff := isWorth_normalize (s.apply (decreaseExponent m e (min e e')).1 -
        t.apply (decreaseExponent m' e' (min e e')).1) hlow
      rw [Int.sub_mul, apply_decreaseExponent s hlow (Int.min_le_left e e'),
        apply_decreaseExponent t hlow (Int.min_le_right e e')] at hdiff
      exact hdiff

section Floats
variable {x y : Float}

/-- A double whose difference with itself is there is finite. -/
theorem isFinite_of_isBounded (h : Amount.isBounded x = true) : (parts x).isFinite = true := by
  have hthere : x - x ≤ x - x := by
    simpa [Amount.isBounded, Amount.isMissing] using h
  obtain ⟨hnumber, -⟩ := le_iff.1 hthere
  have hsub : parts (x - x) = (Float.Model.pack ((parts x).sub Format.binary64 (parts x))).unpack := rfl
  rw [hsub] at hnumber
  cases hx : parts x with
  | notANumber =>
    rw [hx] at hnumber
    exact absurd rfl hnumber
  | infinity s =>
    rw [hx] at hnumber
    cases s <;> exact absurd rfl hnumber
  | zero s => rfl
  | finite s m e hm => rfl

theorem isWorth_parts_sub (hx : Amount.isBounded x = true) (hy : Amount.isBounded y = true) :
    IsWorth (parts (x - y)) (nearestWorth (worth (parts x) - worth (parts y))) :=
  isWorth_sub (standard_unpack x.toModel) (standard_unpack y.toModel) (isFinite_of_isBounded hx)
    (isFinite_of_isBounded hy)

theorem ne_of_isBounded (hx : Amount.isBounded x = true) : parts x ≠ .notANumber := by
  intro h
  have hfinite := isFinite_of_isBounded hx
  rw [h] at hfinite
  cases hfinite

theorem parts_zero : parts (0 : Float) = .zero .positive := rfl

theorem zero_ne : parts (0 : Float) ≠ .notANumber := by
  rw [parts_zero]
  nofun

end Floats

instance : Amount.Ordered Float where
  le_trans h h' := by
    obtain ⟨hx, -, hxy⟩ := le_iff.1 h
    obtain ⟨-, hz, hyz⟩ := le_iff.1 h'
    exact le_iff.2 ⟨hx, hz, hxy.trans hyz⟩
  le_total h h' := by
    obtain ⟨hx, -⟩ := le_iff.1 h
    obtain ⟨hy, -⟩ := le_iff.1 h'
    exact (Int.le_total _ _).imp (fun h => le_iff.2 ⟨hx, hy, h⟩) fun h => le_iff.2 ⟨hy, hx, h⟩
  there_of_le h := by
    obtain ⟨hx, -⟩ := le_iff.1 h
    exact le_iff.2 ⟨hx, hx, Int.le_refl _⟩
  lt_iff h h' := by
    obtain ⟨hx, -⟩ := le_iff.1 h
    obtain ⟨hy, -⟩ := le_iff.1 h'
    rw [lt_iff, le_iff, and_iff_right hx, and_iff_right hy, and_iff_right hx, and_iff_right hy, Int.not_le]
  beq_iff := by
    intro x y
    rw [beq_iff, le_iff, le_iff]
    constructor
    · rintro ⟨hx, hy, h⟩
      exact ⟨⟨hx, hy, h.le⟩, hy, hx, h.ge⟩
    · rintro ⟨⟨hx, hy, h⟩, -, -, h'⟩
      exact ⟨hx, hy, Int.le_antisymm h h'⟩
  there h := le_iff.2 ⟨ne_of_isBounded h, ne_of_isBounded h, Int.le_refl _⟩
  sub_there h h' := by
    obtain ⟨hthere, -⟩ := isWorth_parts_sub h h'
    exact le_iff.2 ⟨hthere, hthere, Int.le_refl _⟩
  sub_le_sub hx hy hz h := by
    obtain ⟨hxz, heq⟩ := isWorth_parts_sub hx hz
    obtain ⟨hyz, heq'⟩ := isWorth_parts_sub hy hz
    obtain ⟨-, -, hle⟩ := le_iff.1 h
    refine le_iff.2 ⟨hxz, hyz, ?_⟩
    rw [heq, heq']
    exact nearestWorth_mono (Int.sub_le_sub_right hle _)
  sub_nonneg hx hy := by
    obtain ⟨hxy, heq⟩ := isWorth_parts_sub hx hy
    rw [le_iff, le_iff, and_iff_right hxy, and_iff_right (ne_of_isBounded hx),
      and_iff_right (ne_of_isBounded hy), and_iff_right zero_ne, parts_zero, worth_zero, heq,
      nearestWorth_nonneg_iff, Int.sub_nonneg]
  sub_nonpos hx hy := by
    obtain ⟨hxy, heq⟩ := isWorth_parts_sub hx hy
    rw [le_iff, le_iff, and_iff_right hxy, and_iff_right (ne_of_isBounded hx),
      and_iff_right (ne_of_isBounded hy), and_iff_right zero_ne, parts_zero, worth_zero, heq,
      nearestWorth_nonpos_iff]
    omega

end Cashflow.Doubles

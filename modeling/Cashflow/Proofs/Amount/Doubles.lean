import Cashflow.Proofs.Amount.Nearest

/-!
# Doubles

What comparing doubles means: a double that is there is worth a whole number of units of the least
one, infinity more than all others (`worth`), and comparing two of them is comparing what they are
worth (`le_iff`, `lt_iff`, `beq_iff`). Undefined doubles compare to nothing.

A double unpacks to a mantissa and an exponent in their places (`standard_unpack`), and such a number
comes back from its packed form (`unpack_pack`). In their places, a greater exponent makes the
greater number (`size_lt_of_lt`).
-/

namespace Cashflow.Doubles
open Float.Model Float.Model.UnpackedFloat

/-- A mantissa with its exponent as finite doubles have them, but for the greatest exponent. -/
structure Placed (m : Nat) (e : Int) : Prop where
  short : m < 2 ^ 53
  low : -1074 ≤ e
  full : 2 ^ 52 ≤ m ∨ e = -1074

/-- What a double unpacks to. -/
def Standard : UnpackedFloat → Prop
  | .finite _ m e _ => Placed m e ∧ e ≤ 971
  | _ => True

/-! ## Packing -/

theorem toNat_implicit (v : BitVec 52) : (1#1 ++ v).toNat = 2 ^ 52 + v.toNat := by
  rw [BitVec.toNat_append, ← Nat.shiftLeft_add_eq_or_of_lt v.isLt]
  rfl

theorem finite_congr {s s' : Sign} {m m' : Nat} {e e' : Int} {h : 0 < m} {h' : 0 < m'} (hs : s = s')
    (hm : m = m') (he : e = e') : UnpackedFloat.finite s m e h = .finite s' m' e' h' := by
  subst hs hm he
  rfl

section Fields
variable (w : BitVec 64)

/-- The sign field. -/
def signField : Sign := Sign.ofBitVec (@unpackSign Format.binary64 w)

/-- The exponent field. -/
def field : BitVec 11 := @unpackExponent Format.binary64 w

/-- The fraction field. -/
def fraction : BitVec 52 := @unpackMantissa Format.binary64 w

variable {w}

theorem unpack_normal (hzero : (field w).toNat ≠ 0) (hinf : (field w).toNat ≠ 2047) :
    UnpackedFloat.unpack Format.binary64 w =
      .finite (signField w) (2 ^ 52 + (fraction w).toNat) ((field w).toNat - 1075) (by omega) := by
  have hinf' : field w ≠ -1#11 := fun h => hinf (congrArg BitVec.toNat h)
  have hzero' : field w ≠ 0#11 := fun h => hzero (congrArg BitVec.toNat h)
  refine (if_neg hinf').trans ((if_neg hzero').trans (finite_congr rfl (toNat_implicit _) ?_))
  show ((field w).toNat : Int) - (1023 + 52) = _
  omega

theorem unpack_subnormal (hzero : field w = 0#11) (hv : 0 < (fraction w).toNat) :
    UnpackedFloat.unpack Format.binary64 w =
      .finite (signField w) (fraction w).toNat (-1074) hv := by
  have hinf : field w ≠ -1#11 := fun h => absurd (hzero.symm.trans h) (by decide)
  have hv' : fraction w ≠ 0#52 := fun h => hv.ne' (congrArg BitVec.toNat h)
  refine (if_neg hinf).trans ((if_pos hzero).trans ((dif_neg hv').trans (finite_congr rfl rfl ?_)))
  show ((field w).toNat : Int) - (1023 + 52) + 1 = _
  rw [hzero]
  rfl

theorem standard_unpack (x : Float.Model) : Standard x.unpack := by
  show Standard (UnpackedFloat.unpack Format.binary64 x.toBits.toBitVec)
  generalize x.toBits.toBitVec = w
  have hv : (fraction w).toNat < 2 ^ 52 := (fraction w).isLt
  have hx : (field w).toNat < 2 ^ 11 := (field w).isLt
  by_cases hinf : field w = -1#11
  · unfold UnpackedFloat.unpack
    refine (if_pos hinf).symm ▸ ?_
    split <;> trivial
  · by_cases hzero : field w = 0#11
    · rcases Nat.eq_zero_or_pos (fraction w).toNat with hv' | hv'
      · have heq : UnpackedFloat.unpack Format.binary64 w = .zero (signField w) :=
          (if_neg hinf).trans ((if_pos hzero).trans (dif_pos (BitVec.eq_of_toNat_eq hv')))
        rw [heq]
        trivial
      · rw [unpack_subnormal hzero hv']
        exact ⟨⟨hv.trans (by decide), by decide, .inr rfl⟩, by decide⟩
    · have hinf' : (field w).toNat ≠ 2047 := fun h => hinf (BitVec.eq_of_toNat_eq h)
      have hzero' : (field w).toNat ≠ 0 := fun h => hzero (BitVec.eq_of_toNat_eq h)
      rw [unpack_normal hzero' hinf']
      exact ⟨⟨by omega, by omega, .inl (Nat.le_add_right _ _)⟩, by omega⟩

end Fields

section Components
variable (s : Sign) (x : BitVec 11) (v : BitVec 52)

@[simp] theorem signField_packComponents : signField (packComponents Format.binary64 s x v) = s := by
  show Sign.ofBitVec (BitVec.extractLsb' 63 1 (s.toBitVec ++ x ++ v)) = s
  rw [BitVec.extractLsb'_append_eq_of_le (by omega), BitVec.extractLsb'_append_eq_of_le (by omega)]
  cases s <;> rfl

@[simp] theorem field_packComponents : field (packComponents Format.binary64 s x v) = x :=
  unpackExponent_packComponents

@[simp] theorem fraction_packComponents : fraction (packComponents Format.binary64 s x v) = v :=
  unpackMantissa_packComponents

end Components

theorem pack_finite {m : Nat} {e : Int} (s : Sign) (hm : 0 < m) :
    UnpackedFloat.pack Format.binary64 (.finite s m e hm) =
      if 2 ^ 11 ≤ (e + 1075).toNat + 1 then packedInfinity Format.binary64 s
      else if m.log2 + 1 = 53 then
        packComponents Format.binary64 s (BitVec.ofNat 11 (e + 1075).toNat) (BitVec.ofNat 52 m)
      else packComponents Format.binary64 s 0#11 (BitVec.ofNat 52 m) := by
  have hbias : e + 1075 = e + 1023 + 52 := by omega
  rw [hbias]
  rfl

/-- A finite number of the format comes back from its packed form. -/
theorem unpack_pack_finite {m : Nat} {e : Int} (s : Sign) (hm : 0 < m) (h : Placed m e)
    (he : e ≤ 971) : (Float.Model.pack (.finite s m e hm)).unpack = .finite s m e hm := by
  obtain ⟨hshort, hlow, hfull⟩ := h
  have hlog : m.log2 < 53 := (Nat.log2_lt hm.ne').2 hshort
  show UnpackedFloat.unpack Format.binary64 (UnpackedFloat.pack Format.binary64 _) = _
  rw [pack_finite, if_neg (by omega)]
  by_cases hnormal : 2 ^ 52 ≤ m
  · have hlog' : 52 ≤ m.log2 := (Nat.le_log2 hm.ne').2 hnormal
    rw [if_pos (by omega)]
    generalize hw : packComponents Format.binary64 s _ _ = w
    have hs : signField w = s := hw ▸ signField_packComponents s _ _
    have hx : (field w).toNat = (e + 1075).toNat := by
      rw [← hw, field_packComponents, BitVec.toNat_ofNat, Nat.mod_eq_of_lt (by omega)]
    have hv : (fraction w).toNat = m - 2 ^ 52 := by
      rw [← hw, fraction_packComponents, BitVec.toNat_ofNat]
      omega
    exact (unpack_normal (by omega) (by omega)).trans (finite_congr hs (by omega) (by omega))
  · have hlog' : m.log2 < 52 := (Nat.log2_lt hm.ne').2 (by omega)
    rw [if_neg (by omega)]
    generalize hw : packComponents Format.binary64 s _ _ = w
    have hs : signField w = s := hw ▸ signField_packComponents s _ _
    have hx : field w = 0#11 := hw ▸ field_packComponents s _ _
    have hv : (fraction w).toNat = m := by
      rw [← hw, fraction_packComponents, BitVec.toNat_ofNat, Nat.mod_eq_of_lt (by omega)]
    exact (unpack_subnormal hx (hv.symm ▸ hm)).trans
      (finite_congr hs hv (hfull.resolve_left hnormal).symm)

/-- A number beyond the greatest exponent is packed as infinite. -/
theorem unpack_pack_over {m : Nat} {e : Int} (s : Sign) (hm : 0 < m) (he : 971 < e) :
    (Float.Model.pack (.finite s m e hm)).unpack = .infinity s := by
  show UnpackedFloat.unpack Format.binary64 (UnpackedFloat.pack Format.binary64 _) = _
  rw [pack_finite, if_pos (by omega)]
  cases s <;> rfl

theorem unpack_pack {u : UnpackedFloat} (h : Standard u) : (Float.Model.pack u).unpack = u := by
  cases u with
  | notANumber => rfl
  | infinity s => cases s <;> rfl
  | zero s => cases s <;> rfl
  | finite s m e hm => exact unpack_pack_finite s hm h.1 h.2

/-! ## Worth -/

/-- The count of a finite number, in units of the least double. -/
def size (m : Nat) (e : Int) : Nat := m * 2 ^ (e + 1074).toNat

/-- The size that comes after those of the finite doubles. -/
@[irreducible] def beyond : Nat := size (2 ^ 53) 971

/-- The signed size of a number. -/
def worth : UnpackedFloat → Int
  | .infinity s => s.apply beyond
  | .finite s m e _ => s.apply (size m e)
  | _ => 0

theorem size_lt {m m' : Nat} (h : m < m') (e : Int) : size m e < size m' e :=
  Nat.mul_lt_mul_of_pos_right h (Nat.two_pow_pos _)

theorem size_le {m m' : Nat} {e e' : Int} (h : m ≤ m') (he : e ≤ e') : size m e ≤ size m' e' :=
  Nat.mul_le_mul h (Nat.pow_le_pow_right (by decide) (by omega))

theorem size_pos {m : Nat} (hm : 0 < m) (e : Int) : 0 < size m e :=
  Nat.mul_pos hm (Nat.two_pow_pos _)

theorem size_carry {e : Int} (he : -1074 ≤ e) : size (2 ^ 53) e = size (2 ^ 52) (e + 1) := by
  obtain ⟨j, rfl⟩ : ∃ j : Nat, e = j - 1074 := ⟨(e + 1074).toNat, by omega⟩
  have hj : ((j : Int) - 1074 + 1 + 1074).toNat = j + 1 := by omega
  rw [size, size, hj, Int.sub_add_cancel, Int.toNat_natCast, ← Nat.pow_add, ← Nat.pow_add]
  congr 1
  omega

theorem size_lt_beyond {m : Nat} {e : Int} (h : Placed m e) (he : e ≤ 971) : size m e < beyond := by
  unfold beyond
  exact (size_lt h.short e).trans_le (size_le (Nat.le_refl _) he)

theorem beyond_le_size {m : Nat} {e : Int} (h : Placed m e) (he : 971 < e) : beyond ≤ size m e := by
  have hfull : 2 ^ 52 ≤ m := h.full.resolve_right (by omega)
  have hnext : (971 : Int) + 1 ≤ e := he
  unfold beyond
  rw [size_carry (by decide)]
  exact size_le hfull hnext

/-- A greater exponent makes the greater number, whatever the mantissas. -/
theorem size_lt_of_lt {m m' : Nat} {e e' : Int} (h : Placed m e) (h' : Placed m' e') (he : e < e') :
    size m e < size m' e' := by
  have hlow := h.low
  refine (size_lt h.short e).trans_le ?_
  rw [size_carry hlow]
  exact size_le (h'.full.resolve_right (by omega)) he

theorem compare_size {m m' : Nat} {e e' : Int} (h : Placed m e) (h' : Placed m' e') :
    (compare e e').then (compare m m') = compare (size m e) (size m' e') := by
  rcases Int.lt_trichotomy e e' with he | rfl | he
  · rw [compare_lt_iff_lt.2 he, compare_lt_iff_lt.2 (size_lt_of_lt h h' he)]
    rfl
  · rw [compare_eq_iff_eq.2 rfl]
    rcases Nat.lt_trichotomy m m' with hm | rfl | hm
    · rw [compare_lt_iff_lt.2 hm, compare_lt_iff_lt.2 (size_lt hm e)]
      rfl
    · rw [compare_eq_iff_eq.2 rfl, compare_eq_iff_eq.2 rfl]
      rfl
    · rw [compare_gt_iff_gt.2 hm, compare_gt_iff_gt.2 (size_lt hm e)]
      rfl
  · rw [compare_gt_iff_gt.2 he, compare_gt_iff_gt.2 (size_lt_of_lt h' h he)]
    rfl

@[simp] theorem worth_zero (s : Sign) : worth (.zero s) = 0 := rfl

@[simp] theorem worth_infinity_positive : worth (.infinity .positive) = beyond := rfl

@[simp] theorem worth_infinity_negative : worth (.infinity .negative) = -beyond := rfl

section Finite
variable {m : Nat} {e : Int} (hm : 0 < m)

@[simp] theorem worth_finite_positive : worth (.finite .positive m e hm) = size m e := rfl

@[simp] theorem worth_finite_negative : worth (.finite .negative m e hm) = -size m e := rfl

end Finite

theorem beyond_pos : 0 < beyond := by
  unfold beyond
  exact size_pos (by decide) _

theorem abs_worth_lt {u : UnpackedFloat} (h : Standard u) (hu : u.isFinite = true) :
    -(beyond : Int) < worth u ∧ worth u < beyond := by
  have hbeyond := beyond_pos
  cases u with
  | notANumber => cases hu
  | infinity s => cases hu
  | zero s => rw [worth_zero]; omega
  | finite s m e hm =>
    have hlt := size_lt_beyond h.1 h.2
    cases s with
    | negative => rw [worth_finite_negative]; omega
    | positive => rw [worth_finite_positive]; omega

section Compare
variable {u v : UnpackedFloat}

theorem isFinite_or_infinity (h : u ≠ .notANumber) : u.isFinite = true ∨ ∃ s, u = .infinity s := by
  cases u with
  | notANumber => exact absurd rfl h
  | infinity s => exact .inr ⟨s, rfl⟩
  | zero s => exact .inl rfl
  | finite s m e hm => exact .inl rfl

theorem compare_infinity_left (s : Sign) (hv : Standard v) (hfinite : v.isFinite = true) :
    (UnpackedFloat.infinity s).compare v = some (compare (worth (.infinity s)) (worth v)) := by
  obtain ⟨hlow, hhigh⟩ := abs_worth_lt hv hfinite
  cases s with
  | negative =>
    rw [worth_infinity_negative, compare_lt_iff_lt.2 hlow]
    cases v <;> first | rfl | cases hfinite
  | positive =>
    rw [worth_infinity_positive, compare_gt_iff_gt.2 hhigh]
    cases v <;> first | rfl | cases hfinite

theorem compare_infinity_right (s : Sign) (hu : Standard u) (hfinite : u.isFinite = true) :
    u.compare (.infinity s) = some (compare (worth u) (worth (.infinity s))) := by
  obtain ⟨hlow, hhigh⟩ := abs_worth_lt hu hfinite
  cases s with
  | negative =>
    rw [worth_infinity_negative, compare_gt_iff_gt.2 hlow]
    cases u with
    | finite t => cases t <;> rfl
    | _ => first | rfl | cases hfinite
  | positive =>
    rw [worth_infinity_positive, compare_lt_iff_lt.2 hhigh]
    cases u with
    | finite t => cases t <;> rfl
    | _ => first | rfl | cases hfinite

theorem compare_infinities (s t : Sign) :
    (UnpackedFloat.infinity s).compare (.infinity t) =
      some (compare (worth (.infinity s)) (worth (.infinity t))) := by
  have hbeyond := beyond_pos
  cases s with
  | negative =>
    cases t with
    | negative => rw [compare_eq_iff_eq.2 rfl]; rfl
    | positive =>
      rw [worth_infinity_negative, worth_infinity_positive, compare_lt_iff_lt.2 (by omega)]
      rfl
  | positive =>
    cases t with
    | negative =>
      rw [worth_infinity_negative, worth_infinity_positive, compare_gt_iff_gt.2 (by omega)]
      rfl
    | positive => rw [compare_eq_iff_eq.2 rfl]; rfl

theorem compare_natCast (a b : Nat) : compare (a : Int) b = compare a b := by
  rcases Nat.lt_trichotomy a b with h | rfl | h
  · rw [compare_lt_iff_lt.2 h, compare_lt_iff_lt.2 (Int.ofNat_lt.2 h)]
  · rw [compare_eq_iff_eq.2 rfl, compare_eq_iff_eq.2 rfl]
  · rw [compare_gt_iff_gt.2 h, compare_gt_iff_gt.2 (Int.ofNat_lt.2 h)]

theorem compare_neg_natCast (a b : Nat) : compare (-(a : Int)) (-b) = (compare a b).swap := by
  rcases Nat.lt_trichotomy a b with h | rfl | h
  · rw [compare_lt_iff_lt.2 h, compare_gt_iff_gt.2 (by omega)]
    rfl
  · rw [compare_eq_iff_eq.2 rfl, compare_eq_iff_eq.2 rfl]
    rfl
  · rw [compare_gt_iff_gt.2 h, compare_lt_iff_lt.2 (by omega)]
    rfl

theorem compare_finite (hu : Standard u) (hv : Standard v) (hu' : u.isFinite = true)
    (hv' : v.isFinite = true) : u.compare v = some (compare (worth u) (worth v)) := by
  cases u with
  | notANumber => cases hu'
  | infinity s => cases hu'
  | zero s =>
    cases v with
    | notANumber => cases hv'
    | infinity t => cases hv'
    | zero t => rfl
    | finite t m e hm =>
      have hpos := size_pos hm e
      cases t with
      | negative => rw [worth_zero, worth_finite_negative, compare_gt_iff_gt.2 (by omega)]; rfl
      | positive => rw [worth_zero, worth_finite_positive, compare_lt_iff_lt.2 (by omega)]; rfl
  | finite s m e hm =>
    have hpos := size_pos hm e
    cases v with
    | notANumber => cases hv'
    | infinity t => cases hv'
    | zero t =>
      cases s with
      | negative => rw [worth_zero, worth_finite_negative, compare_lt_iff_lt.2 (by omega)]; rfl
      | positive => rw [worth_zero, worth_finite_positive, compare_gt_iff_gt.2 (by omega)]; rfl
    | finite t m' e' hm' =>
      have hpos' := size_pos hm' e'
      cases s with
      | negative =>
        cases t with
        | negative =>
          rw [worth_finite_negative, worth_finite_negative, compare_neg_natCast,
            ← compare_size hu.1 hv.1]
          rfl
        | positive =>
          rw [worth_finite_negative, worth_finite_positive, compare_lt_iff_lt.2 (by omega)]
          rfl
      | positive =>
        cases t with
        | negative =>
          rw [worth_finite_negative, worth_finite_positive, compare_gt_iff_gt.2 (by omega)]
          rfl
        | positive =>
          rw [worth_finite_positive, worth_finite_positive, compare_natCast,
            ← compare_size hu.1 hv.1]
          rfl

/-- Comparing unpacked numbers is comparing what they are worth. -/
theorem compare_eq (hu : Standard u) (hv : Standard v) (hu' : u ≠ .notANumber)
    (hv' : v ≠ .notANumber) : u.compare v = some (compare (worth u) (worth v)) := by
  rcases isFinite_or_infinity hu' with hfinite | ⟨s, rfl⟩
  · rcases isFinite_or_infinity hv' with hfinite' | ⟨t, rfl⟩
    · exact compare_finite hu hv hfinite hfinite'
    · exact compare_infinity_right t hu hfinite
  · rcases isFinite_or_infinity hv' with hfinite' | ⟨t, rfl⟩
    · exact compare_infinity_left s hv hfinite'
    · exact compare_infinities s t

theorem compare_eq_none (h : u = .notANumber ∨ v = .notANumber) : u.compare v = none := by
  rcases h with rfl | rfl
  · rfl
  · cases u <;> rfl

/-- What holds of the comparison holds of what two numbers are worth, if both are there. -/
theorem any_compare_iff (hu : Standard u) (hv : Standard v) {p : Ordering → Bool} {R : Int → Int → Prop}
    (hp : ∀ i j : Int, p (compare i j) = true ↔ R i j) :
    (u.compare v).any p = true ↔ u ≠ .notANumber ∧ v ≠ .notANumber ∧ R (worth u) (worth v) := by
  by_cases h : u = .notANumber ∨ v = .notANumber
  · rw [compare_eq_none h]
    exact iff_of_false Bool.false_ne_true fun ⟨hu', hv', _⟩ => h.elim hu' hv'
  · obtain ⟨hu', hv'⟩ := not_or.1 h
    rw [compare_eq hu hv hu' hv', Option.any_some, hp, and_iff_right hu', and_iff_right hv']

end Compare

/-! ## Comparing doubles -/

/-- A double, taken apart. -/
def parts (x : Float) : UnpackedFloat := x.toModel.unpack

section Floats
variable {x y : Float}

theorem beq_some_eq_any (o : Option Ordering) (a : Ordering) : (o == some a) = o.any (· == a) := by
  cases o <;> rfl

theorem le_iff : x ≤ y ↔
    parts x ≠ .notANumber ∧ parts y ≠ .notANumber ∧ worth (parts x) ≤ worth (parts y) :=
  decide_eq_true_iff.trans
    (any_compare_iff (standard_unpack x.toModel) (standard_unpack y.toModel) fun _ _ => Int.isLE_compare)

theorem lt_iff : x < y ↔
    parts x ≠ .notANumber ∧ parts y ≠ .notANumber ∧ worth (parts x) < worth (parts y) := by
  have hcompare : x < y ↔ ((parts x).compare (parts y)).any (· == .lt) = true := by
    rw [← beq_some_eq_any]
    exact decide_eq_true_iff
  rw [hcompare]
  refine any_compare_iff (standard_unpack x.toModel) (standard_unpack y.toModel) fun i j => ?_
  rw [beq_iff_eq, compare_lt_iff_lt]

theorem beq_iff : (x == y) = true ↔
    parts x ≠ .notANumber ∧ parts y ≠ .notANumber ∧ worth (parts x) = worth (parts y) := by
  have hcompare : (x == y) = true ↔ ((parts x).compare (parts y)).any (· == .eq) = true := by
    rw [← beq_some_eq_any]
    rfl
  rw [hcompare]
  refine any_compare_iff (standard_unpack x.toModel) (standard_unpack y.toModel) fun i j => ?_
  rw [beq_iff_eq, compare_eq_iff_eq]

end Floats

end Cashflow.Doubles

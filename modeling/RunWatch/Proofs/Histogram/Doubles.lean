import Mathlib
import RunWatch.Proofs.Histogram.Counting
namespace RunWatch.Doubles
open Float.Model Float.Model.UnpackedFloat
open Histogram (Axis)

def parts (f : Float) : UnpackedFloat := f.toModel.unpack

def wholeSize (mantissa : Nat) (exponent : Int) : Nat :=
  mantissa * 2 ^ exponent.toNat / 2 ^ (-exponent).toNat

-- A mantissa has 53 bits, and unless the exponent is the least the first of them is set.
structure Canonical (mantissa : Nat) (exponent : Int) : Prop where
  fits : mantissa < 2 ^ 53
  least : -1074 ≤ exponent
  leads : 2 ^ 52 ≤ mantissa ∨ exponent = -1074

theorem leading_bit (rest : BitVec 52) : (1#1 ++ rest).toNat = 2 ^ 52 + rest.toNat := by
  rw [BitVec.toNat_append,←Nat.shiftLeft_add_eq_or_of_lt rest.isLt]
  rfl

theorem parts_canonical {f : Float} (finite : parts f = .finite sign mantissa exponent positive) :
    Canonical mantissa exponent := by
  have bias : (Format.binary64.exponentBias : Int) = 1023 := rfl
  have small : (@unpackMantissa Format.binary64 f.toModel.toBits.toBitVec).toNat < 2 ^ 52 := BitVec.isLt _
  unfold parts Float.Model.unpack UnpackedFloat.unpack at finite
  simp only [bias] at finite
  split at finite
  · split at finite <;> cases finite
  · split at finite
    · rename_i lowest
      split at finite
      · cases finite
      · injection finite with _ bits power
        rw [lowest] at power
        have least : exponent = -1074 := power.symm
        exact ⟨by omega,by omega,Or.inr least⟩
    · rename_i raised
      injection finite with _ bits power
      have lead := bits.symm.trans (leading_bit _)
      have above : 0 < (@unpackExponent Format.binary64 f.toModel.toBits.toBitVec).toNat :=
        Nat.pos_of_ne_zero fun none => raised (BitVec.eq_of_toNat_eq none)
      exact ⟨by omega,by omega,Or.inl (by omega)⟩

theorem shift_mantissa (m : ExtendedMantissa) (n : Nat) : (m >>> n).mantissa = m.mantissa / 2 ^ n := by
  induction n with
  | zero => simp [HShiftRight.hShiftRight,Nat.repeat]
  | succ n ih =>
    change (m >>> n).mantissa / 2 = _
    rw [ih,Nat.div_div_eq_div_mul,Nat.pow_succ]

theorem shift_exact (mantissa n : Nat) :
    (⟨mantissa * 2 ^ n,false,false⟩ : ExtendedMantissa) >>> n = ⟨mantissa,false,false⟩ := by
  induction n generalizing mantissa with
  | zero => simp [HShiftRight.hShiftRight,Nat.repeat]
  | succ n ih =>
    change ((⟨mantissa * 2 ^ (n + 1),false,false⟩ : ExtendedMantissa) >>> n).shiftRightOne = _
    rw [Nat.pow_succ',←Nat.mul_assoc,ih]
    simp [ExtendedMantissa.shiftRightOne]

theorem roundToInt_eq (sign : Sign) (mantissa : Nat) (exponent : Int) :
    roundToInt sign mantissa exponent = sign.apply (wholeSize mantissa exponent) := by
  have shift : (0 - (exponent - exponent.toNat)).toNat = (-exponent).toNat := by omega
  simp only [roundToInt,decreaseExponent,shiftToExponent,ExtendedMantissa.ofMantissaAndAccuracy,
    shift_mantissa,Nat.shiftLeft_eq,Int.sub_zero,shift,wholeSize]

def size : UnpackedFloat → Nat
  | .finite .positive mantissa exponent _ => min (wholeSize mantissa exponent) (2 ^ 64 - 1)
  | .infinity .positive => 2 ^ 64 - 1
  | _ => 0

theorem clamp_toNat (n : Nat) : (UInt64.ofNatClamp n).toNat = min n (2 ^ 64 - 1) := by
  have size : UInt64.size = 2 ^ 64 := rfl
  unfold UInt64.ofNatClamp
  split <;> rw [UInt64.toNat_ofNatLT] <;> omega

theorem whole_eq (f : Float) : Axis.whole f = size (parts f) := by
  change (UInt64.ofNatClamp ((parts f).toInt 0 (2 ^ 64 - 1)).toNat).toNat = _
  rw [clamp_toNat]
  cases parts f with
  | notANumber => rfl
  | zero sign => rfl
  | infinity sign => cases sign <;> rfl
  | finite sign mantissa exponent positive =>
    rw [UnpackedFloat.toInt,roundToInt_eq]
    cases sign with
    | positive => rfl
    | negative =>
      have below : (-(wholeSize mantissa exponent : Int)).toNat = 0 := by omega
      simp [Sign.apply,below,size]

theorem wholeSize_le {mantissa other : Nat} {exponent above : Int}
    (below : mantissa * 2 ^ (exponent.toNat + (-above).toNat) ≤ other * 2 ^ (above.toNat + (-exponent).toNat)) :
    wholeSize mantissa exponent ≤ wholeSize other above := by
  unfold wholeSize
  rw [Nat.pow_add,Nat.pow_add,←Nat.mul_assoc,←Nat.mul_assoc] at below
  apply (Nat.le_div_iff_mul_le (Nat.two_pow_pos _)).mpr
  apply Nat.le_of_mul_le_mul_right _ (Nat.two_pow_pos (-exponent).toNat)
  calc mantissa * 2 ^ exponent.toNat / 2 ^ (-exponent).toNat * 2 ^ (-above).toNat * 2 ^ (-exponent).toNat
      = mantissa * 2 ^ exponent.toNat / 2 ^ (-exponent).toNat * 2 ^ (-exponent).toNat * 2 ^ (-above).toNat :=
        Nat.mul_right_comm _ _ _
    _ ≤ mantissa * 2 ^ exponent.toNat * 2 ^ (-above).toNat := Nat.mul_le_mul_right _ (Nat.div_mul_le_self _ _)
    _ ≤ other * 2 ^ above.toNat * 2 ^ (-exponent).toNat := below

-- The exponents decide, since a leading bit outweighs all bits of a smaller exponent.
theorem wholeSize_mono {mantissa other : Nat} {exponent above : Int} (canonical : Canonical mantissa exponent)
    (canonicalAbove : Canonical other above)
    (below : exponent < above ∨ exponent = above ∧ mantissa ≤ other) :
    wholeSize mantissa exponent ≤ wholeSize other above := by
  apply wholeSize_le
  rcases below with lower | ⟨rfl,smaller⟩
  · have double : mantissa ≤ other * 2 := by
      have fits := canonical.fits
      have leads := canonicalAbove.leads
      have least := canonical.least
      omega
    have wider : exponent.toNat + (-above).toNat + 1 ≤ above.toNat + (-exponent).toNat := by omega
    calc mantissa * 2 ^ (exponent.toNat + (-above).toNat)
        ≤ other * 2 * 2 ^ (exponent.toNat + (-above).toNat) := Nat.mul_le_mul_right _ double
      _ = other * 2 ^ (exponent.toNat + (-above).toNat + 1) := by rw [Nat.pow_succ',Nat.mul_assoc]
      _ ≤ other * 2 ^ (above.toNat + (-exponent).toNat) :=
        Nat.mul_le_mul_left _ (Nat.pow_le_pow_right (by decide) wider)
  · exact Nat.mul_le_mul_right _ smaller

theorem not_compare_lt {m n : Nat} {e k : Int} (order : (compare k e).then (compare n m) ≠ .lt) :
    e < k ∨ e = k ∧ m ≤ n := by
  simp only [ne_eq,Ordering.then_eq_lt,Int.compare_eq_lt,Int.compare_eq_eq,Nat.compare_eq_lt] at order
  omega

theorem size_mono {u v : UnpackedFloat} (canonical : ∀ s m e p, u = .finite s m e p → Canonical m e)
    (canonicalAbove : ∀ s m e p, v = .finite s m e p → Canonical m e)
    (defined : v.isNaN = false) (order : v.compare u ≠ some .lt) : size u ≤ size v := by
  match u with
  | .notANumber | .zero _ | .infinity .negative | .finite .negative .. => exact Nat.zero_le _
  | .infinity .positive =>
    match v with
    | .infinity .positive => exact Nat.le_refl _
    | .infinity .negative | .zero _ | .finite .. => exact absurd rfl order
    | .notANumber => cases defined
  | .finite .positive m e _ =>
    match v with
    | .infinity .positive => exact Nat.min_le_right _ _
    | .infinity .negative | .zero _ | .finite .negative .. => exact absurd rfl order
    | .notANumber => cases defined
    | .finite .positive n k _ =>
      have below := not_compare_lt fun same => order (congrArg some same)
      have larger := wholeSize_mono (canonical _ _ _ _ rfl) (canonicalAbove _ _ _ _ rfl) below
      simp only [size]
      omega

theorem less_iff (f g : Float) : Axis.less f g = true ↔ (parts f).compare (parts g) = some .lt := by
  have chain : Axis.less f g = decide (decide (((parts f).compare (parts g) == some .lt) = true) = true) := rfl
  rw [chain,decide_eq_true_iff,decide_eq_true_iff,beq_iff_eq]

theorem whole_mono {f g : Float} (defined : g.isNaN = false) (order : Axis.less g f = false) :
    Axis.whole f ≤ Axis.whole g := by
  rw [whole_eq,whole_eq]
  refine size_mono (fun _ _ _ _ => parts_canonical) (fun _ _ _ _ => parts_canonical) defined ?_
  intro above
  rw [(less_iff g f).mpr above] at order
  cases order

structure Normal (mantissa : Nat) (exponent : Int) : Prop where
  leads : 2 ^ 52 ≤ mantissa
  fits : mantissa < 2 ^ 53
  least : -1074 ≤ exponent
  most : exponent ≤ 971

theorem Normal.positive (normal : Normal mantissa exponent) : 0 < mantissa :=
  Nat.lt_of_lt_of_le (Nat.two_pow_pos 52) normal.leads

theorem Normal.log2 (normal : Normal mantissa exponent) (n : Nat) : (mantissa * 2 ^ n).log2 = 52 + n := by
  have leads := Nat.mul_le_mul_right (2 ^ n) normal.leads
  have fits := Nat.mul_lt_mul_of_pos_right normal.fits (Nat.two_pow_pos n)
  rw [←Nat.pow_add] at leads fits
  have some : mantissa * 2 ^ n ≠ 0 := Nat.ne_of_gt (Nat.mul_pos normal.positive (Nat.two_pow_pos n))
  refine (Nat.log2_eq_iff some).mpr ⟨leads,?_⟩
  rwa [Nat.add_right_comm]

theorem Normal.shift (normal : Normal mantissa exponent) (n : Nat) :
    shiftToTargetExponent Format.binary64 (mantissa * 2 ^ n) (exponent - n) .exact =
      (⟨mantissa,false,false⟩,exponent) := by
  have least := normal.least
  have min : Format.binary64.minExponent = -1074 := rfl
  have bits : (Format.binary64.mantissaBits : Int) = 53 := rfl
  have target : Format.binary64.targetExponent (totalExponent (mantissa * 2 ^ n) (exponent - n)) = exponent := by
    rw [Format.targetExponent,totalExponent,normal.log2,min,bits]
    omega
  have amount : (exponent - (exponent - n)).toNat = n := by omega
  rw [shiftToTargetExponent,target,shiftToExponent,amount,ExtendedMantissa.ofMantissaAndAccuracy]
  simp only [shift_exact,Int.sub_add_cancel]

theorem Normal.rounded (normal : Normal mantissa exponent) (sign : Sign) (n : Nat) :
    roundWithAccuracy Format.binary64 sign (mantissa * 2 ^ n) (exponent - n) .exact =
      .finite sign mantissa exponent normal.positive := by
  have again := normal.shift 0
  simp only [Nat.pow_zero,Nat.mul_one,Int.natCast_zero,Int.sub_zero] at again
  simp only [roundWithAccuracy,normal.shift,ExtendedMantissa.roundedMantissa,ExtendedMantissa.accuracy,
    Accuracy.roundToNearestEven,again,Nat.ne_of_gt normal.positive,dite_false]

theorem unpack_packComponents {power : BitVec 11} (bounded : power ≠ -1#11) (raised : power ≠ 0#11)
    (bits : BitVec 52) :
    UnpackedFloat.unpack Format.binary64 (packComponents Format.binary64 .positive power bits) =
      .finite .positive (2 ^ 52 + bits.toNat) (power.toNat - 1075) (by omega) := by
  unfold UnpackedFloat.unpack
  simp only [unpackExponent_packComponents,unpackMantissa_packComponents,unpackSign_packComponents,
    bounded,raised,if_false,leading_bit]
  rfl

theorem Normal.pack (normal : Normal mantissa exponent) :
    UnpackedFloat.pack Format.binary64 (.finite .positive mantissa exponent normal.positive) =
      packComponents Format.binary64 .positive (BitVec.ofNat 11 (exponent + 1075).toNat) (BitVec.ofNat 52 mantissa) := by
  have least := normal.least
  have most := normal.most
  have bias : (Format.binary64.exponentBias : Int) = 1023 := rfl
  have stored : exponent + (Format.binary64.exponentBias : Int) + (52 : Nat) = exponent + 1075 := by omega
  have room : ¬ 2 ^ 11 ≤ (exponent + 1075).toNat + 1 := by omega
  have bits : mantissa.log2 + 1 = Format.binary64.mantissaBits := by
    have log2 := normal.log2 0
    rw [Nat.pow_zero,Nat.mul_one] at log2
    rw [log2]
    rfl
  simp only [UnpackedFloat.pack,stored,room,bits,if_false,if_true]

theorem Normal.unpack_pack (normal : Normal mantissa exponent) :
    (Float.Model.pack (.finite .positive mantissa exponent normal.positive)).unpack =
      .finite .positive mantissa exponent normal.positive := by
  have leads := normal.leads
  have fits := normal.fits
  have least := normal.least
  have most := normal.most
  have power : (BitVec.ofNat 11 (exponent + 1075).toNat).toNat = (exponent + 1075).toNat := by
    rw [BitVec.toNat_ofNat]
    exact Nat.mod_eq_of_lt (by omega)
  have top : (-1#11 : BitVec 11).toNat = 2047 := rfl
  have zero : (0#11 : BitVec 11).toNat = 0 := rfl
  have bounded : BitVec.ofNat 11 (exponent + 1075).toNat ≠ -1#11 := fun same => by
    rw [same] at power
    omega
  have raised : BitVec.ofNat 11 (exponent + 1075).toNat ≠ 0#11 := fun same => by
    rw [same] at power
    omega
  change UnpackedFloat.unpack Format.binary64 (UnpackedFloat.pack Format.binary64 _) = _
  rw [normal.pack,unpack_packComponents bounded raised]
  simp only [UnpackedFloat.finite.injEq,BitVec.toNat_ofNat,true_and]
  omega

section
variable {n : Nat} (positive : 0 < n) (fits : n < 2 ^ 53)
include positive fits

-- A count of at most 53 bits, moved to the left until its first bit leads.
theorem normal_count : Normal (n * 2 ^ (52 - n.log2)) (n.log2 - 52) := by
  have some : n ≠ 0 := Nat.ne_of_gt positive
  have bits : n.log2 < 53 := (Nat.log2_lt some).mpr fits
  have leads := Nat.mul_le_mul_right (2 ^ (52 - n.log2)) (Nat.log2_self_le some)
  have below := Nat.mul_lt_mul_of_pos_right (Nat.lt_log2_self (n := n)) (Nat.two_pow_pos (52 - n.log2))
  rw [←Nat.pow_add] at leads below
  have first : n.log2 + (52 - n.log2) = 52 := by omega
  have last : n.log2 + 1 + (52 - n.log2) = 53 := by omega
  rw [first] at leads
  rw [last] at below
  exact ⟨leads,below,by omega,by omega⟩

theorem round_count : UnpackedFloat.normalize Format.binary64 n 0 .positive =
    .finite .positive (n * 2 ^ (52 - n.log2)) (n.log2 - 52) (normal_count positive fits).positive := by
  have bits : n.log2 < 53 := (Nat.log2_lt (Nat.ne_of_gt positive)).mpr fits
  have min : Format.binary64.minExponent = -1074 := rfl
  have length : (Format.binary64.mantissaBits : Int) = 53 := rfl
  have target : Format.binary64.targetExponent (totalExponent n 0) = n.log2 - 52 := by
    rw [Format.targetExponent,totalExponent,min,length]
    omega
  have amount : (0 - ((n.log2 : Int) - 52)).toNat = 52 - n.log2 := by omega
  have moved : (0 : Int) - (52 - n.log2 : Nat) = n.log2 - 52 := by omega
  have rounded := (normal_count positive fits).rounded .positive 0
  simp only [Nat.pow_zero,Nat.mul_one,Int.natCast_zero,Int.sub_zero] at rounded
  have above : compare (n : Int) 0 = .gt := Int.compare_eq_gt.mpr (by omega)
  simp only [UnpackedFloat.normalize,above,Int.toNat_natCast,UnpackedFloat.round,target,decreaseExponent,amount,
    moved,Nat.shiftLeft_eq,rounded]

theorem parts_ofNat : parts (Float.ofNat n) =
    .finite .positive (n * 2 ^ (52 - n.log2)) (n.log2 - 52) (normal_count positive fits).positive := by
  have normal := normal_count positive fits
  have product : Float.ofNat n = n.toUInt64.toFloat * 1.0 := by
    change Float.ofScientific n false 0 = _
    rw [Float.ofScientific,dif_pos ⟨fits,by decide⟩]
    rfl
  have word : n.toUInt64.toNat = n := Nat.mod_eq_of_lt (Nat.lt_trans fits (by decide))
  have count : n.toUInt64.toFloat.toModel =
      Float.Model.pack (UnpackedFloat.normalize Format.binary64 n.toUInt64.toNat 0 .positive) := rfl
  have one : (1.0 : Float).toModel.unpack = .finite .positive (2 ^ 52) (-52) (by decide) := by rfl
  rw [product]
  change (Float.Model.pack (UnpackedFloat.mul Format.binary64 n.toUInt64.toFloat.toModel.unpack
    (1.0 : Float).toModel.unpack)).unpack = _
  rw [count,word,round_count positive fits,normal.unpack_pack,one]
  have rounded : UnpackedFloat.mul Format.binary64
      (.finite .positive (n * 2 ^ (52 - n.log2)) (n.log2 - 52) normal.positive)
      (.finite .positive (2 ^ 52) (-52) (Nat.two_pow_pos 52)) = .finite .positive _ _ normal.positive :=
    normal.rounded .positive 52
  rw [rounded,normal.unpack_pack]

theorem whole_ofNat_pos : Axis.whole (Float.ofNat n) = n := by
  have bits : n.log2 < 53 := (Nat.log2_lt (Nat.ne_of_gt positive)).mpr fits
  have low : ((n.log2 : Int) - 52).toNat = 0 := by omega
  have back : (-((n.log2 : Int) - 52)).toNat = 52 - n.log2 := by omega
  rw [whole_eq,parts_ofNat positive fits,size,wholeSize,low,back,Nat.pow_zero,Nat.mul_one,
    Nat.mul_div_cancel _ (Nat.two_pow_pos _)]
  omega

end

theorem whole_ofNat {n : Nat} (fits : n < 2 ^ 53) : Axis.whole (Float.ofNat n) = n := by
  rcases Nat.eq_zero_or_pos n with rfl | positive
  · decide
  · exact whole_ofNat_pos positive fits

theorem ofNat_isNaN {n : Nat} (fits : n < 2 ^ 53) : (Float.ofNat n).isNaN = false := by
  change (parts (Float.ofNat n)).isNaN = false
  rcases Nat.eq_zero_or_pos n with rfl | positive
  · decide
  · rw [parts_ofNat positive fits]
    rfl

theorem finite_isNaN {f : Float} (finite : f.isFinite = true) : f.isNaN = false := by
  change (parts f).isFinite = true at finite
  change (parts f).isNaN = false
  cases h : parts f <;> rw [h] at finite
  · rfl
  · cases finite
  · rfl
  · rfl

instance : Histogram.WholeNumbers Float where
  whole_ofNat _ few := whole_ofNat (Nat.lt_of_le_of_lt few (by decide))
  ofNat_defined _ few := ofNat_isNaN (Nat.lt_of_le_of_lt few (by decide))
  finite_defined _ := finite_isNaN
  whole_mono _ _ := whole_mono

end RunWatch.Doubles

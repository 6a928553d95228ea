import Mathlib.Data.Rat.Cast.Order
import Mathlib.Tactic.FieldSimp
import Mathlib.Tactic.Ring
import SqlTemplate.Value.Wire

/-!
# Integers as parameters

What the receiver of a parameter reads in its bytes: an integer in two's complement, or
a floating point number. An integer is read as itself wherever it is encoded at all, and
where it is not there are no bytes (`encode_int_exact`). The integers up to the precision
of a format are numbers of it, so that the nearest one is the integer itself.
-/

namespace SqlTemplate

/-! ## Bytes -/

namespace Text

theorem bigEndian_succ (width n : Nat) :
    bigEndian (width + 1) n = UInt8.ofNat (n / 256 ^ width) :: bigEndian width n := by
  simp [bigEndian, List.range_succ]

@[simp] theorem length_bigEndian (width n : Nat) : (bigEndian width n).length = width := by
  simp [bigEndian]

theorem foldl_bigEndian (width n start : Nat) :
    (bigEndian width n).foldl (fun n b => 256 * n + b.toNat) start =
      start * 256 ^ width + n % 256 ^ width := by
  induction width generalizing start with
  | zero => simp [bigEndian, Nat.mod_one]
  | succ width ih =>
      have hmod : n % 256 ^ (width + 1) =
          256 ^ width * (n / 256 ^ width % 256) + n % 256 ^ width := by
        rw [Nat.pow_succ, Nat.mod_mul, Nat.add_comm]
      rw [bigEndian_succ, List.foldl_cons, ih, hmod, UInt8.toNat_ofNat']
      ring

/-- The bytes of a number are read as the number, up to what fits them. -/
theorem ofBigEndian_bigEndian (width n : Nat) :
    ofBigEndian (bigEndian width n) = n % 2 ^ (8 * width) := by
  rw [ofBigEndian, foldl_bigEndian, Nat.zero_mul, Nat.zero_add, Nat.pow_mul]

/-- The bits that bytes spell, the highest first. -/
def bitsOfBytes (width : Nat) (bytes : List UInt8) : BitVec width :=
  BitVec.ofNat width (ofBigEndian bytes)

end Text

namespace Value

theorem bitsOfBytes_integerBytes (width : Nat) (n : Int) :
    Text.bitsOfBytes (8 * width) (integerBytes width n) = BitVec.ofInt (8 * width) n := by
  have hpow : Nat.pow 256 width = 2 ^ (8 * width) := by rw [Nat.pow_eq, Nat.pow_mul]
  have hpos : (0 : Int) < (2 ^ (8 * width) : Nat) := Int.natCast_pos.mpr (Nat.two_pow_pos _)
  have hlt := Int.emod_lt_of_pos n hpos
  have hnonneg := Int.emod_nonneg n (ne_of_gt hpos)
  apply BitVec.eq_of_toNat_eq
  rw [integerBytes, Text.bitsOfBytes, Text.ofBigEndian_bigEndian, BitVec.toNat_ofNat, Nat.mod_mod,
    BitVec.toNat_ofInt, hpow, Nat.mod_eq_of_lt (by omega)]

end Value

/-! ## Floating point numbers -/

namespace Number

@[simp] theorem roundDiv_mul (q : Nat) {d : Nat} (h : 0 < d) : roundDiv (q * d) d = q := by
  simp [roundDiv, h]

theorem log2Ratio_one {n : Nat} (h : n ≠ 0) : log2Ratio n 1 = n.log2 := by
  have hone : Nat.log2 1 = 0 := rfl
  have hle : ¬ n < 2 ^ n.log2 := Nat.not_lt.mpr (Nat.log2_self_le h)
  simp [log2Ratio, powerOfTwo, hone, hle]

namespace Format

variable {f : Format}

/-- What is added to an exponent in its field. -/
def bias (f : Format) : Nat := 2 ^ (f.exponentBits - 1) - 1

/-- The exponents go as far as the integers that a significand can hold. -/
def Wide (f : Format) : Prop := f.fractionBits < f.bias

theorem wide_single : single.Wide := by
  rw [Wide]
  decide

theorem wide_double : double.Wide := by
  rw [Wide]
  decide

theorem Wide.two_pow (hf : f.Wide) :
    2 ^ (f.exponentBits - 1) = f.bias + 1 ∧ 2 ^ f.exponentBits = 2 * (f.bias + 1) := by
  have hpos : 0 < 2 ^ (f.exponentBits - 1) - 1 := Nat.zero_lt_of_lt hf
  have hbits : 0 < f.exponentBits := by
    by_contra hzero
    simp [Nat.eq_zero_of_not_pos hzero] at hpos
  have hhalf : 2 ^ (f.exponentBits - 1) = f.bias + 1 := by
    rw [bias]
    omega
  refine ⟨hhalf, ?_⟩
  rw [← hhalf, ← Nat.pow_succ', Nat.succ_eq_add_one, Nat.sub_one_add_one hbits.ne']

/-- The significand of an integer that has at most one digit more than the fraction. -/
theorem exists_significand {p n : Nat} (hpos : n ≠ 0) (hn : n ≤ 2 ^ (p + 1)) :
    ∃ fraction < 2 ^ p, (2 ^ p + fraction) * 2 ^ n.log2 = n * 2 ^ p ∧
      roundDiv (n * 2 ^ (p - n.log2)) (2 ^ (n.log2 - p)) = 2 ^ p + fraction := by
  have hlow := Nat.log2_self_le hpos
  have hhigh := Nat.lt_log2_self (n := n)
  rcases Nat.lt_or_ge p n.log2 with hlt | hle
  · -- The integer is the power of two at the upper end.
    have hlog : n.log2 = p + 1 := by
      have := (Nat.pow_le_pow_iff_right (by decide : 1 < 2)).mp (hlow.trans hn)
      omega
    obtain rfl : n = 2 ^ (p + 1) := le_antisymm hn (hlog ▸ hlow)
    refine ⟨0, Nat.two_pow_pos p, ?_, ?_⟩
    · rw [hlog, Nat.add_zero, Nat.mul_comm]
    · rw [hlog, Nat.sub_eq_zero_of_le (Nat.le_succ p), Nat.add_sub_cancel_left, Nat.pow_zero,
        Nat.mul_one, Nat.pow_one, Nat.pow_succ, roundDiv_mul _ (by decide), Nat.add_zero]
  · have hsplit : 2 ^ p = 2 ^ n.log2 * 2 ^ (p - n.log2) := by
      rw [← Nat.pow_add, Nat.add_sub_cancel' hle]
    have hmul : 2 ^ p ≤ n * 2 ^ (p - n.log2) := by
      rw [hsplit]
      exact Nat.mul_le_mul_right _ hlow
    refine ⟨n * 2 ^ (p - n.log2) - 2 ^ p, ?_, ?_, ?_⟩
    · have hlt : n * 2 ^ (p - n.log2) < 2 ^ (n.log2 + 1) * 2 ^ (p - n.log2) :=
        Nat.mul_lt_mul_of_pos_right hhigh (Nat.two_pow_pos _)
      rw [Nat.pow_succ, Nat.mul_right_comm, ← hsplit] at hlt
      omega
    · rw [Nat.add_sub_cancel' hmul, Nat.mul_assoc, Nat.mul_comm (2 ^ _), ← hsplit]
    · rw [Nat.sub_eq_zero_of_le hle, Nat.pow_zero, Nat.add_sub_cancel' hmul]
      simpa using roundDiv_mul (n * 2 ^ (p - n.log2)) Nat.one_pos

/-- The pattern of an integer that the significand can hold: its highest bit is in the
exponent, the others are the fraction. -/
theorem nearest_integer (hf : f.Wide) {n : Nat} (hpos : n ≠ 0)
    (hn : n ≤ 2 ^ (f.fractionBits + 1)) :
    ∃ fraction < 2 ^ f.fractionBits,
      (2 ^ f.fractionBits + fraction) * 2 ^ n.log2 = n * 2 ^ f.fractionBits ∧
      n.log2 + f.bias < 2 ^ f.exponentBits - 1 ∧
      f.nearest n 1 = (n.log2 + f.bias) * 2 ^ f.fractionBits + fraction := by
  obtain ⟨fraction, hfraction, hvalue, hround⟩ := exists_significand hpos hn
  obtain ⟨hhalf, hwhole⟩ := hf.two_pow
  have hwide : f.fractionBits < f.bias := hf
  have hlog : n.log2 ≤ f.fractionBits + 1 :=
    (Nat.pow_le_pow_iff_right (by decide : 1 < 2)).mp ((Nat.log2_self_le hpos).trans hn)
  have hfield : n.log2 + f.bias < 2 ^ f.exponentBits - 1 := by omega
  refine ⟨fraction, hfraction, hvalue, hfield, ?_⟩
  have hleast : f.leastExponent = 1 - f.bias - f.fractionBits := by
    rw [leastExponent, Nat.pow_eq, hhalf]
    omega
  have hexponent : max f.leastExponent ((n.log2 : Int) - f.fractionBits) =
      n.log2 - f.fractionBits := by
    omega
  have hup : ((n.log2 : Int) - f.fractionBits).toNat = n.log2 - f.fractionBits := by omega
  have hdown : (-((n.log2 : Int) - f.fractionBits)).toNat = f.fractionBits - n.log2 := by omega
  have hsteps : ((n.log2 : Int) - f.fractionBits - f.leastExponent).toNat + 1 =
      n.log2 + f.bias := by
    omega
  have hmin : (n.log2 + f.bias) * 2 ^ f.fractionBits + fraction ≤ f.infinity := by
    have hle : (n.log2 + f.bias + 1) * 2 ^ f.fractionBits ≤ f.infinity :=
      Nat.mul_le_mul_right _ hfield
    rw [Nat.succ_mul] at hle
    omega
  simp only [nearest, if_neg hpos, log2Ratio_one hpos, powerOfTwo, hexponent, hup, hdown,
    Nat.pow_eq, Nat.one_mul, hround]
  rw [← hsteps, Nat.succ_mul] at hmin ⊢
  omega

end Format

namespace Binary

variable {f : Format}

/-- The number that the bits of `x` stand for: the sign, and a significand below two scaled by the
exponent. Where the exponent is least the significand is below one; where it is greatest there is
no number. -/
def value? (x : Binary f) : Option ℚ :=
  let sign : ℚ := if x.bits.msb then -1 else 1
  let exponent := x.bits.toNat / 2 ^ f.fractionBits % 2 ^ f.exponentBits
  let fraction : ℚ := (x.bits.toNat % 2 ^ f.fractionBits : Nat) / 2 ^ f.fractionBits
  if exponent = 2 ^ f.exponentBits - 1 then none
  else if exponent = 0 then some (sign * fraction * 2 ^ (1 - f.bias : Int))
  else some (sign * (1 + fraction) * 2 ^ (exponent - f.bias : Int))

/-- The fields of a number with the magnitude `exponent * 2 ^ f.fractionBits + fraction`. -/
theorem ofMagnitude_fields (negative : Bool) {exponent fraction : Nat}
    (hexponent : exponent < 2 ^ f.exponentBits) (hfraction : fraction < 2 ^ f.fractionBits) :
    let x : Binary f := ofMagnitude negative (exponent * 2 ^ f.fractionBits + fraction)
    x.bits.msb = negative ∧ x.bits.toNat / 2 ^ f.fractionBits % 2 ^ f.exponentBits = exponent ∧
      x.bits.toNat % 2 ^ f.fractionBits = fraction := by
  intro x
  have hlt : exponent * 2 ^ f.fractionBits + fraction < 2 ^ (f.exponentBits + f.fractionBits) := by
    have hle := Nat.mul_le_mul_right (2 ^ f.fractionBits) hexponent
    rw [Nat.succ_mul, ← Nat.pow_add] at hle
    omega
  have hwidth : f.width = f.exponentBits + f.fractionBits + 1 := by
    rw [Format.width]
    omega
  have htoNat : x.bits.toNat = ((if negative then 2 ^ f.exponentBits else 0) + exponent) *
      2 ^ f.fractionBits + fraction := by
    have hsign : (if negative then f.signBit else 0) =
        (if negative then 2 ^ f.exponentBits else 0) * 2 ^ f.fractionBits := by
      cases negative <;> simp [Format.signBit, Nat.pow_add]
    have hbits : x.bits = BitVec.ofNat f.width ((if negative then f.signBit else 0) +
        (exponent * 2 ^ f.fractionBits + fraction)) := rfl
    rw [hbits, BitVec.toNat_ofNat, Nat.mod_eq_of_lt, hsign]
    · ring
    · rw [hwidth, Nat.pow_succ, Format.signBit, Nat.pow_eq]
      split <;> omega
  refine ⟨?_, ?_, ?_⟩
  · rw [BitVec.msb_eq_decide, htoNat, hwidth, Nat.add_sub_cancel]
    cases negative
    · simpa using hlt
    · simp only [if_true, Nat.add_mul, ← Nat.pow_add, decide_eq_true_iff]
      omega
  · rw [htoNat, Nat.add_comm, Nat.add_mul_div_right _ _ (Nat.two_pow_pos _),
      Nat.div_eq_of_lt hfraction, Nat.zero_add]
    cases negative <;> simp [Nat.mod_eq_of_lt hexponent]
  · rw [htoNat, Nat.add_comm, Nat.add_mul_mod_self_right, Nat.mod_eq_of_lt hfraction]

/-- The value of a whole number of units in a binade. -/
theorem value?_ofMagnitude (negative : Bool) {exponent fraction : Nat}
    (hexponent : exponent < 2 ^ f.exponentBits - 1) (hfraction : fraction < 2 ^ f.fractionBits)
    (hnormal : exponent ≠ 0) :
    (ofMagnitude negative (exponent * 2 ^ f.fractionBits + fraction) : Binary f).value? =
      some ((if negative then -1 else 1) * (1 + (fraction : ℚ) / 2 ^ f.fractionBits) *
        2 ^ (exponent - f.bias : Int)) := by
  obtain ⟨hsign, hfield, hrest⟩ :=
    ofMagnitude_fields (f := f) negative (by omega : exponent < 2 ^ f.exponentBits) hfraction
  simp only [value?, hsign, hfield, hrest, if_neg hexponent.ne, if_neg hnormal]

/-- **An integer that the significand can hold is a number of the format.** -/
theorem value?_ofInt (hf : f.Wide) {n : Int} (hn : n.natAbs ≤ 2 ^ (f.fractionBits + 1)) :
    (ofInt n : Binary f).value? = some (n : ℚ) := by
  obtain ⟨-, hwhole⟩ := hf.two_pow
  have hwide : f.fractionBits < f.bias := hf
  by_cases hzero : n = 0
  · subst hzero
    have hinteger : (ofInt 0 : Binary f) = ofMagnitude false (0 * 2 ^ f.fractionBits + 0) := by
      simp [ofInt, ofRatio, Format.nearest]
    obtain ⟨-, hfield, hrest⟩ := ofMagnitude_fields (f := f) false (Nat.two_pow_pos _)
      (Nat.two_pow_pos f.fractionBits)
    have hfinite : 0 ≠ 2 ^ f.exponentBits - 1 := by omega
    rw [hinteger]
    simp only [value?, hfield, hrest, if_neg hfinite]
    simp
  · have hpos : n.natAbs ≠ 0 := Int.natAbs_ne_zero.mpr hzero
    obtain ⟨fraction, hfraction, hvalue, hfield, hnearest⟩ := Format.nearest_integer hf hpos hn
    have hinteger : (ofInt n : Binary f) = ofMagnitude (n < 0)
        ((n.natAbs.log2 + f.bias) * 2 ^ f.fractionBits + fraction) := by
      rw [ofInt, ofRatio, hnearest]
    have hscale : (1 + (fraction : ℚ) / 2 ^ f.fractionBits) * 2 ^ n.natAbs.log2 = n.natAbs := by
      have hcast : ((2 : ℚ) ^ f.fractionBits + fraction) * 2 ^ n.natAbs.log2 =
          n.natAbs * 2 ^ f.fractionBits := by exact_mod_cast hvalue
      have hne : (2 : ℚ) ^ f.fractionBits ≠ 0 := pow_ne_zero _ two_ne_zero
      field_simp
      rw [hcast, mul_comm]
    have hexponent : ((n.natAbs.log2 + f.bias : Nat) : Int) - f.bias = n.natAbs.log2 := by omega
    rw [hinteger, value?_ofMagnitude _ hfield hfraction (by omega), hexponent, zpow_natCast,
      mul_assoc, hscale]
    rcases lt_or_gt_of_ne hzero with hneg | hpos
    · have habs : (n.natAbs : Int) = -n := Int.ofNat_natAbs_of_nonpos hneg.le
      have hcast : (n.natAbs : ℚ) = -n := by rw [← Int.cast_natCast, habs, Int.cast_neg]
      simp [hneg, hcast]
    · have habs : (n.natAbs : Int) = n := Int.natAbs_of_nonneg hpos.le
      have hcast : (n.natAbs : ℚ) = n := by rw [← Int.cast_natCast, habs]
      simp [not_lt_of_gt hpos, hcast]

end Binary

end Number

/-! ## Parameters -/

namespace ParameterType

open Number

/-- The types of numbers. -/
def IsNumeric : ParameterType → Prop
  | .int2 | .int4 | .int8 | .float4 | .float8 => True
  | _ => False

/-- The integers that a type takes. -/
def Takes : ParameterType → Int → Prop
  | .int2, n => -2 ^ 15 ≤ n ∧ n < 2 ^ 15
  | .int4, n => -2 ^ 31 ≤ n ∧ n < 2 ^ 31
  | .int8, n => -2 ^ 63 ≤ n ∧ n < 2 ^ 63
  | .float4, n => |n| ≤ 2 ^ 24
  | .float8, n => |n| ≤ 2 ^ 53
  | _, _ => False

/-- The integer that `width` bytes stand for in two's complement. -/
def integer? (width : Nat) (bytes : List UInt8) : Option Int :=
  if bytes.length = width then some (Text.bitsOfBytes (8 * width) bytes).toInt else none

/-- The floating point number that the bytes of its bits stand for. -/
def float? (f : Format) (bytes : List UInt8) : Option ℚ :=
  if bytes.length = f.width / 8 then (⟨Text.bitsOfBytes f.width bytes⟩ : Binary f).value? else none

/-- The number that the receiver of a parameter reads in its bytes. -/
def number? : ParameterType → List UInt8 → Option ℚ
  | .int2, bytes => (integer? 2 bytes).map (↑)
  | .int4, bytes => (integer? 4 bytes).map (↑)
  | .int8, bytes => (integer? 8 bytes).map (↑)
  | .float4, bytes => float? .single bytes
  | .float8, bytes => float? .double bytes
  | _, _ => none

end ParameterType

namespace Value

open Number ParameterType

/-- An integer within the range of two's complement is read as itself. -/
theorem integer?_integerBytes {width : Nat} (hwidth : 0 < width) {n : Int}
    (hrange : -2 ^ (8 * width - 1) ≤ n ∧ n < 2 ^ (8 * width - 1)) :
    integer? width (integerBytes width n) = some n := by
  have hbits := BitVec.toInt_ofInt_eq_self (by omega : 0 < 8 * width) hrange.1 hrange.2
  rw [integer?, if_pos (by rw [integerBytes, Text.length_bigEndian]), bitsOfBytes_integerBytes,
    hbits]

/-- A number of whole bytes is read as itself. -/
theorem float?_floatBytes {f : Format} (hwidth : f.width = 8 * (f.width / 8)) (x : Binary f) :
    float? f (floatBytes x) = x.value? := by
  have hbits : Text.bitsOfBytes f.width (floatBytes x) = x.bits := by
    apply BitVec.eq_of_toNat_eq
    rw [floatBytes, Text.bitsOfBytes, Text.ofBigEndian_bigEndian, ← hwidth, BitVec.toNat_ofNat,
      Nat.mod_mod, Nat.mod_eq_of_lt x.bits.isLt]
  rw [float?, if_pos (by rw [floatBytes, Text.length_bigEndian]), hbits]

/-- An integer is narrowed just where its bytes are read as itself. -/
theorem narrow_cases {width : Nat} (hwidth : 0 < width) (n : Int64) :
    ((-2 ^ (8 * width - 1) ≤ n.toInt ∧ n.toInt < 2 ^ (8 * width - 1)) ∧
      ∃ bytes, narrow width n = .ok bytes ∧
        (integer? width bytes).map (↑) = some (n.toInt : ℚ)) ∨
    (¬ (-2 ^ (8 * width - 1) ≤ n.toInt ∧ n.toInt < 2 ^ (8 * width - 1)) ∧
      ∃ e, narrow width n = .error e ∧ e ≠ .wrongType) := by
  have hbound : ((Nat.pow 256 width / 2 : Nat) : Int) = 2 ^ (8 * width - 1) := by
    have hpow : Nat.pow 256 width = 2 ^ (8 * width - 1) * 2 := by
      rw [Nat.pow_eq, ← Nat.pow_succ, Nat.succ_eq_add_one, Nat.sub_add_cancel (by omega),
        Nat.pow_mul]
    rw [hpow, Nat.mul_div_cancel _ Nat.two_pos, Nat.cast_pow, Nat.cast_ofNat]
  rw [narrow, hbound]
  split
  case isTrue hhigh => exact .inr ⟨fun hrange => absurd hhigh (not_le.mpr hrange.2), _, rfl, nofun⟩
  case isFalse hhigh =>
    split
    case isTrue hlow => exact .inr ⟨fun hrange => absurd hlow (not_lt.mpr hrange.1), _, rfl, nofun⟩
    case isFalse hlow =>
      have hrange := And.intro (not_lt.mp hlow) (not_le.mp hhigh)
      refine .inl ⟨hrange, _, rfl, ?_⟩
      rw [integer?_integerBytes hwidth hrange, Option.map_some]

/-- An integer becomes a floating point number just where that is the integer itself. -/
theorem exactFloat_cases {f : Format} (hf : f.Wide) (hwidth : f.width = 8 * (f.width / 8))
    (n : Int64) :
    (|n.toInt| ≤ 2 ^ (f.fractionBits + 1) ∧
      ∃ bytes, exactFloat f n = .ok bytes ∧ float? f bytes = some (n.toInt : ℚ)) ∨
    (¬ |n.toInt| ≤ 2 ^ (f.fractionBits + 1) ∧
      ∃ e, exactFloat f n = .error e ∧ e ≠ .wrongType) := by
  have habs : |n.toInt| ≤ 2 ^ (f.fractionBits + 1) ↔
      n.toInt.natAbs ≤ 2 ^ (f.fractionBits + 1) := by
    rw [Int.abs_eq_natAbs]
    exact_mod_cast Iff.rfl
  rw [habs, exactFloat, Nat.pow_eq]
  split
  case isTrue hlt => exact .inr ⟨Nat.not_le.mpr hlt, _, rfl, nofun⟩
  case isFalse hle =>
    refine .inl ⟨Nat.not_lt.mp hle, _, rfl, ?_⟩
    rw [float?_floatBytes hwidth, Binary.value?_ofInt hf (Nat.not_lt.mp hle)]

variable {n : Int64} {type : ParameterType}

/-- What a type of numbers makes of an integer. -/
theorem encode_int_of_isNumeric {sent : Except WireError (List UInt8)} (hnumeric : type.IsNumeric)
    (hencode : (Value.int n).encode type = some <$> sent)
    (hsent : (type.Takes n.toInt ∧
        ∃ bytes, sent = .ok bytes ∧ type.number? bytes = some (n.toInt : ℚ)) ∨
      (¬ type.Takes n.toInt ∧ ∃ e, sent = .error e ∧ e ≠ .wrongType)) :
    (type.Takes n.toInt ∧ ∃ bytes, (Value.int n).encode type = .ok (some bytes) ∧
      type.number? bytes = some (n.toInt : ℚ)) ∨
    (¬ type.Takes n.toInt ∧ ∃ e, (Value.int n).encode type = .error e ∧
      (e = .wrongType ↔ ¬ type.IsNumeric)) := by
  obtain ⟨htakes, bytes, rfl, hbytes⟩ | ⟨htakes, e, rfl, he⟩ := hsent
  · exact .inl ⟨htakes, bytes, hencode, hbytes⟩
  · exact .inr ⟨htakes, e, hencode, iff_of_false he (not_not.mpr hnumeric)⟩

/-- **An integer is sent as itself or not at all.** A type takes the integers of its range; a
floating point type takes those up to its precision, whichever sign they have. What is sent is
read as the integer, and what is not taken is an error, which for a type of numbers is not that
the value is of the wrong type. -/
theorem encode_int_exact (n : Int64) (type : ParameterType) :
    (type.Takes n.toInt ∧ ∃ bytes, (Value.int n).encode type = .ok (some bytes) ∧
      type.number? bytes = some (n.toInt : ℚ)) ∨
    (¬ type.Takes n.toInt ∧ ∃ e, (Value.int n).encode type = .error e ∧
      (e = .wrongType ↔ ¬ type.IsNumeric)) := by
  cases type with
  | int2 => exact encode_int_of_isNumeric trivial rfl (narrow_cases (by decide : 0 < 2) n)
  | int4 => exact encode_int_of_isNumeric trivial rfl (narrow_cases (by decide : 0 < 4) n)
  | int8 =>
      -- No integer is out of the range of this type.
      have hrange := And.intro n.le_toInt n.toInt_lt
      refine .inl ⟨hrange, _, rfl, ?_⟩
      rw [number?, integer?_integerBytes (by decide : 0 < 8) hrange, Option.map_some]
  | float4 => exact encode_int_of_isNumeric trivial rfl (exactFloat_cases Format.wide_single rfl n)
  | float8 => exact encode_int_of_isNumeric trivial rfl (exactFloat_cases Format.wide_double rfl n)
  | _ => exact .inr ⟨id, _, rfl, iff_of_true rfl id⟩

example : (Value.int Int64.minValue).encode .int8 = .ok (some [128, 0, 0, 0, 0, 0, 0, 0]) := by
  decide

example : (Value.int Int64.minValue).encode .float8 = .error (.inexact Int64.minValue) := by
  decide

end Value

end SqlTemplate

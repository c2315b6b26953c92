import Mathlib.Tactic.IntervalCases
import TraceProfile.Buffer.Wire

/-!
# Words and their bytes

Eight bytes and a 64-bit word carry the same information: `Chunk.ofWord` and `Chunk.toWord` are
inverse to each other. A signed 32-bit integer occupies all eight bytes too, but only the lower four
are read back. Writing an integer that was read keeps these four and puts its sign into the others
(`Chunk.signExtend`), whatever they were.
-/

namespace TraceProfile

/-! ## Bytes as digits -/

/-- The number whose digits to the base 256 are given, the least significant first. -/
def digitValue (bytes : List UInt8) : Nat := bytes.foldr (fun b value => b.toNat + 256 * value) 0

/-- The word that is put together from bytes, the least significant first. -/
def wordOf (bytes : List UInt8) : UInt64 :=
  bytes.foldr (fun b word => b.toUInt64 + 256 * word) 0

theorem digitValue_lt (bytes : List UInt8) : digitValue bytes < 256 ^ bytes.length := by
  induction bytes with
  | nil => exact Nat.zero_lt_one
  | cons b bytes ih =>
    have hb : b.toNat < 256 := b.toNat_lt
    have hcons : digitValue (b :: bytes) = b.toNat + 256 * digitValue bytes := rfl
    rw [hcons, List.length_cons, Nat.pow_succ]
    omega

theorem digitValue_append (low high : List UInt8) :
    digitValue (low ++ high) = digitValue low + 256 ^ low.length * digitValue high := by
  induction low with
  | nil => simp [digitValue]
  | cons b low ih =>
    have hlong : digitValue (b :: low ++ high) = b.toNat + 256 * digitValue (low ++ high) := rfl
    have hshort : digitValue (b :: low) = b.toNat + 256 * digitValue low := rfl
    rw [hlong, hshort, ih, List.length_cons, Nat.pow_succ, Nat.mul_add, Nat.add_assoc,
      Nat.mul_comm (256 ^ low.length) 256, Nat.mul_assoc]

/-- Eight bytes fit into a word. -/
theorem toNat_wordOf {bytes : List UInt8} (h : bytes.length ≤ 8) :
    (wordOf bytes).toNat = digitValue bytes := by
  induction bytes with
  | nil => rfl
  | cons b bytes ih =>
    rw [List.length_cons] at h
    have hb : b.toNat < 256 := b.toNat_lt
    have hlt := digitValue_lt bytes
    -- There is room for one more byte, so nothing wraps around.
    have hroom : 256 ^ bytes.length ≤ 256 ^ 7 := Nat.pow_le_pow_right (by decide) (by omega)
    have hword : wordOf (b :: bytes) = b.toUInt64 + 256 * wordOf bytes := rfl
    have hvalue : digitValue (b :: bytes) = b.toNat + 256 * digitValue bytes := rfl
    have hbase : (256 : UInt64).toNat = 256 := rfl
    rw [hword, UInt64.toNat_add, UInt64.toNat_mul, UInt8.toNat_toUInt64, hbase, ih (by omega),
      hvalue]
    omega

/-- The bytes of a number are its digits. -/
theorem littleEndian_eq_of_toNat {bytes : List UInt8} {word : UInt64}
    (h : word.toNat = digitValue bytes) : littleEndian bytes.length word = bytes := by
  induction bytes generalizing word with
  | nil => rfl
  | cons b bytes ih =>
    have hb : b.toNat < 256 := b.toNat_lt
    have hvalue : digitValue (b :: bytes) = b.toNat + 256 * digitValue bytes := rfl
    have hbase : (256 : UInt64).toNat = 256 := rfl
    rw [hvalue] at h
    have hlow : word.toUInt8 = b := by
      apply UInt8.toNat_inj.1
      rw [UInt64.toNat_toUInt8, h]
      omega
    have hhigh : (word / 256).toNat = digitValue bytes := by
      rw [UInt64.toNat_div, hbase, h]
      omega
    rw [List.length_cons, littleEndian, hlow, ih hhigh]

theorem digitValue_littleEndian {width : Nat} {word : UInt64} (h : word.toNat < 256 ^ width) :
    digitValue (littleEndian width word) = word.toNat := by
  induction width generalizing word with
  | zero =>
    have hzero : word.toNat = 0 := by simpa using h
    rw [hzero]
    rfl
  | succ width ih =>
    have hbase : (256 : UInt64).toNat = 256 := rfl
    have hdiv : (word / 256).toNat = word.toNat / 256 := by rw [UInt64.toNat_div, hbase]
    have hrest : digitValue (littleEndian width (word / 256)) = (word / 256).toNat := by
      apply ih
      rw [hdiv]
      rw [Nat.pow_succ] at h
      omega
    have hvalue : digitValue (littleEndian (width + 1) word) =
        word.toUInt8.toNat + 256 * digitValue (littleEndian width (word / 256)) := rfl
    rw [hvalue, hrest, hdiv, UInt64.toNat_toUInt8]
    omega

namespace Chunk

/-! ## All eight bytes -/

theorem toNat_toWord (chunk : Chunk) : chunk.toWord.toNat = digitValue chunk.toList := by
  have hword : chunk.toWord = wordOf chunk.toList := by rw [toWord, ← Vector.foldr_toList, wordOf]
  rw [hword]
  exact toNat_wordOf (Nat.le_of_eq Vector.length_toList)

theorem toList_ofWord (word : UInt64) : (ofWord word).toList = littleEndian 8 word := by
  simp [ofWord, Vector.toList]

theorem ofWord_eq_of_toNat {chunk : Chunk} {word : UInt64}
    (h : word.toNat = digitValue chunk.toList) : ofWord word = chunk := by
  have hbytes := littleEndian_eq_of_toNat h
  rw [Vector.length_toList] at hbytes
  apply Vector.toList_inj.1
  rw [toList_ofWord, hbytes]

@[simp] theorem toWord_ofWord (word : UInt64) : (ofWord word).toWord = word := by
  apply UInt64.toNat_inj.1
  rw [toNat_toWord, toList_ofWord]
  exact digitValue_littleEndian word.toNat_lt

@[simp] theorem ofWord_toWord (chunk : Chunk) : ofWord chunk.toWord = chunk :=
  ofWord_eq_of_toNat (toNat_toWord chunk)

/-! ## The lower four bytes -/

/-- The lower four bytes. -/
def low (chunk : Chunk) : List UInt8 := [chunk[0], chunk[1], chunk[2], chunk[3]]

/-- The lower four bytes, and above them the sign of the integer that they are. -/
def signExtend (chunk : Chunk) : Chunk :=
  let sign : UInt8 := if chunk[3] < 128 then 0 else 255
  #v[chunk[0], chunk[1], chunk[2], chunk[3], sign, sign, sign, sign]

theorem toList_eq_low_append (chunk : Chunk) :
    chunk.toList = chunk.low ++ [chunk[4], chunk[5], chunk[6], chunk[7]] := by
  apply List.ext_getElem (by simp [low])
  intro i hi _
  have hi8 : i < 8 := by simpa using hi
  interval_cases i <;> simp [low]

theorem toNat_toWord_mod (chunk : Chunk) : chunk.toWord.toNat % 256 ^ 4 = digitValue chunk.low := by
  have hlength : chunk.low.length = 4 := rfl
  have hlt := digitValue_lt chunk.low
  rw [hlength] at hlt
  rw [toNat_toWord, toList_eq_low_append, digitValue_append, hlength, Nat.add_mul_mod_self_left,
    Nat.mod_eq_of_lt hlt]

/-- The sign of the integer is the highest bit of its fourth byte. -/
theorem digitValue_low_lt_iff (chunk : Chunk) :
    digitValue chunk.low < 128 * 256 ^ 3 ↔ chunk[3] < 128 := by
  have hvalue : digitValue chunk.low =
      digitValue [chunk[0], chunk[1], chunk[2]] + 256 ^ 3 * chunk[3].toNat :=
    digitValue_append [chunk[0], chunk[1], chunk[2]] [chunk[3]]
  have hrest : digitValue [chunk[0], chunk[1], chunk[2]] < 256 ^ 3 := digitValue_lt _
  have htop : chunk[3] < 128 ↔ chunk[3].toNat < 128 := UInt8.lt_iff_toNat_lt
  rw [hvalue, htop]
  omega

/-- The word of an integer that was cut out of a word. -/
theorem toNat_toInt32 (word : UInt64) :
    word.toInt64.toInt32.toInt64.toUInt64.toNat =
      word.toNat % 256 ^ 4 +
        if word.toNat % 256 ^ 4 < 128 * 256 ^ 3 then 0 else 256 ^ 4 * (256 ^ 4 - 1) := by
  have hbits : word.toInt64.toInt32.toInt64.toUInt64.toBitVec =
      (word.toBitVec.setWidth 32).signExtend 64 := by
    have hcut : word.toBitVec.signExtend 32 = word.toBitVec.setWidth 32 :=
      BitVec.signExtend_eq_setWidth_of_le _ (by decide)
    rw [Int64.toBitVec_toUInt64, Int32.toBitVec_toInt64, Int64.toBitVec_toInt32,
      UInt64.toBitVec_toInt64, hcut]
  rw [← UInt64.toNat_toBitVec, hbits, BitVec.toNat_signExtend, BitVec.msb_eq_decide]
  simp only [BitVec.toNat_setWidth, UInt64.toNat_toBitVec, decide_eq_true_eq]
  split <;> split <;> omega

/-- An integer that is read and written again keeps its lower four bytes. -/
theorem ofWord_toInt32 (chunk : Chunk) :
    ofWord chunk.toWord.toInt64.toInt32.toInt64.toUInt64 = chunk.signExtend := by
  apply ofWord_eq_of_toNat
  rw [toNat_toInt32, toNat_toWord_mod]
  by_cases hsign : chunk[3] < 128
  · have hextend : chunk.signExtend.toList = chunk.low ++ [0, 0, 0, 0] := by
      simp [signExtend, low, hsign]
    have hzeros : digitValue [0, 0, 0, 0] = 0 := by decide
    rw [if_pos ((digitValue_low_lt_iff chunk).2 hsign), hextend, digitValue_append, hzeros,
      Nat.mul_zero]
  · have hextend : chunk.signExtend.toList = chunk.low ++ [255, 255, 255, 255] := by
      simp [signExtend, low, hsign]
    have hones : digitValue [255, 255, 255, 255] = 256 ^ 4 - 1 := by decide
    have hlength : chunk.low.length = 4 := rfl
    rw [if_neg (mt (digitValue_low_lt_iff chunk).1 hsign), hextend, digitValue_append, hlength,
      hones]

end Chunk

end TraceProfile

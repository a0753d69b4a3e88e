import Mathlib.Tactic.Linarith
import Mathlib.Tactic.Ring
import QueryPlanner.Key

/-!
# Integers in keys

Digits in base 256 with the highest in front are in the order of the numbers they stand for, as long
as there are equally many of them.  Counting integers from the smallest one makes them such numbers,
so their bytes have the order of the integers and give them back, and any eight bytes are those of
an integer.

Main statements: `compareLex_encodeInteger`, `decodeInteger_encodeInteger`,
`encodeInteger_decodeInteger`.
-/

namespace QueryPlanner

/-- Pairs that are ordered alike compare alike. -/
theorem compare_eq_compare {α β : Type} [LinearOrder α] [LinearOrder β] {a b : α} {c d : β}
    (hlt : a < b ↔ c < d) (hgt : b < a ↔ d < c) : compare a b = compare c d := by
  rcases lt_trichotomy a b with h | rfl | h
  · rw [compare_lt_iff_lt.2 h, compare_lt_iff_lt.2 (hlt.1 h)]
  · rw [compare_eq_iff_eq.2 rfl, eq_comm, compare_eq_iff_eq]
    exact le_antisymm (not_lt.1 fun h => lt_irrefl _ (hgt.2 h))
      (not_lt.1 fun h => lt_irrefl _ (hlt.2 h))
  · rw [compare_gt_iff_gt.2 h, compare_gt_iff_gt.2 (hgt.1 h)]

/-- Moving integers by the same distance keeps their order. -/
theorem compare_shifted {m n : Nat} {i j distance : Int} (hm : m = i + distance)
    (hn : n = j + distance) : compare m n = compare i j :=
  compare_eq_compare (by omega) (by omega)

theorem compare_toNat (a b : UInt8) : compare a b = compare a.toNat b.toNat := by
  rcases Nat.lt_trichotomy a.toNat b.toNat with h | h | h
  · rw [Nat.compare_eq_lt.2 h]
    exact Std.compare_eq_lt.2 (UInt8.lt_iff_toNat_lt.2 h)
  · rw [Nat.compare_eq_eq.2 h]
    exact Std.compare_eq_iff_eq.2 (UInt8.toNat_inj.1 h)
  · rw [Nat.compare_eq_gt.2 h]
    exact Std.compare_eq_gt.2 (UInt8.lt_iff_toNat_lt.2 h)

namespace Segment

/-! ## Digits -/

private theorem foldl_digits (digits : List UInt8) (n : Nat) :
    digits.foldl (fun n b => n * 256 + b.toNat) n =
      n * 256 ^ digits.length + ofBigEndian digits := by
  unfold ofBigEndian
  induction digits generalizing n with
  | nil => simp
  | cons b digits ih =>
      rw [List.foldl_cons, List.foldl_cons, ih, ih (0 * 256 + b.toNat), List.length_cons]
      ring

theorem ofBigEndian_cons (b : UInt8) (digits : List UInt8) :
    ofBigEndian (b :: digits) = b.toNat * 256 ^ digits.length + ofBigEndian digits := by
  have h := foldl_digits digits (0 * 256 + b.toNat)
  rw [Nat.zero_mul, Nat.zero_add] at h
  rw [← h, ofBigEndian, List.foldl_cons, Nat.zero_mul, Nat.zero_add]

theorem ofBigEndian_lt (digits : List UInt8) : ofBigEndian digits < 256 ^ digits.length := by
  induction digits with
  | nil => exact Nat.one_pos
  | cons b digits ih =>
      have hb : (b.toNat + 1) * 256 ^ digits.length ≤ 256 * 256 ^ digits.length :=
        Nat.mul_le_mul_right _ b.toNat_lt
      rw [ofBigEndian_cons, List.length_cons, Nat.pow_succ]
      linarith

/-- A higher digit in front outweighs the digits behind it. -/
theorem ofBigEndian_cons_lt {b c : UInt8} (h : b.toNat < c.toNat) {xs ys : List UInt8}
    (hlength : xs.length = ys.length) : ofBigEndian (b :: xs) < ofBigEndian (c :: ys) := by
  have hc : (b.toNat + 1) * 256 ^ ys.length ≤ c.toNat * 256 ^ ys.length :=
    Nat.mul_le_mul_right _ h
  have hx := ofBigEndian_lt xs
  rw [ofBigEndian_cons, ofBigEndian_cons, hlength]
  rw [hlength] at hx
  linarith

/-- Equally many digits are in the order of their numbers. -/
theorem compareLex_digits {xs ys : List UInt8} (h : xs.length = ys.length) :
    List.compareLex compare xs ys = compare (ofBigEndian xs) (ofBigEndian ys) := by
  induction xs generalizing ys with
  | nil =>
      rw [List.length_eq_zero_iff.1 h.symm]
      rfl
  | cons b xs ih =>
      cases ys with
      | nil => cases h
      | cons c ys =>
          have hlength : xs.length = ys.length := Nat.succ.inj h
          rw [List.compareLex_cons_cons, compare_toNat, ih hlength]
          rcases Nat.lt_trichotomy b.toNat c.toNat with hlt | heq | hgt
          · rw [Nat.compare_eq_lt.2 hlt, Nat.compare_eq_lt.2 (ofBigEndian_cons_lt hlt hlength)]
            rfl
          · rw [Nat.compare_eq_eq.2 heq, ofBigEndian_cons, ofBigEndian_cons, heq, hlength]
            exact compare_eq_compare (by omega) (by omega)
          · rw [Nat.compare_eq_gt.2 hgt,
              Nat.compare_eq_gt.2 (ofBigEndian_cons_lt hgt hlength.symm)]
            rfl

theorem ofBigEndian_bigEndian {n : Nat} (h : n < 2 ^ 64) : ofBigEndian (bigEndian n) = n := by
  simp only [bigEndian, ofBigEndian, Nat.shiftRight_eq_div_pow, List.map_cons, List.map_nil,
    List.foldl_cons, List.foldl_nil, UInt8.toNat_ofNat']
  omega

/-- Equally many digits that stand for one number are the same. -/
theorem eq_of_ofBigEndian_eq {xs ys : List UInt8} (hlength : xs.length = ys.length)
    (h : ofBigEndian xs = ofBigEndian ys) : xs = ys := by
  have horder := compareLex_digits hlength
  rw [h, Std.compare_self] at horder
  exact Std.LawfulEqCmp.compare_eq_iff_eq.1 horder

theorem bigEndian_ofBigEndian {digits : List UInt8} (h : digits.length = 8) :
    bigEndian (ofBigEndian digits) = digits := by
  have hlt := ofBigEndian_lt digits
  rw [h] at hlt
  exact eq_of_ofBigEndian_eq h.symm (ofBigEndian_bigEndian hlt)

/-! ## Integers -/

/-- An integer as a number counted from the smallest integer. -/
def offset (value : Int64) : Nat := (value.toInt - Int64.minValue.toInt).toNat

theorem encodeInteger_eq (value : Int64) : encodeInteger value = bigEndian (offset value) := rfl

@[simp] theorem length_encodeInteger (value : Int64) : (encodeInteger value).length = 8 := rfl

theorem offset_eq (value : Int64) : (offset value : Int) = value.toInt + 2 ^ 63 := by
  have hlow := Int64.le_toInt value
  rw [offset, Int64.toInt_minValue]
  omega

theorem offset_lt (value : Int64) : offset value < 2 ^ 64 := by
  have hoffset := offset_eq value
  have hhigh := Int64.toInt_lt value
  omega

/-- The bytes of integers are in the order of the integers. -/
theorem compareLex_encodeInteger (v w : Int64) :
    List.compareLex compare (encodeInteger v) (encodeInteger w) = compare v.toInt w.toInt := by
  have hdigits : (encodeInteger v).length = (encodeInteger w).length := by
    rw [length_encodeInteger, length_encodeInteger]
  rw [compareLex_digits hdigits, encodeInteger_eq, encodeInteger_eq,
    ofBigEndian_bigEndian (offset_lt v), ofBigEndian_bigEndian (offset_lt w)]
  exact compare_shifted (offset_eq v) (offset_eq w)

@[simp] theorem decodeInteger_encodeInteger (value : Int64) :
    decodeInteger (encodeInteger value) = value := by
  rw [encodeInteger_eq, decodeInteger, ofBigEndian_bigEndian (offset_lt value), offset_eq,
    Int64.toInt_minValue, Int.add_neg_cancel_right, Int64.ofInt_toInt]

/-- Any eight bytes encode an integer. -/
theorem encodeInteger_decodeInteger {digits : List UInt8} (h : digits.length = 8) :
    encodeInteger (decodeInteger digits) = digits := by
  have hlt := ofBigEndian_lt digits
  rw [h] at hlt
  have hoffset : offset (decodeInteger digits) = ofBigEndian digits := by
    rw [offset, decodeInteger, Int64.toInt_ofInt, Int64.toInt_minValue]
    simp [Int.bmod]
    omega
  rw [encodeInteger_eq, hoffset, bigEndian_ofBigEndian h]

end Segment

end QueryPlanner

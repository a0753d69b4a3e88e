import QueryPlanner.Proofs.Key.Order

/-!
# The order of UTF-8

The UTF-8 bytes of texts are in the order of the code points.  A character is encoded by one to four
bytes, more of them for larger code points.  The first byte tells how many there are and is larger if
there are more, so characters of different widths are settled by it.  Characters of one width are
numbers in base 256 whose digits are the base 64 digits of the code point, each with a mark that is
the same for both.

Main statement: `compareLex_utf8`.
-/

namespace QueryPlanner

namespace Settles

variable {v w : Nat} {xs ys : List UInt8}

theorem of_first_lt {x y : UInt8} (hfirst : x.toNat < y.toNat) (h : v < w) :
    Settles (compare v w) (x :: xs) (y :: ys) := by
  rw [Nat.compare_eq_lt.2 h]
  exact of_lt (Std.compare_eq_lt.2 (UInt8.lt_iff_toNat_lt.2 hfirst))

theorem of_first_gt {x y : UInt8} (hfirst : y.toNat < x.toNat) (h : w < v) :
    Settles (compare v w) (x :: xs) (y :: ys) := by
  rw [Nat.compare_eq_gt.2 h]
  exact of_gt (Std.compare_eq_gt.2 (UInt8.lt_iff_toNat_lt.2 hfirst))

/-- Equally many bytes settle the order of numbers that are ordered as they are. -/
theorem of_bigEndian (hlength : xs.length = ys.length)
    (hlt : Segment.ofBigEndian xs < Segment.ofBigEndian ys ↔ v < w)
    (hgt : Segment.ofBigEndian ys < Segment.ofBigEndian xs ↔ w < v) :
    Settles (compare v w) xs ys := by
  rw [← compare_eq_compare hlt hgt, ← Segment.compareLex_digits hlength]
  exact of_length hlength

end Settles

namespace Text

/-- The bytes that encode a code point, one case for each number of bytes. -/
inductive Encodes (code : Nat) : List UInt8 → Prop where
  | one {a : UInt8} (high : code < 0x80) (ha : a.toNat = code) : Encodes code [a]
  | two {a b : UInt8} (low : 0x80 ≤ code) (high : code < 0x800)
      (ha : a.toNat = 0xC0 + code / 64) (hb : b.toNat = 0x80 + code % 64) : Encodes code [a, b]
  | three {a b c : UInt8} (low : 0x800 ≤ code) (high : code < 0x10000)
      (ha : a.toNat = 0xE0 + code / 64 / 64) (hb : b.toNat = 0x80 + code / 64 % 64)
      (hc : c.toNat = 0x80 + code % 64) : Encodes code [a, b, c]
  | four {a b c d : UInt8} (low : 0x10000 ≤ code) (high : code < 0x110000)
      (ha : a.toNat = 0xF0 + code / 64 / 64 / 64) (hb : b.toNat = 0x80 + code / 64 / 64 % 64)
      (hc : c.toNat = 0x80 + code / 64 % 64) (hd : d.toNat = 0x80 + code % 64) :
      Encodes code [a, b, c, d]

theorem encodes_utf8EncodeChar (c : Char) : Encodes c.toNat (String.utf8EncodeChar c) := by
  have hsize : c.toNat < 0x110000 := by
    have := c.valid
    simp only [Char.toNat, UInt32.isValidChar, Nat.isValidChar] at this ⊢
    omega
  have hval : c.val.toNat = c.toNat := rfl
  have hbyte {n m : Nat} (h : n = m ∧ n < 256) : (UInt8.ofNat n).toNat = m := by
    rw [UInt8.toNat_ofNat']
    omega
  unfold String.utf8EncodeChar
  simp only [hval]
  split
  next => exact .one (by omega) (hbyte (by omega))
  next =>
    split
    next => exact .two (by omega) (by omega) (hbyte (by omega)) (hbyte (by omega))
    next =>
      split
      next =>
        exact .three (by omega) (by omega) (hbyte (by omega)) (hbyte (by omega))
          (hbyte (by omega))
      next =>
        exact .four (by omega) hsize (hbyte (by omega)) (hbyte (by omega)) (hbyte (by omega))
          (hbyte (by omega))

/-- Encoded code points are in the order of the code points. -/
theorem Encodes.settles {v w : Nat} {xs ys : List UInt8} (hx : Encodes v xs) (hy : Encodes w ys) :
    Settles (compare v w) xs ys := by
  cases hx <;> cases hy
  case one.one | two.two | three.three | four.four =>
    refine .of_bigEndian rfl ?_ ?_ <;>
      simp only [Segment.ofBigEndian, List.foldl_cons, List.foldl_nil] <;> omega
  case one.two | one.three | one.four | two.three | two.four | three.four =>
    exact .of_first_lt (by omega) (by omega)
  case two.one | three.one | four.one | three.two | four.two | four.three =>
    exact .of_first_gt (by omega) (by omega)

/-- The code points of a text. -/
def codePoints (s : String) : List Nat := s.toList.map Char.toNat

theorem compareLex_flatMap_utf8EncodeChar (cs ds : List Char) :
    List.compareLex compare (cs.flatMap String.utf8EncodeChar) (ds.flatMap String.utf8EncodeChar) =
      List.compareLex compare (cs.map Char.toNat) (ds.map Char.toNat) := by
  have hempty (c : Char) : String.utf8EncodeChar c ≠ [] := by
    have := encodes_utf8EncodeChar c
    intro hnil
    rw [hnil] at this
    cases this
  induction cs generalizing ds with
  | nil =>
      cases ds with
      | nil => rfl
      | cons d ds =>
          obtain ⟨x, xs, hx⟩ := List.exists_cons_of_ne_nil (hempty d)
          rw [List.flatMap_cons, hx]
          rfl
  | cons c cs ih =>
      cases ds with
      | nil =>
          obtain ⟨x, xs, hx⟩ := List.exists_cons_of_ne_nil (hempty c)
          rw [List.flatMap_cons, hx]
          rfl
      | cons d ds =>
          have hsettles := (encodes_utf8EncodeChar c).settles (encodes_utf8EncodeChar d)
          rw [List.flatMap_cons, List.flatMap_cons, hsettles, ih, List.map_cons, List.map_cons,
            List.compareLex_cons_cons]

/-- The UTF-8 bytes of texts are in the order of their code points. -/
theorem compareLex_utf8 (a b : String) :
    List.compareLex compare (utf8 a) (utf8 b) =
      List.compareLex compare (codePoints a) (codePoints b) :=
  compareLex_flatMap_utf8EncodeChar a.toList b.toList

end Text

end QueryPlanner

import QueryPlanner.Proofs.Key.Digits

/-!
# The order of keys

The bytes of a key are in the order of its segments.  The bytes of one segment settle where it
belongs: when they differ from those of another segment, nothing that follows can count, and when
they do not, what follows counts alone.  For texts this rests on the terminator, which is smaller
than every byte in front of it, and on the escapes, which are in the order of what they stand for.

Main statement: `Key.compareLex_ofSegments`.
-/

namespace QueryPlanner

/-! ## Bytes that settle an order -/

/-- Two strings of bytes are in the given order, whatever follows them.  If they are equal, what
follows decides. -/
def Settles (order : Ordering) (xs ys : List UInt8) : Prop :=
  ∀ p q, List.compareLex compare (xs ++ p) (ys ++ q) = order.then (List.compareLex compare p q)

namespace Settles

variable {order order' : Ordering} {xs ys xs' ys' : List UInt8}

theorem nil : Settles .eq [] [] := fun _ _ => rfl

theorem append (h : Settles order xs ys) (h' : Settles order' xs' ys') :
    Settles (order.then order') (xs ++ xs') (ys ++ ys') := by
  intro p q
  rw [List.append_assoc, List.append_assoc, h, h', Ordering.then_assoc]

theorem cons (b : UInt8) (h : Settles order xs ys) : Settles order (b :: xs) (b :: ys) := by
  intro p q
  rw [List.cons_append, List.cons_append, List.compareLex_cons_cons, Std.compare_self, h]
  rfl

theorem of_lt {a b : UInt8} (h : compare a b = .lt) : Settles .lt (a :: xs) (b :: ys) := by
  intro p q
  rw [List.cons_append, List.cons_append, List.compareLex_cons_cons, h]
  rfl

theorem of_gt {a b : UInt8} (h : compare a b = .gt) : Settles .gt (a :: xs) (b :: ys) := by
  intro p q
  rw [List.cons_append, List.cons_append, List.compareLex_cons_cons, h]
  rfl

/-- Strings of one length settle their order. -/
theorem of_length (h : xs.length = ys.length) :
    Settles (List.compareLex compare xs ys) xs ys := by
  induction xs generalizing ys with
  | nil =>
      rw [List.length_eq_zero_iff.1 h.symm]
      exact nil
  | cons x xs ih =>
      cases ys with
      | nil => cases h
      | cons y ys =>
          intro p q
          rw [List.cons_append, List.cons_append, List.compareLex_cons_cons,
            List.compareLex_cons_cons, ih (Nat.succ.inj h), Ordering.then_assoc]

end Settles

/-! ## Sort keys -/

namespace SortKey

theorem escape_cons (b : UInt8) (raw : List UInt8) :
    escape (b :: raw) = escapeByte b ++ escape raw := by
  rw [escape, escape, List.flatMap_cons, List.append_assoc]

/-- A byte is one of the two that are escaped, or comes after them. -/
theorem byte_cases (b : UInt8) : b = 0 ∨ b = 1 ∨ 0 < b ∧ 1 < b := by
  rw [← UInt8.toNat_inj, ← UInt8.toNat_inj, UInt8.lt_iff_toNat_lt, UInt8.lt_iff_toNat_lt]
  simp only [UInt8.toNat_zero, UInt8.toNat_one]
  omega

theorem escapeByte_of_lt {b : UInt8} (h0 : 0 < b) (h1 : 1 < b) : escapeByte b = [b] := by
  rw [escapeByte, if_neg (UInt8.ne_of_lt h0).symm, if_neg (UInt8.ne_of_lt h1).symm]

/-- The bytes of an escaped byte are in the order of the byte. -/
theorem settles_escapeByte (a b : UInt8) : Settles (compare a b) (escapeByte a) (escapeByte b) := by
  rcases byte_cases a with rfl | rfl | ⟨ha0, ha1⟩
  · rcases byte_cases b with rfl | rfl | ⟨hb0, hb1⟩
    · exact (Settles.nil.cons 1).cons 1
    · exact (Settles.of_lt rfl).cons 1
    · rw [Std.compare_eq_lt.2 hb0, escapeByte_of_lt hb0 hb1]
      exact .of_lt (Std.compare_eq_lt.2 hb1)
  · rcases byte_cases b with rfl | rfl | ⟨hb0, hb1⟩
    · exact (Settles.of_gt rfl).cons 1
    · exact (Settles.nil.cons 2).cons 1
    · rw [Std.compare_eq_lt.2 hb1, escapeByte_of_lt hb0 hb1]
      exact .of_lt (Std.compare_eq_lt.2 hb1)
  · rcases byte_cases b with rfl | rfl | ⟨hb0, hb1⟩
    · rw [Std.compare_eq_gt.2 ha0, escapeByte_of_lt ha0 ha1]
      exact .of_gt (Std.compare_eq_gt.2 ha1)
    · rw [Std.compare_eq_gt.2 ha1, escapeByte_of_lt ha0 ha1]
      exact .of_gt (Std.compare_eq_gt.2 ha1)
    · rw [escapeByte_of_lt ha0 ha1, escapeByte_of_lt hb0 hb1]
      have hlength : Settles _ [a] [b] := .of_length rfl
      rwa [List.compareLex_cons_cons, List.compareLex_nil_nil, Ordering.then_eq] at hlength

/-- An escaped byte starts after the terminator. -/
theorem exists_escapeByte (b : UInt8) :
    ∃ first rest, escapeByte b = first :: rest ∧ compare 0 first = .lt := by
  rcases byte_cases b with rfl | rfl | ⟨h0, h1⟩
  · exact ⟨1, [1], rfl, rfl⟩
  · exact ⟨1, [2], rfl, rfl⟩
  · exact ⟨b, [], escapeByte_of_lt h0 h1, Std.compare_eq_lt.2 h0⟩

/-- Sort keys are in the order of the raw bytes. -/
theorem settles_escape (raw raw' : List UInt8) :
    Settles (List.compareLex compare raw raw') (escape raw) (escape raw') := by
  induction raw generalizing raw' with
  | nil =>
      cases raw' with
      | nil => exact .cons 0 .nil
      | cons b raw' =>
          -- The terminator comes before whatever the longer text goes on with.
          obtain ⟨first, rest, hb, hfirst⟩ := exists_escapeByte b
          rw [escape_cons, hb]
          exact .of_lt hfirst
  | cons a raw ih =>
      cases raw' with
      | nil =>
          obtain ⟨first, rest, ha, hfirst⟩ := exists_escapeByte a
          rw [escape_cons, ha]
          exact .of_gt (Std.OrientedCmp.gt_of_lt hfirst)
      | cons b raw' =>
          rw [escape_cons, escape_cons, List.compareLex_cons_cons]
          exact (settles_escapeByte a b).append (ih raw')

end SortKey

/-! ## Segments -/

namespace Segment

/-- The order of two segments: `NULL`, then integers by their values, then texts by the collation
of the first of the two. -/
def compare : Segment → Segment → Ordering
  | .null, .null => .eq
  | .null, _ => .lt
  | _, .null => .gt
  | .integer v, .integer w => Ord.compare v.toInt w.toInt
  | .integer _, .text .. => .lt
  | .text .., .integer _ => .gt
  | .text collation s, .text _ t => collation.compare s t

/-- Whether two segments may stand at the same position: two texts need the same collation. -/
def sharesCollation : Segment → Segment → Bool
  | .text collation _, .text collation' _ => collation == collation'
  | _, _ => true

/-- Two segments that a key does not tell apart: texts only have to be equal for their collation. -/
inductive Same : Segment → Segment → Prop where
  | null : Same .null .null
  | integer (value : Int64) : Same (.integer value) (.integer value)
  | text {collation : Collation} {s t : String} (equal : collation.compare s t = .eq) :
      Same (.text collation s) (.text collation t)

variable {x y : Segment}

/-- The bytes of a segment settle its order. -/
theorem settles_bytes (h : x.sharesCollation y = true) : Settles (x.compare y) x.bytes y.bytes := by
  cases x with
  | null =>
      cases y with
      | null => exact .cons _ .nil
      | integer w => exact .of_lt rfl
      | text d t => exact .of_lt rfl
  | integer v =>
      cases y with
      | null => exact .of_gt rfl
      | integer w =>
          have hbody : Settles _ (encodeInteger v) (encodeInteger w) := .of_length (by simp)
          rw [compareLex_encodeInteger] at hbody
          exact hbody.cons _
      | text d t => exact .of_lt rfl
  | text c s =>
      cases y with
      | null => exact .of_gt rfl
      | integer w => exact .of_gt rfl
      | text d t =>
          obtain rfl : c = d := by simpa [sharesCollation] using h
          exact (SortKey.settles_escape _ _).cons _

theorem compare_eq_eq_iff (h : x.sharesCollation y = true) : x.compare y = .eq ↔ x.Same y := by
  constructor
  · intro heq
    cases x with
    | null =>
        cases y with
        | null => exact .null
        | integer w => cases heq
        | text d t => cases heq
    | integer v =>
        cases y with
        | null => cases heq
        | integer w =>
            obtain rfl := Int64.toInt_inj.1 (Std.compare_eq_iff_eq.1 heq)
            exact .integer v
        | text d t => cases heq
    | text c s =>
        cases y with
        | null => cases heq
        | integer w => cases heq
        | text d t =>
            obtain rfl : c = d := by simpa [sharesCollation] using h
            exact .text heq
  · intro hsame
    cases hsame with
    | null => rfl
    | integer v => exact Std.compare_self
    | text equal => exact equal

end Segment

/-! ## Keys -/

namespace Key

/-- The key of segments, added one after the other. -/
def ofSegments (segments : List Segment) : Key := segments.foldl append empty

theorem bytes_foldl_append (segments : List Segment) (k : Key) :
    (segments.foldl append k).bytes = k.bytes ++ segments.flatMap Segment.bytes := by
  induction segments generalizing k with
  | nil => exact (List.append_nil _).symm
  | cons s segments ih =>
      rw [List.foldl_cons, ih, bytes_append, List.flatMap_cons, List.append_assoc]

theorem bytes_ofSegments (segments : List Segment) :
    (ofSegments segments).bytes = segments.flatMap Segment.bytes :=
  bytes_foldl_append segments empty

/-- Whether texts that stand at the same position of two sequences have the same collation. -/
def SharesCollations (a b : List Segment) : Prop :=
  ∀ p ∈ a.zip b, p.1.sharesCollation p.2 = true

instance (a b : List Segment) : Decidable (SharesCollations a b) :=
  inferInstanceAs (Decidable (∀ p ∈ a.zip b, p.1.sharesCollation p.2 = true))

variable {a b : List Segment}

theorem compareLex_flatMap (h : SharesCollations a b) :
    List.compareLex compare (a.flatMap Segment.bytes) (b.flatMap Segment.bytes) =
      List.compareLex Segment.compare a b := by
  induction a generalizing b with
  | nil =>
      cases b with
      | nil => rfl
      | cons y b => rfl
  | cons x a ih =>
      cases b with
      | nil => rfl
      | cons y b =>
          rw [SharesCollations, List.zip_cons_cons, List.forall_mem_cons] at h
          rw [List.flatMap_cons, List.flatMap_cons, Segment.settles_bytes h.1, ih h.2,
            List.compareLex_cons_cons]

theorem compareLex_eq_eq_iff (h : SharesCollations a b) :
    List.compareLex Segment.compare a b = .eq ↔ List.Forall₂ Segment.Same a b := by
  induction a generalizing b with
  | nil =>
      cases b with
      | nil => exact ⟨fun _ => .nil, fun _ => rfl⟩
      | cons y b => exact ⟨nofun, nofun⟩
  | cons x a ih =>
      cases b with
      | nil => exact ⟨nofun, nofun⟩
      | cons y b =>
          rw [SharesCollations, List.zip_cons_cons, List.forall_mem_cons] at h
          rw [List.compareLex_cons_cons, Ordering.then_eq_eq, Segment.compare_eq_eq_iff h.1,
            ih h.2, List.forall₂_cons]

/-- The bytes of keys are in the order of their segments, and equal if no segments differ. -/
theorem compareLex_ofSegments (h : SharesCollations a b) :
    List.compareLex compare (ofSegments a).bytes (ofSegments b).bytes =
        List.compareLex Segment.compare a b ∧
      ((ofSegments a).bytes = (ofSegments b).bytes ↔ List.Forall₂ Segment.Same a b) := by
  have horder := compareLex_flatMap h
  rw [← bytes_ofSegments, ← bytes_ofSegments] at horder
  refine ⟨horder, ?_⟩
  rw [← compareLex_eq_eq_iff h, ← horder]
  exact Std.LawfulEqCmp.compare_eq_iff_eq.symm

/-- A text that ends in NUL comes after the text without it, whatever follows the two. -/
theorem compareLex_ofSegments_nul :
    SharesCollations [.integer (-1), .text .ucsBinary "a\x00", .null]
        [.integer (-1), .text .ucsBinary "a", .integer 5] ∧
      List.compareLex compare
          (ofSegments [.integer (-1), .text .ucsBinary "a\x00", .null]).bytes
          (ofSegments [.integer (-1), .text .ucsBinary "a", .integer 5]).bytes = .gt := by
  have h : SharesCollations [.integer (-1), .text .ucsBinary "a\x00", .null]
      [.integer (-1), .text .ucsBinary "a", .integer 5] := by decide
  exact ⟨h, (compareLex_ofSegments h).1.trans (by decide)⟩

end Key

end QueryPlanner

import QueryPlanner.Proofs.Except
import QueryPlanner.Proofs.Key.Order

/-!
# Reading keys back

Whoever asks for the kind of the next segment and decodes it accordingly, until the key ends, gets
back the segments that the key was made of.  A segment is followed by the tag of the next one: an
integer has eight bytes, and a text ends at the first zero, which its sort key holds nowhere else.

Main statements: `segments_ofSegments`, and `decodeSortKey_append` for a sort key between other
bytes.
-/

namespace QueryPlanner

/-! ## Sort keys -/

namespace SortKey

theorem ne_zero_of_mem_escapeByte {b c : UInt8} (h : c ∈ escapeByte b) : c ≠ 0 := by
  rcases byte_cases b with rfl | rfl | ⟨h0, h1⟩
  · simp [escapeByte] at h
    simp [h]
  · simp [escapeByte] at h
    rcases h with rfl | rfl <;> decide
  · rw [escapeByte_of_lt h0 h1, List.mem_singleton] at h
    rw [h]
    exact (UInt8.ne_of_lt h0).symm

/-- A sort key ends at its first zero. -/
theorem takeWhile_escape (raw rest : List UInt8) :
    (escape raw ++ rest).takeWhile (· != 0) = raw.flatMap escapeByte := by
  have hbody : ∀ c ∈ raw.flatMap escapeByte, (c != 0) = true := by
    intro c hc
    obtain ⟨b, -, hb⟩ := List.mem_flatMap.1 hc
    exact bne_iff_ne.2 (ne_zero_of_mem_escapeByte hb)
  rw [escape, List.append_assoc, List.takeWhile_append_of_pos hbody]
  simp

theorem length_escape (raw : List UInt8) :
    (escape raw).length = (raw.flatMap escapeByte).length + 1 := by
  rw [escape, List.length_append, List.length_singleton]

end SortKey

namespace Collation

theorem eq_ucsBinary_of_isRecoverable {c : Collation} (h : c.isRecoverable = true) :
    c = .ucsBinary := by
  cases c with
  | ucsBinary => rfl
  | enUsCi => cases h

/-- A sort key is decoded from wherever it stands. -/
theorem decodeSortKey_append (p q : List UInt8) (s : String) :
    ucsBinary.decodeSortKey (p ++ ucsBinary.sortKey s ++ q) p.length (ucsBinary.sortKey s).length =
      .ok s := by
  have hself := decodeSortKey_sortKey s
  have hle : p.length + (ucsBinary.sortKey s).length ≤
      (p ++ ucsBinary.sortKey s ++ q).length := by
    rw [List.length_append, List.length_append]
    exact Nat.le_add_right _ _
  have hslice : ((p ++ ucsBinary.sortKey s ++ q).drop p.length).take (ucsBinary.sortKey s).length =
      ucsBinary.sortKey s := by
    rw [List.append_assoc, List.drop_left, List.take_left]
  rw [decodeSortKey, if_pos (Nat.le_of_eq (Nat.zero_add _)), List.drop_zero,
    List.take_length] at hself
  rw [decodeSortKey, if_pos hle, hslice]
  exact hself

end Collation

/-- Whether a segment can be read back. -/
def Segment.isRecoverable : Segment → Bool
  | .text c _ => c.isRecoverable
  | _ => true

/-! ## The cursor -/

namespace Key

/-- The bytes behind the cursor. -/
def unread (k : Key) : List UInt8 := k.bytes.drop k.cursor

/-- The key with its cursor moved over some bytes. -/
def skip (k : Key) (count : Nat) : Key := { k with cursor := k.cursor + count }

@[simp] theorem bytes_skip (k : Key) (count : Nat) : (k.skip count).bytes = k.bytes := rfl

@[simp] theorem skip_skip (k : Key) (m n : Nat) : (k.skip m).skip n = k.skip (m + n) := by
  simp [skip, Nat.add_assoc]

theorem unread_skip (k : Key) (count : Nat) : (k.skip count).unread = k.unread.drop count := by
  simp [unread, skip, List.drop_drop]

theorem unread_skip_append {k : Key} {read rest : List UInt8} (h : k.unread = read ++ rest) :
    (k.skip read.length).unread = rest := by
  rw [unread_skip, h, List.drop_left]

theorem getElem?_cursor (k : Key) : k.bytes[k.cursor]? = k.unread.head? := by
  rw [unread, List.head?_drop]

variable {k : Key} {rest : List UInt8}

theorem peek_of_unread_nil (h : k.unread = []) : k.peek = .ok none := by
  rw [peek, getElem?_cursor, h]
  rfl

theorem peek_of_unread {s : Segment} (h : k.unread = s.bytes ++ rest) :
    k.peek = .ok (some s.kind) := by
  rw [peek, getElem?_cursor, h, Segment.bytes, List.cons_append, List.head?_cons]
  simp only [SegmentKind.ofTag?_tag]

theorem readTag_of_unread (kind : SegmentKind) (h : k.unread = kind.tag :: rest) :
    k.readTag kind = .ok (k.skip 1) := by
  rw [readTag, getElem?_cursor, h, List.head?_cons]
  exact if_pos rfl

theorem readTag_eq_ok_iff {kind : SegmentKind} {k' : Key} :
    k.readTag kind = .ok k' ↔ k.bytes[k.cursor]? = some kind.tag ∧ k' = k.skip 1 := by
  unfold readTag
  split
  next hend => simp [hend]
  next b hb =>
    by_cases htag : b = kind.tag
    · simp [hb, htag, skip, eq_comm]
    · simp [hb, htag]

/-! ## Decoding one segment -/

theorem decodeNull_of_unread (h : k.unread = Segment.null.bytes ++ rest) :
    k.decodeNull = (.ok (), k.skip Segment.null.bytes.length) := by
  rw [decodeNull, readTag_of_unread .null h]
  rfl

theorem decodeInteger_of_unread {value : Int64}
    (h : k.unread = (Segment.integer value).bytes ++ rest) :
    k.decodeInteger = (.ok value, k.skip (Segment.integer value).bytes.length) := by
  have hrest : (k.skip 1).unread = Segment.encodeInteger value ++ rest := by
    rw [unread_skip, h]
    rfl
  have hdigits : (k.skip 1).unread.take 8 = Segment.encodeInteger value := by
    rw [hrest, ← Segment.length_encodeInteger value, List.take_left]
  rw [unread] at hdigits
  rw [decodeInteger, readTag_of_unread .integer h]
  simp only [hdigits, Segment.length_encodeInteger, if_true, Segment.decodeInteger_encodeInteger]
  rfl

theorem decodeText_of_unread {s : String}
    (h : k.unread = (Segment.text .ucsBinary s).bytes ++ rest) :
    k.decodeText .ucsBinary = (.ok s, k.skip (Segment.text .ucsBinary s).bytes.length) := by
  have hrest : (k.skip 1).unread = Collation.ucsBinary.sortKey s ++ rest := by
    rw [unread_skip, h]
    rfl
  have hlength : ((k.skip 1).unread.takeWhile (· != 0)).length + 1 =
      (Collation.ucsBinary.sortKey s).length := by
    rw [hrest, Collation.sortKey, SortKey.takeWhile_escape, SortKey.length_escape]
  have hle : (Collation.ucsBinary.sortKey s).length ≤ (k.skip 1).unread.length := by
    rw [hrest, List.length_append]
    exact Nat.le_add_right _ _
  have htake : (k.skip 1).unread.take (Collation.ucsBinary.sortKey s).length =
      Collation.ucsBinary.sortKey s := by
    rw [hrest, List.take_left]
  rw [unread] at hlength hle htake
  rw [decodeText, readTag_of_unread .text h]
  simp only [hlength, hle, htake, Collation.isRecoverable, if_true, Collation.decodeSortKey_sortKey]
  rw [Segment.bytes, List.length_cons, Nat.add_comm _ 1, ← skip_skip]
  rfl

/-! ## Decoding all segments -/

/-- Asks for the kind of the next segment and decodes it, `none` at the end of the key.  Texts are
those of the given collation. -/
def next (k : Key) (c : Collation) : Except CollationError (Option Segment) × Key :=
  match k.peek with
  | .error e => (.error e, k)
  | .ok none => (.ok none, k)
  | .ok (some .null) => (k.decodeNull.1.map fun _ => some .null, k.decodeNull.2)
  | .ok (some .integer) =>
      (k.decodeInteger.1.map fun value => some (.integer value), k.decodeInteger.2)
  | .ok (some .text) => ((k.decodeText c).1.map fun s => some (.text c s), (k.decodeText c).2)

theorem next_of_unread_nil (h : k.unread = []) (c : Collation) : k.next c = (.ok none, k) := by
  rw [next, peek_of_unread_nil h]

/-- Decoding a segment gives it back and leaves the cursor at the next one. -/
theorem next_of_unread {s : Segment} (h : k.unread = s.bytes ++ rest)
    (hs : s.isRecoverable = true) :
    k.next .ucsBinary = (.ok (some s), k.skip s.bytes.length) := by
  rw [next, peek_of_unread h]
  cases s with
  | null =>
      simp only [Segment.kind, decodeNull_of_unread h]
      rfl
  | integer value =>
      simp only [Segment.kind, decodeInteger_of_unread h]
      rfl
  | text c s =>
      obtain rfl := Collation.eq_ucsBinary_of_isRecoverable hs
      simp only [Segment.kind, decodeText_of_unread h]
      rfl

theorem unread_ne_nil_of_peek {kind : SegmentKind} (h : k.peek = .ok (some kind)) :
    k.unread ≠ [] := by
  intro hnil
  rw [peek_of_unread_nil hnil] at h
  cases h

theorem eq_skip_of_readTag {kind : SegmentKind} {k' : Key} (h : k.readTag kind = .ok k') :
    k' = k.skip 1 := (readTag_eq_ok_iff.1 h).2

theorem eq_skip_of_decodeNull {k' : Key} (h : k.decodeNull = (.ok (), k')) : k' = k.skip 1 := by
  unfold decodeNull at h
  split at h
  next => cases h
  next tagged htag =>
    cases h
    exact eq_skip_of_readTag htag

theorem eq_skip_of_decodeInteger {value : Int64} {k' : Key}
    (h : k.decodeInteger = (.ok value, k')) : k' = k.skip 9 := by
  unfold decodeInteger at h
  split at h
  next => cases h
  next tagged htag =>
    obtain rfl := eq_skip_of_readTag htag
    dsimp only at h
    split at h
    · cases h
      rfl
    · cases h

theorem exists_skip_of_decodeText {c : Collation} {s : String} {k' : Key}
    (h : k.decodeText c = (.ok s, k')) : ∃ count, k' = k.skip (count + 1) := by
  unfold decodeText at h
  split at h
  next =>
    split at h
    next => cases h
    next tagged htag =>
      obtain rfl := eq_skip_of_readTag htag
      dsimp only at h
      split at h
      · exact ⟨_, (Prod.mk.inj h).2.symm.trans (skip_skip k 1 (_ + 1))⟩
      · cases h
  next => cases h

/-- Decoding a segment moves the cursor forward. -/
theorem exists_skip_of_next {c : Collation} {s : Segment} {k' : Key}
    (h : k.next c = (.ok (some s), k')) : k.unread ≠ [] ∧ ∃ count, k' = k.skip (count + 1) := by
  unfold next at h
  split at h
  next => cases h
  next => cases h
  next hpeek =>
    refine ⟨unread_ne_nil_of_peek hpeek, 0, ?_⟩
    rw [Prod.mk.injEq, map_eq_ok] at h
    obtain ⟨⟨_, hvalue, -⟩, hk⟩ := h
    exact eq_skip_of_decodeNull (Prod.ext hvalue hk)
  next hpeek =>
    refine ⟨unread_ne_nil_of_peek hpeek, 8, ?_⟩
    rw [Prod.mk.injEq, map_eq_ok] at h
    obtain ⟨⟨_, hvalue, -⟩, hk⟩ := h
    exact eq_skip_of_decodeInteger (Prod.ext hvalue hk)
  next hpeek =>
    refine ⟨unread_ne_nil_of_peek hpeek, ?_⟩
    rw [Prod.mk.injEq, map_eq_ok] at h
    obtain ⟨⟨_, hvalue, -⟩, hk⟩ := h
    exact exists_skip_of_decodeText (Prod.ext hvalue hk)

theorem length_unread_lt {c : Collation} {s : Segment} {k' : Key}
    (h : k.next c = (.ok (some s), k')) : k'.unread.length < k.unread.length := by
  obtain ⟨hunread, count, rfl⟩ := exists_skip_of_next h
  have hpos := List.length_pos_iff.2 hunread
  rw [unread_skip, List.length_drop]
  omega

/-- Decodes segments until the key ends. -/
def segments (k : Key) (c : Collation) : Except CollationError (List Segment) × Key :=
  match h : k.next c with
  | (.error e, k') => (.error e, k')
  | (.ok none, k') => (.ok [], k')
  | (.ok (some s), k') =>
      have := length_unread_lt h
      ((k'.segments c).1.map (s :: ·), (k'.segments c).2)
termination_by k.unread.length

theorem segments_eq (k : Key) (c : Collation) :
    k.segments c = match k.next c with
      | (.error e, k') => (.error e, k')
      | (.ok none, k') => (.ok [], k')
      | (.ok (some s), k') => ((k'.segments c).1.map (s :: ·), (k'.segments c).2) := by
  rw [segments]
  split <;> simp only [*]

/-- Decoding the segments behind the cursor gives them back and leaves the cursor at the end. -/
theorem segments_of_unread {l : List Segment} (h : k.unread = l.flatMap Segment.bytes)
    (hl : ∀ s ∈ l, s.isRecoverable = true) :
    k.segments .ucsBinary = (.ok l, k.skip (l.flatMap Segment.bytes).length) := by
  induction l generalizing k with
  | nil =>
      rw [segments_eq, next_of_unread_nil h]
      rfl
  | cons s l ih =>
      rw [List.forall_mem_cons] at hl
      rw [List.flatMap_cons] at h
      have hrest := ih (unread_skip_append h) hl.2
      rw [segments_eq, next_of_unread h hl.1, List.flatMap_cons, List.length_append, ← skip_skip]
      simp only [hrest]
      rfl

/-- The segments of a key are decoded from its start, its bytes stay as they are, and nothing is
left.  A sort key is decoded from wherever it stands among other bytes. -/
theorem segments_ofSegments :
    (∀ l : List Segment, (∀ s ∈ l, s.isRecoverable = true) →
        ∃ k, (ofSegments l).reset.segments .ucsBinary = (.ok l, k) ∧
          k.peek = .ok none ∧ k.bytes = (ofSegments l).bytes) ∧
      ∀ (p q : List UInt8) (s : String),
        Collation.ucsBinary.decodeSortKey (p ++ Collation.ucsBinary.sortKey s ++ q) p.length
          (Collation.ucsBinary.sortKey s).length = .ok s := by
  refine ⟨fun l hl => ?_, Collation.decodeSortKey_append⟩
  have hunread : (ofSegments l).reset.unread = l.flatMap Segment.bytes := bytes_ofSegments l
  refine ⟨_, segments_of_unread hunread hl, peek_of_unread_nil ?_, rfl⟩
  rw [unread_skip, hunread, List.drop_length]

/-- A key with every kind of segment, the text among them with a zero inside. -/
theorem segments_ofSegments_nul :
    (∀ s ∈ [Segment.integer (-1), .text .ucsBinary "a\x00", .null], s.isRecoverable = true) ∧
      ∃ k, (ofSegments [.integer (-1), .text .ucsBinary "a\x00", .null]).reset.segments .ucsBinary =
          (.ok [.integer (-1), .text .ucsBinary "a\x00", .null], k) ∧
        k.peek = .ok none ∧
        k.bytes = (ofSegments [.integer (-1), .text .ucsBinary "a\x00", .null]).bytes := by
  have h : ∀ s ∈ [Segment.integer (-1), .text .ucsBinary "a\x00", .null],
      s.isRecoverable = true := by decide
  exact ⟨h, segments_ofSegments.1 _ h⟩

end Key

end QueryPlanner

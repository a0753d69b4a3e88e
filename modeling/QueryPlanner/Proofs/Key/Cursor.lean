import QueryPlanner.Proofs.Key.Escaping

/-!
# Reading any bytes

A key may be made of any bytes, and calls may follow each other in any order.  A decoding gives a
segment exactly if the bytes of that segment stand at the cursor, and then it moves the cursor over
them.  A refused decoding leaves the cursor where it is, unless the tag has been read: then the
cursor is behind the tag, or behind the terminator of a text that cannot be decoded.  So the cursor
never leaves the bytes, whatever is done after a failure.

Main statement: `Key.calls_within`.
-/

namespace QueryPlanner

/-- Whether an error says that a range does not lie within the bytes. -/
def CollationError.isOutside : CollationError → Bool
  | .malformedKey (.outside ..) => true
  | _ => false

/-! ## Terminated bytes -/

namespace SortKey

/-- Bytes with a zero among them are cut at the first one. -/
theorem take_takeWhile {bytes : List UInt8}
    (h : (bytes.takeWhile (· != 0)).length + 1 ≤ bytes.length) :
    bytes.take ((bytes.takeWhile (· != 0)).length + 1) = bytes.takeWhile (· != 0) ++ [0] := by
  have hsplit : bytes.takeWhile (· != 0) ++ bytes.dropWhile (· != 0) = bytes :=
    List.takeWhile_append_dropWhile
  cases hdrop : bytes.dropWhile (· != 0) with
  | nil =>
      rw [hdrop, List.append_nil] at hsplit
      rw [hsplit] at h
      omega
  | cons b rest =>
      have hzero := List.head?_dropWhile_not (· != 0) bytes
      simp only [hdrop, List.head?_cons, bne_eq_false_iff_eq] at hzero
      rw [hdrop, hzero] at hsplit
      generalize bytes.takeWhile (· != 0) = body at hsplit ⊢
      rw [← hsplit, List.take_length_add_append]
      rfl

theorem isOutside_of_unescape {key : List UInt8} {fault : KeyFault}
    (h : unescape key = .error fault) : (CollationError.malformedKey fault).isOutside = false := by
  have hfault := mem_faults_of_unescape h
  simp only [List.mem_cons, List.not_mem_nil, or_false] at hfault
  rcases hfault with rfl | rfl <;> rfl

end SortKey

namespace Collation

/-- Terminated bytes are decoded as the text whose sort key they are. -/
theorem decodeSortKey_eq_ok_iff {body : List UInt8} {s : String} :
    ucsBinary.decodeSortKey (body ++ [0]) 0 (body ++ [0]).length = .ok s ↔
      body ++ [0] = ucsBinary.sortKey s := by
  constructor
  · intro h
    simp only [decodeSortKey, isRecoverable, if_true, Nat.zero_add, Nat.le_refl, List.drop_zero,
      List.take_length] at h
    split at h
    next => cases h
    next raw hraw =>
      split at h
      next s' hs =>
        cases h
        obtain rfl := Text.eq_utf8_of_ofUtf8? hs
        rcases SortKey.unescape_eq_ok_iff.1 hraw with hkey | hkey
        · exact hkey
        · -- A sort key has no second terminator in front of its last byte.
          rw [SortKey.escape, List.append_left_inj] at hkey
          exact absurd (hkey ▸ List.mem_concat_self) (SortKey.zero_not_mem_flatMap_escapeByte _)
      next => cases h
  · intro h
    rw [h]
    exact decodeSortKey_sortKey s

theorem isOutside_of_decodeSortKey {key : List UInt8} {e : CollationError}
    (h : ucsBinary.decodeSortKey key 0 key.length = .error e) : e.isOutside = false := by
  simp only [decodeSortKey, isRecoverable, if_true, Nat.zero_add, Nat.le_refl, List.drop_zero,
    List.take_length] at h
  split at h
  next fault hfault =>
    cases h
    exact SortKey.isOutside_of_unescape hfault
  next =>
    split at h
    · cases h
    · cases h
      rfl

end Collation

namespace Key

/-! ## Calls -/

/-- What a decoding asks for. -/
inductive Decoding where
  | null
  | integer
  | text (collation : Collation)
  deriving DecidableEq

/-- The kind of segment that is asked for. -/
def Decoding.kind : Decoding → SegmentKind
  | .null => .null
  | .integer => .integer
  | .text _ => .text

/-- Decodes the segment at the cursor. -/
def decode (k : Key) : Decoding → Except CollationError Segment × Key
  | .null => (k.decodeNull.1.map fun _ => .null, k.decodeNull.2)
  | .integer => (k.decodeInteger.1.map .integer, k.decodeInteger.2)
  | .text c => ((k.decodeText c).1.map (.text c), (k.decodeText c).2)

/-- What can be done with a key. -/
inductive Call where
  | append (s : Segment)
  | reset
  | clear
  | peek
  | decode (d : Decoding)

/-- The key that a call leaves behind. -/
def after (k : Key) : Call → Key
  | .append s => k.append s
  | .reset => k.reset
  | .clear => empty
  | .peek => k
  | .decode d => (k.decode d).2

end Key

/-- The decoding that asks for a segment. -/
def Segment.decoding : Segment → Key.Decoding
  | .null => .null
  | .integer _ => .integer
  | .text c _ => .text c

namespace Key

/-! ## One decoding -/

/-- All that a decoding can do: give the segment at the cursor and move over it, refuse, or refuse
after the tag has been read. -/
inductive Decodes (k : Key) (d : Decoding) : Except CollationError Segment → Key → Prop where
  | segment {s : Segment} (asked : s.decoding = d) (recoverable : s.isRecoverable = true)
      (stands : s.bytes <+: k.unread) : Decodes k d (.ok s) (k.skip s.bytes.length)
  | refused {e : CollationError} (inside : e.isOutside = false) : Decodes k d (.error e) k
  | broken {e : CollationError} {count : Nat} (inside : e.isOutside = false)
      (tag : k.bytes[k.cursor]? = some d.kind.tag)
      (within : k.cursor + count ≤ k.bytes.length) : Decodes k d (.error e) (k.skip count)

variable {k : Key} {d : Decoding}

theorem unread_of_tag {b : UInt8} (h : k.bytes[k.cursor]? = some b) :
    k.unread = b :: (k.skip 1).unread := by
  rw [getElem?_cursor] at h
  obtain ⟨rest, hrest⟩ := List.head?_eq_some_iff.1 h
  rw [unread_skip, hrest]
  rfl

theorem cursor_lt_of_tag {b : UInt8} (h : k.bytes[k.cursor]? = some b) :
    k.cursor < k.bytes.length := (List.getElem?_eq_some_iff.1 h).1

/-- Bytes that stand at the cursor do not reach beyond the end. -/
theorem cursor_add_length_le {read : List UInt8} (hne : read ≠ []) (h : read <+: k.unread) :
    k.cursor + read.length ≤ k.bytes.length := by
  have hlength := h.length_le
  have hpos := List.length_pos_iff.2 hne
  rw [unread, List.length_drop] at hlength
  omega

theorem isOutside_of_readTag {kind : SegmentKind} {e : CollationError}
    (h : k.readTag kind = .error e) : e.isOutside = false := by
  unfold readTag at h
  split at h
  · cases h
    rfl
  · split at h
    · cases h
    · cases h
      rfl

theorem decodes_null (k : Key) : Decodes k .null (k.decode .null).1 (k.decode .null).2 := by
  unfold decode decodeNull
  cases htag : k.readTag .null with
  | error e => exact .refused (isOutside_of_readTag htag)
  | ok tagged =>
      obtain ⟨hbyte, rfl⟩ := readTag_eq_ok_iff.1 htag
      exact .segment rfl rfl ⟨_, (unread_of_tag hbyte).symm⟩

theorem decodes_integer (k : Key) :
    Decodes k .integer (k.decode .integer).1 (k.decode .integer).2 := by
  unfold decode decodeInteger
  cases htag : k.readTag .integer with
  | error e => exact .refused (isOutside_of_readTag htag)
  | ok tagged =>
      obtain ⟨hbyte, rfl⟩ := readTag_eq_ok_iff.1 htag
      dsimp only
      rw [← unread]
      split
      next hlength =>
        have hbytes : (Segment.integer (Segment.decodeInteger ((k.skip 1).unread.take 8))).bytes =
            SegmentKind.integer.tag :: (k.skip 1).unread.take 8 := by
          rw [Segment.bytes, Segment.body, Segment.encodeInteger_decodeInteger hlength]
          rfl
        refine .segment rfl rfl ?_
        rw [hbytes, unread_of_tag hbyte]
        exact (List.prefix_cons_inj _).2 (List.take_prefix 8 _)
      next => exact .broken rfl hbyte (cursor_lt_of_tag hbyte)

theorem decodes_text (k : Key) (c : Collation) :
    Decodes k (.text c) (k.decode (.text c)).1 (k.decode (.text c)).2 := by
  unfold decode decodeText
  dsimp only
  split
  next hrecoverable =>
    obtain rfl := Collation.eq_ucsBinary_of_isRecoverable hrecoverable
    cases htag : k.readTag .text with
    | error e => exact .refused (isOutside_of_readTag htag)
    | ok tagged =>
        obtain ⟨hbyte, rfl⟩ := readTag_eq_ok_iff.1 htag
        dsimp only
        rw [← unread]
        split
        next hterminated =>
          have hread := SortKey.take_takeWhile hterminated
          generalize (k.skip 1).unread.takeWhile (· != 0) = body at *
          have hstands : SegmentKind.text.tag :: (body ++ [0]) <+: k.unread := by
            rw [unread_of_tag hbyte, ← hread]
            exact (List.prefix_cons_inj _).2 (List.take_prefix _ _)
          have hlength : body.length + 1 = (body ++ [0]).length := by simp
          rw [hread, hlength, ← skip, skip_skip, Nat.add_comm 1]
          cases hvalue : Collation.ucsBinary.decodeSortKey (body ++ [0]) 0 (body ++ [0]).length with
          | error e =>
              refine .broken (Collation.isOutside_of_decodeSortKey hvalue) hbyte ?_
              exact cursor_add_length_le (List.cons_ne_nil _ _) hstands
          | ok s =>
              rw [Collation.decodeSortKey_eq_ok_iff.1 hvalue] at hstands ⊢
              exact .segment rfl rfl hstands
        next => exact .broken rfl hbyte (cursor_lt_of_tag hbyte)
  next => exact .refused rfl

/-- What a decoding does. -/
theorem decodes (k : Key) (d : Decoding) : Decodes k d (k.decode d).1 (k.decode d).2 := by
  cases d with
  | null => exact decodes_null k
  | integer => exact decodes_integer k
  | text c => exact decodes_text k c

/-- A segment is given exactly if it can be read back and its bytes stand at the cursor. -/
theorem decode_eq_ok_iff {s : Segment} :
    (k.decode d).1 = .ok s ↔
      s.decoding = d ∧ s.isRecoverable = true ∧ s.bytes <+: k.unread := by
  constructor
  · intro h
    have hdecodes := k.decodes d
    rw [h] at hdecodes
    generalize (k.decode d).2 = k' at hdecodes
    cases hdecodes with
    | segment asked recoverable stands => exact ⟨asked, recoverable, stands⟩
  · rintro ⟨rfl, hrecoverable, rest, hrest⟩
    cases s with
    | null =>
        rw [Segment.decoding, decode, decodeNull_of_unread hrest.symm]
        rfl
    | integer value =>
        rw [Segment.decoding, decode, decodeInteger_of_unread hrest.symm]
        rfl
    | text c s =>
        obtain rfl := Collation.eq_ucsBinary_of_isRecoverable hrecoverable
        rw [Segment.decoding, decode, decodeText_of_unread hrest.symm]
        rfl

namespace Decodes

variable {outcome : Except CollationError Segment} {k' : Key}

theorem bytes_eq (h : Decodes k d outcome k') : k'.bytes = k.bytes := by
  cases h with
  | segment asked recoverable stands => rfl
  | refused inside => rfl
  | broken inside tag within => rfl

theorem cursor_le (h : Decodes k d outcome k') : k.cursor ≤ k'.cursor := by
  cases h with
  | segment asked recoverable stands => exact Nat.le_add_right _ _
  | refused inside => exact Nat.le_refl _
  | broken inside tag within => exact Nat.le_add_right _ _

theorem cursor_le_length (h : Decodes k d outcome k') (hk : k.cursor ≤ k.bytes.length) :
    k'.cursor ≤ k.bytes.length := by
  cases h with
  | segment asked recoverable stands => exact cursor_add_length_le (List.cons_ne_nil _ _) stands
  | refused inside => exact hk
  | broken inside tag within => exact within

end Decodes

/-! ## Any calls -/

/-- A call leaves the cursor within the bytes. -/
theorem cursor_le_after (call : Call) (h : k.cursor ≤ k.bytes.length) :
    (k.after call).cursor ≤ (k.after call).bytes.length := by
  cases call with
  | append s =>
      rw [after, cursor_append, bytes_append, List.length_append]
      omega
  | reset => exact Nat.zero_le _
  | clear => exact Nat.zero_le _
  | peek => exact h
  | decode d =>
      rw [after, (k.decodes d).bytes_eq]
      exact (k.decodes d).cursor_le_length h

/-- Calls leave the cursor within the bytes. -/
theorem cursor_le_foldl_after (calls : List Call) (h : k.cursor ≤ k.bytes.length) :
    (calls.foldl after k).cursor ≤ (calls.foldl after k).bytes.length := by
  induction calls generalizing k with
  | nil => exact h
  | cons call calls ih => exact ih (cursor_le_after call h)

/-- Whatever was done with a key of any bytes before, the cursor is within the bytes, also behind a
tag.  Asking for the kind of a segment and decoding one do not change the bytes.  A decoding gives
the segment that stands at the cursor and moves over its bytes; one that fails never looked outside
the bytes, and has moved the cursor only if the tag was the right one. -/
theorem calls_within (bytes : List UInt8) (calls : List Call) (d : Decoding) :
    let k := calls.foldl after (ofBytes bytes)
    let k' := (k.decode d).2
    k.cursor ≤ k.bytes.length ∧
      (∀ kind tagged, k.readTag kind = .ok tagged → tagged.cursor ≤ k.bytes.length) ∧
      (k.after .peek).bytes = k.bytes ∧
      k'.bytes = k.bytes ∧ k.cursor ≤ k'.cursor ∧ k'.cursor ≤ k.bytes.length ∧
      (∀ s, (k.decode d).1 = .ok s ↔
        s.decoding = d ∧ s.isRecoverable = true ∧ s.bytes <+: k.unread) ∧
      match (k.decode d).1 with
      | .ok s => k'.cursor = k.cursor + s.bytes.length
      | .error e =>
          e.isOutside = false ∧
            (k'.cursor = k.cursor ∨ k.bytes[k.cursor]? = some d.kind.tag) := by
  intro k k'
  have hcursor : k.cursor ≤ k.bytes.length :=
    cursor_le_foldl_after calls (Nat.zero_le bytes.length)
  have hdecodes : Decodes k d (k.decode d).1 k' := k.decodes d
  refine ⟨hcursor, fun kind tagged htag => ?_, rfl, hdecodes.bytes_eq, hdecodes.cursor_le,
    hdecodes.cursor_le_length hcursor, fun s => decode_eq_ok_iff, ?_⟩
  · obtain ⟨hbyte, rfl⟩ := readTag_eq_ok_iff.1 htag
    exact cursor_lt_of_tag hbyte
  · generalize (k.decode d).1 = outcome at hdecodes
    generalize k' = left at hdecodes
    cases hdecodes with
    | segment asked recoverable stands => rfl
    | refused inside => exact ⟨inside, .inl rfl⟩
    | broken inside tag within => exact ⟨inside, .inr tag⟩

/-- A text without terminator is refused behind its tag, and what stands there is read next. -/
theorem calls_within_unterminated :
    let k := [Call.decode (.text .ucsBinary)].foldl after (ofBytes [0x20, 0x10])
    k.readTag .integer = .ok { bytes := [0x20, 0x10], cursor := 2 } ∧
      2 ≤ k.bytes.length ∧ (k.decode .integer).2.cursor ≤ k.bytes.length := by
  intro k
  have htag : k.readTag .integer = .ok { bytes := [0x20, 0x10], cursor := 2 } := by decide
  obtain ⟨-, htags, -, -, -, hwithin, -⟩ :=
    calls_within [0x20, 0x10] [.decode (.text .ucsBinary)] .integer
  exact ⟨htag, htags _ _ htag, hwithin⟩

end Key

end QueryPlanner

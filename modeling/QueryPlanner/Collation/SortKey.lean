import QueryPlanner.Collation.Error

/-!
# Escaped sort keys

A sort key is a string of bytes in which zero stands at the end and nowhere else.  Zero and one
are escaped by two bytes each, so that the order of the raw bytes is kept and a shorter key comes
before its extensions.
-/

namespace QueryPlanner.SortKey

/-- One raw byte in a sort key. -/
def escapeByte (b : UInt8) : List UInt8 :=
  if b = 0 then [1, 1] else if b = 1 then [1, 2] else [b]

/-- The sort key of raw bytes, with its terminator. -/
def escape (raw : List UInt8) : List UInt8 := raw.flatMap escapeByte ++ [0]

/-- The raw bytes of a sort key without terminator. -/
def unescapeBody : List UInt8 → Except KeyFault (List UInt8)
  | [] => .ok []
  | b :: rest =>
      if b = 0 then .error .innerTerminator
      else if b = 1 then
        match rest with
        | [] => .error .invalidEscape
        | code :: rest =>
            if code = 1 then (unescapeBody rest).map (0 :: ·)
            else if code = 2 then (unescapeBody rest).map (1 :: ·)
            else .error .invalidEscape
      else (unescapeBody rest).map (b :: ·)

/-- The raw bytes of a sort key; the terminator may be missing. -/
def unescape (key : List UInt8) : Except KeyFault (List UInt8) :=
  if key.getLast? = some 0 then unescapeBody key.dropLast else unescapeBody key

theorem unescapeBody_flatMap (raw : List UInt8) :
    unescapeBody (raw.flatMap escapeByte) = .ok raw := by
  induction raw with
  | nil => rfl
  | cons b rest ih =>
      by_cases h0 : b = 0
      · subst h0
        simp [escapeByte, unescapeBody, ih, Except.map]
      · by_cases h1 : b = 1
        · subst h1
          simp [escapeByte, unescapeBody, ih, Except.map]
        · simp only [List.flatMap_cons, escapeByte, h0, h1, if_false, List.singleton_append]
          rw [unescapeBody.eq_def]
          simp [h0, h1, ih, Except.map]

theorem unescape_escape (raw : List UInt8) : unescape (escape raw) = .ok raw := by
  simp [unescape, escape, unescapeBody_flatMap]

end QueryPlanner.SortKey

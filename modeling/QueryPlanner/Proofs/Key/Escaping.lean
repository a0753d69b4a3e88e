import QueryPlanner.Proofs.Key.Reading

/-!
# Which bytes are sort keys

Reading a sort key undoes escaping and accepts nothing else: the bytes it accepts are sort keys,
and sort keys that lost their terminator.  A terminator in front of the end, an escape that is cut
off and an escape with an unknown code are all refused.

Main statement: `SortKey.unescape_exact`.
-/

namespace QueryPlanner

namespace SortKey

/-- Bytes that are read as the body of a sort key are the escaped bytes they are read as. -/
theorem eq_flatMap_of_unescapeBody {body raw : List UInt8} (h : unescapeBody body = .ok raw) :
    body = raw.flatMap escapeByte := by
  fun_induction unescapeBody body generalizing raw with
  | case1 =>
      cases h
      rfl
  | case2 => cases h
  | case3 => cases h
  | case4 rest _ ih =>
      obtain ⟨raw, hrest, rfl⟩ := map_eq_ok.1 h
      rw [List.flatMap_cons, ← ih hrest]
      rfl
  | case5 rest _ _ ih =>
      obtain ⟨raw, hrest, rfl⟩ := map_eq_ok.1 h
      rw [List.flatMap_cons, ← ih hrest]
      rfl
  | case6 => cases h
  | case7 b rest h0 h1 ih =>
      obtain ⟨raw, hrest, rfl⟩ := map_eq_ok.1 h
      simp [escapeByte, h0, h1, ← ih hrest]

theorem unescapeBody_eq_ok_iff {body raw : List UInt8} :
    unescapeBody body = .ok raw ↔ body = raw.flatMap escapeByte := by
  constructor
  · exact eq_flatMap_of_unescapeBody
  · rintro rfl
    exact unescapeBody_flatMap raw

/-- The two ways in which the body of a sort key can be broken. -/
theorem mem_faults_of_unescapeBody {body : List UInt8} {fault : KeyFault}
    (h : unescapeBody body = .error fault) :
    fault ∈ [KeyFault.innerTerminator, .invalidEscape] := by
  fun_induction unescapeBody body with
  | case1 => cases h
  | case2 =>
      cases h
      exact List.mem_cons_self
  | case3 =>
      cases h
      exact List.mem_cons_of_mem _ List.mem_cons_self
  | case4 rest _ ih => exact ih (map_eq_error.1 h)
  | case5 rest _ _ ih => exact ih (map_eq_error.1 h)
  | case6 =>
      cases h
      exact List.mem_cons_of_mem _ List.mem_cons_self
  | case7 b rest h0 h1 ih => exact ih (map_eq_error.1 h)

theorem mem_faults_of_unescape {key : List UInt8} {fault : KeyFault}
    (h : unescape key = .error fault) : fault ∈ [KeyFault.innerTerminator, .invalidEscape] := by
  unfold unescape at h
  split at h
  · exact mem_faults_of_unescapeBody h
  · exact mem_faults_of_unescapeBody h

theorem zero_not_mem_flatMap_escapeByte (raw : List UInt8) : 0 ∉ raw.flatMap escapeByte := by
  intro h
  obtain ⟨b, -, hb⟩ := List.mem_flatMap.1 h
  exact ne_zero_of_mem_escapeByte hb rfl

/-- Reading accepts sort keys, with or without their terminator. -/
theorem unescape_eq_ok_iff {key raw : List UInt8} :
    unescape key = .ok raw ↔ key = escape raw ∨ key ++ [0] = escape raw := by
  have hbody : key ++ [0] = escape raw ↔ key = raw.flatMap escapeByte := List.append_left_inj [0]
  rw [hbody, unescape]
  split
  next hlast =>
    -- What ends in a terminator is not the body of a sort key.
    have hne : key ≠ raw.flatMap escapeByte := by
      rintro rfl
      exact zero_not_mem_flatMap_escapeByte raw (List.mem_of_getLast? hlast)
    obtain ⟨body, rfl⟩ := List.getLast?_eq_some_iff.1 hlast
    rw [List.dropLast_concat, unescapeBody_eq_ok_iff, or_iff_left hne, escape, List.append_left_inj]
  next hlast =>
    have hne : key ≠ escape raw := by
      rintro rfl
      exact hlast (by rw [escape, List.getLast?_concat])
    rw [unescapeBody_eq_ok_iff, or_iff_right hne]

theorem exists_unescape_eq_error_iff {key : List UInt8} :
    (∃ fault, unescape key = .error fault) ↔
      ¬∃ raw, key = escape raw ∨ key ++ [0] = escape raw := by
  simp only [← unescape_eq_ok_iff]
  cases unescape key with
  | ok raw => simp
  | error fault => simp

/-- A text is not decoded from bytes that are no sort key. -/
theorem decodeSortKey_of_unescape {key : List UInt8} {fault : KeyFault}
    (h : unescape key = .error fault) :
    Collation.ucsBinary.decodeSortKey key 0 key.length = .error (.malformedKey fault) := by
  simp [Collation.decodeSortKey, Collation.isRecoverable, h]

/-- A sort key has its only zero at the end.  The bytes that are read as some raw bytes are their
sort key and this without its terminator, and all others are refused as malformed. -/
theorem unescape_exact :
    (∀ raw, ∃ body, escape raw = body ++ [0] ∧ 0 ∉ body) ∧
      (∀ key raw, unescape key = .ok raw ↔ key = escape raw ∨ key ++ [0] = escape raw) ∧
      ∀ key, (¬∃ raw, key = escape raw ∨ key ++ [0] = escape raw) ↔
        ∃ fault ∈ [KeyFault.innerTerminator, .invalidEscape], unescape key = .error fault ∧
          Collation.ucsBinary.decodeSortKey key 0 key.length = .error (.malformedKey fault) := by
  refine ⟨fun raw => ⟨_, rfl, zero_not_mem_flatMap_escapeByte raw⟩,
    fun key raw => unescape_eq_ok_iff, fun key => ?_⟩
  rw [← exists_unescape_eq_error_iff]
  constructor
  · rintro ⟨fault, h⟩
    exact ⟨fault, mem_faults_of_unescape h, h, decodeSortKey_of_unescape h⟩
  · rintro ⟨fault, -, h, -⟩
    exact ⟨fault, h⟩

/-- An escape that the terminator cuts off. -/
example : unescape [0x61, 0x01, 0x00] = .error .invalidEscape := by decide

end SortKey

end QueryPlanner

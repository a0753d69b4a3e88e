import QueryPlanner.Text.Ascii
import QueryPlanner.Text.Lowercase

/-!
# Spellings in small letters

Two texts that differ at most in the case of the letters `A` to `Z` have one spelling in which all
of these are small.  The small letters of a text, in the sense of Unicode, are the same for all of
its spellings: an ASCII letter has case whichever case it is in, so no sigma next to it notices.

Of texts in ASCII alone the small letters tell no more than which of them differ at most in case;
beyond ASCII there are letters, such as `Ä` and `ä`, that have the same small form and yet differ.

Main statements: `sameLetters_folded`, `lowercase_folded` and `sameLetters_of_lowercase`.
-/

namespace QueryPlanner.Text

/-- The text with `A` to `Z` made small. -/
def folded (s : String) : String := String.ofList (asciiFold s)

theorem toList_folded (s : String) : (folded s).toList = s.toList.map Char.toLower :=
  String.toList_ofList

/-! ## Characters -/

/-- A character is kept, or is one of `A` to `Z`. -/
theorem toLower_cases (c : Char) :
    c.toLower = c ∨ (65 ≤ c.toNat ∧ c.toNat ≤ 90) ∧ c.toLower.toNat = c.toNat + 32 := by
  unfold Char.toLower
  split
  next hupper =>
    have hlow : 65 ≤ c.toNat := UInt32.le_iff_toNat_le.1 hupper.1
    have hhigh : c.toNat ≤ 90 := UInt32.le_iff_toNat_le.1 hupper.2
    refine .inr ⟨⟨hlow, hhigh⟩, ?_⟩
    show (c.val + 32).toNat = c.toNat + 32
    have hbound : c.toNat + 32 < 2 ^ 32 := by omega
    rw [UInt32.toNat_add]
    exact Nat.mod_eq_of_lt hbound
  next => exact .inl rfl

/-- The code points of ASCII letters. -/
def IsLetter (code : Nat) : Prop := (65 ≤ code ∧ code ≤ 90) ∨ (97 ≤ code ∧ code ≤ 122)

theorem isCased_of_isLetter {c : Char} (h : IsLetter c.toNat) : isCased c = true := by
  unfold isCased inRanges
  rw [List.any_eq_true]
  rcases h with h | h
  · exact ⟨(0x41, 0x5A), by simp [casedRanges], by simp [h]⟩
  · exact ⟨(0x61, 0x7A), by simp [casedRanges], by simp [h]⟩

theorem isCaseIgnorable_of_isLetter {c : Char} (h : IsLetter c.toNat) :
    isCaseIgnorable c = false := by
  have hranges : ∀ range ∈ caseIgnorableRanges,
      (range.2 < 65 ∨ 90 < range.1) ∧ (range.2 < 97 ∨ 122 < range.1) := by decide +kernel
  unfold isCaseIgnorable inRanges
  rw [List.any_eq_false]
  intro range hrange
  have hoff := hranges range hrange
  unfold IsLetter at h
  simp only [Bool.and_eq_true, decide_eq_true_eq]
  omega

/-- What is said of all ASCII letters alike is not changed by making a character small. -/
theorem apply_toLower {α : Type} {f : Char → α} {a : α} (h : ∀ c, IsLetter c.toNat → f c = a)
    (c : Char) : f c.toLower = f c := by
  rcases toLower_cases c with hsame | ⟨hupper, hlower⟩
  · rw [hsame]
  · have hletter : IsLetter c.toNat := .inl hupper
    have hletter' : IsLetter c.toLower.toNat := .inr (by omega)
    rw [h c hletter, h c.toLower hletter']

theorem isCased_toLower (c : Char) : isCased c.toLower = isCased c :=
  apply_toLower (fun _ => isCased_of_isLetter) c

theorem isCaseIgnorable_toLower (c : Char) : isCaseIgnorable c.toLower = isCaseIgnorable c :=
  apply_toLower (fun _ => isCaseIgnorable_of_isLetter) c

theorem toLower_toLower (c : Char) : c.toLower.toLower = c.toLower := by
  rcases toLower_cases c with hsame | ⟨hupper, hlower⟩
  · rw [hsame, hsame]
  · rcases toLower_cases c.toLower with hsame | ⟨hupper', -⟩
    · exact hsame
    · omega

theorem lowerSimple_toLower (c : Char) : lowerSimple c.toLower = lowerSimple c := by
  rcases toLower_cases c with hsame | ⟨hupper, hlower⟩
  · rw [hsame]
  · have hascii : c.toNat < 0x80 := by omega
    have hascii' : c.toLower.toNat < 0x80 := by omega
    unfold lowerSimple
    rw [if_pos hascii, if_pos hascii', toLower_toLower]

/-- Characters outside of ASCII do not come from others. -/
theorem toLower_eq_iff {c d : Char} (hd : 0x80 ≤ d.toNat) : c.toLower = d ↔ c = d := by
  rcases toLower_cases c with hsame | ⟨hupper, hlower⟩
  · rw [hsame]
  · constructor
    · rintro rfl
      omega
    · rintro rfl
      omega

/-! ## Texts -/

theorem nextIsCased_map (cs : List Char) :
    nextIsCased (cs.map Char.toLower) = nextIsCased cs := by
  induction cs with
  | nil => rfl
  | cons c rest ih =>
      unfold nextIsCased at ih ⊢
      rw [List.map_cons, List.dropWhile_cons, List.dropWhile_cons, isCaseIgnorable_toLower]
      by_cases hc : isCaseIgnorable c = true
      · rw [if_pos hc, if_pos hc]
        exact ih
      · rw [if_neg hc, if_neg hc]
        exact isCased_toLower c

theorem lowerIn_map (before : List Char) (c : Char) (after : List Char) :
    lowerIn (before.map Char.toLower) c.toLower (after.map Char.toLower) =
      lowerIn before c after := by
  have hsigma : c.toLower = 'Σ' ↔ c = 'Σ' := toLower_eq_iff (by decide)
  have hdotted : c.toLower = 'İ' ↔ c = 'İ' := toLower_eq_iff (by decide)
  unfold lowerIn endsWord
  simp only [hsigma, hdotted, nextIsCased_map, lowerSimple_toLower]

theorem lowerFrom_map (before cs : List Char) :
    lowerFrom (before.map Char.toLower) (cs.map Char.toLower) = lowerFrom before cs := by
  induction cs generalizing before with
  | nil => rfl
  | cons c after ih =>
      rw [List.map_cons, lowerFrom, lowerFrom, lowerIn_map]
      exact congrArg (lowerIn before c after ++ ·) (ih (c :: before))

/-- Whether a text differs at most in the case of letters is the same for all of its spellings. -/
theorem sameLetters_folded (a b : String) : sameLetters a (folded b) = sameLetters a b := by
  have hfold : asciiFold (folded b) = asciiFold b := by
    unfold asciiFold
    rw [toList_folded, List.map_map]
    exact congrArg (List.map · b.toList) (funext toLower_toLower)
  unfold sameLetters
  rw [hfold]

/-- The small letters of a text are the same for all of its spellings. -/
theorem lowercase_folded (s : String) : lowercase (folded s) = lowercase s := by
  unfold lowercase
  rw [toList_folded]
  exact congrArg String.ofList (lowerFrom_map [] s.toList)

/-! ## Texts in ASCII -/

/-- All characters of a text are in ASCII. -/
def IsAscii (s : String) : Prop := ∀ c ∈ s.toList, c.toNat < 0x80

instance (s : String) : Decidable (IsAscii s) := List.decidableBAll _ s.toList

theorem lowerIn_of_ascii {c : Char} (h : c.toNat < 0x80) (before after : List Char) :
    lowerIn before c after = [c.toLower] := by
  have hne (d : Char) (hd : 0x80 ≤ d.toNat) : c ≠ d := by
    rintro rfl
    omega
  rw [lowerIn, if_neg (hne 'Σ' (by decide)), if_neg (hne 'İ' (by decide)), lowerSimple, if_pos h]

theorem lowerFrom_of_ascii {cs : List Char} (h : ∀ c ∈ cs, c.toNat < 0x80) (before : List Char) :
    lowerFrom before cs = cs.map Char.toLower := by
  induction cs generalizing before with
  | nil => rfl
  | cons c after ih =>
      obtain ⟨hc, hafter⟩ := List.forall_mem_cons.1 h
      rw [lowerFrom, lowerIn_of_ascii hc, ih hafter]
      rfl

/-- Texts in ASCII with the same small letters differ at most in the case of letters. -/
theorem sameLetters_of_lowercase {a b : String} (ha : IsAscii a) (hb : IsAscii b)
    (h : lowercase a = lowercase b) : sameLetters a b = true := by
  have hsmall := String.ofList_inj.1 h
  rw [lowerFrom_of_ascii ha, lowerFrom_of_ascii hb] at hsmall
  exact sameLetters_iff.2 hsmall

end QueryPlanner.Text

import QueryPlanner.Proofs.Typing.OpenLooks

/-!
# Typing once more

Typing reads a slot where it comes to the placeholder, and may fill it later.  What was found out
where the slot was empty may no longer be so when it is full.  This concerns only placeholders which
get a type although some look has left them without one.  Where each placeholder that gets a type is
found without one a single time, typing from the slots in the end gives the same and fills nothing.

Main statement: `repeats_resolve`.
-/

namespace QueryPlanner

/-! ## Slots before, after and in the end -/

namespace Slots

/-- Slots after some of the given placeholders, which had no type, got one. -/
structure GainsIn (opens : List UInt64) (before after : Slots) : Prop where
  length : after.length = before.length
  types : ∀ i, after.type? i = before.type? i ∨ before.type? i = none ∧ i ∈ opens

/-- Slots in the end of which a part was left as it is known there: what was found without a type
in that part did not get one later, and if it has one, it was found so once. -/
structure Settled (opens : List UInt64) (after final : Slots) : Prop where
  length : final.length = after.length
  known : after.KnownIn final
  same : ∀ i ∈ opens, final.type? i = after.type? i
  once : ∀ i, after.type? i ≠ none → opens.count i ≤ 1

variable {opens opens' : List UInt64} {before middle after final : Slots}

namespace GainsIn

theorem refl (opens : List UInt64) (slots : Slots) : GainsIn opens slots slots :=
  ⟨rfl, fun _ => .inl rfl⟩

theorem mono (h : GainsIn opens before after) (hsub : opens ⊆ opens') :
    GainsIn opens' before after :=
  ⟨h.length, fun i => (h.types i).imp_right fun hi => ⟨hi.1, hsub hi.2⟩⟩

theorem trans (h : GainsIn opens before middle) (h' : GainsIn opens middle after) :
    GainsIn opens before after := by
  refine ⟨h'.length.trans h.length, fun i => ?_⟩
  rcases h.types i with hsame | hgained
  · rw [← hsame]
    exact h'.types i
  · exact .inr hgained

theorem append (h : GainsIn opens before middle) (h' : GainsIn opens' middle after) :
    GainsIn (opens ++ opens') before after :=
  (h.mono (List.subset_append_left _ _)).trans (h'.mono (List.subset_append_right _ _))

theorem knownIn (h : GainsIn opens before after) : before.KnownIn after := by
  intro i type hi
  rcases h.types i with hsame | ⟨hnone, -⟩
  · rw [hsame, hi]
  · rw [hi] at hnone
    cases hnone

end GainsIn

namespace Settled

/-- What two parts find without a type has got none. -/
theorem type?_eq_none_of_mem (h : Settled (opens ++ opens') after final) {i : UInt64}
    (hi : i ∈ opens) (hi' : i ∈ opens') : after.type? i = none := by
  by_contra hne
  have honce := h.once i hne
  have hpos := List.count_pos_iff.2 hi
  have hpos' := List.count_pos_iff.2 hi'
  rw [List.count_append] at honce
  omega

/-- The slots in the end are those of the first of two parts. -/
theorem first (h : Settled (opens ++ opens') after final) (hgains : GainsIn opens' middle after) :
    Settled opens middle final where
  length := h.length.trans hgains.length
  known := hgains.knownIn.trans h.known
  same i hi := by
    rw [h.same i (List.mem_append_left _ hi)]
    rcases hgains.types i with hsame | ⟨hnone, hi'⟩
    · exact hsame
    · rw [h.type?_eq_none_of_mem hi hi', hnone]
  once i hne := by
    have honce := h.once i (mt hgains.knownIn.type?_eq_none hne)
    rw [List.count_append] at honce
    omega

/-- The slots in the end are those of the last of two parts. -/
theorem last (h : Settled (opens ++ opens') after final) : Settled opens' after final where
  length := h.length
  known := h.known
  same i hi := h.same i (List.mem_append_right _ hi)
  once i hne := by
    have honce := h.once i hne
    rw [List.count_append] at honce
    omega

end Settled

end Slots

/-! ## Computations that can be repeated -/

namespace Typing

variable {α β : Type}

/-- The computation has nothing to do with slots. -/
def SlotFree (t : Typing α) : Prop := ∃ x, t = ofExcept x

theorem SlotFree.eq_pure {t : Typing α} (ht : SlotFree t) {slots after : Slots} {a : α}
    (h : t.runOn slots = .ok (a, after)) : t = pure a ∧ slots = after := by
  obtain ⟨x, rfl⟩ := ht
  cases x with
  | error e => cases h
  | ok b =>
      cases h
      exact ⟨rfl, rfl⟩

/-- The computation, which finds the given placeholders without a type, gives a type to some of
these at most.  From the slots in the end it gives the same and fills none. -/
structure Repeats (opens : Slots → List UInt64) (t : Typing α) : Prop where
  gains : ∀ slots a after, t.runOn slots = .ok (a, after) → slots.GainsIn (opens slots) after
  again : ∀ slots a after, t.runOn slots = .ok (a, after) →
    ∀ final, Slots.Settled (opens slots) after final → t.runOn final = .ok (a, final)

namespace Repeats

variable {opens opens' : Slots → List UInt64} {t : Typing α} {f : α → Typing β}

theorem pure (a : α) : Repeats opens (pure a) where
  gains := by
    rintro slots b after ⟨⟩
    exact .refl _ _
  again := by
    rintro slots b after ⟨⟩ final _
    rfl

theorem throw (e : PlanError) : Repeats opens (throw e : Typing α) where
  gains := by rintro slots a after ⟨⟩
  again := by rintro slots a after ⟨⟩

theorem congr (ht : Repeats opens t)
    (h : ∀ slots a after, t.runOn slots = .ok (a, after) → opens slots = opens' slots) :
    Repeats opens' t where
  gains slots a after ha := h slots a after ha ▸ ht.gains slots a after ha
  again slots a after ha := h slots a after ha ▸ ht.again slots a after ha

theorem bind (ht : Repeats opens t) (hf : ∀ a, Repeats opens' (f a)) :
    Repeats (fun slots => opens slots ++ opens' (t.slotsAfter slots)) (t >>= f) := by
  constructor
  · intro slots b after h
    obtain ⟨a, middle, hmiddle, hafter⟩ := runOn_bind_eq_ok.1 h
    rw [slotsAfter_of_runOn hmiddle]
    exact (ht.gains slots a middle hmiddle).append ((hf a).gains middle b after hafter)
  · intro slots b after h final hfinal
    obtain ⟨a, middle, hmiddle, hafter⟩ := runOn_bind_eq_ok.1 h
    rw [slotsAfter_of_runOn hmiddle] at hfinal
    have hgains := (hf a).gains middle b after hafter
    exact runOn_bind_eq_ok.2 ⟨a, final, ht.again slots a middle hmiddle final (hfinal.first hgains),
      (hf a).again middle b after hafter final hfinal.last⟩

/-- What finds no placeholder without a type may follow. -/
theorem bind_nil (ht : Repeats opens t) (hf : ∀ a, Repeats (fun _ => []) (f a)) :
    Repeats opens (t >>= f) := by
  have hbind := ht.bind hf
  simpa only [List.append_nil] using hbind

end Repeats

end Typing

open Typing

namespace BoundExpr

/-! ## Operands -/

variable {e left right : BoundExpr} {slots first second middle after final : Slots}
  {type given leftType rightType : Option DataType}

/-- What giving a type does: it fills the empty slot of a placeholder, or nothing. -/
theorem type?_of_infer (h : (e.infer given).runOn slots = .ok ((), after)) (i : UInt64) :
    after.type? i = slots.type? i ∨
      e = .parameter i ∧ slots.type? i = none ∧ after.type? i = given := by
  unfold infer at h
  split at h
  next index type =>
    cases h
    rcases Slots.type?_fill slots index type i with hsame | ⟨rfl, hnone, hfilled⟩
    · exact .inl hsame
    · exact .inr ⟨rfl, hnone, hfilled⟩
  next =>
    cases h
    exact .inl rfl

theorem length_of_infer (h : (e.infer given).runOn slots = .ok ((), after)) :
    after.length = slots.length := by
  unfold infer at h
  split at h
  next index type =>
    cases h
    exact Slots.length_fill slots index type
  next =>
    cases h
    rfl

/-- A placeholder that gets a type from its use was found without one. -/
theorem gainsIn_of_infer (hknown : slots.KnownIn middle)
    (h : (e.infer given).runOn middle = .ok ((), after)) :
    middle.GainsIn (e.openLooks slots) after := by
  refine ⟨length_of_infer h, fun i => (type?_of_infer h i).imp_right ?_⟩
  rintro ⟨rfl, hnone, -⟩
  exact ⟨hnone, by simp [openLooks_parameter (hknown.type?_eq_none hnone)]⟩

/-- A type that was given once is not given again. -/
theorem infer_again (h : (e.infer given).runOn slots = .ok ((), after))
    (hlength : final.length = after.length) (hknown : after.KnownIn final) :
    (e.infer given).runOn final = .ok ((), final) := by
  unfold infer at h ⊢
  split at h
  next index type =>
    cases h
    have hsame := Slots.fill_of_knownIn (hlength.trans (Slots.length_fill _ _ _)) hknown
    show Except.ok ((), final.fill index type) = _
    rw [hsame]
  next => rfl

/-- What two operands give each other: the one without type gets that of the other one. -/
theorem type?_of_inferBoth
    (h : (inferBoth left right leftType rightType).runOn slots = .ok ((), after)) (i : UInt64) :
    after.type? i = slots.type? i ∨
      (left = .parameter i ∧ leftType = none ∧ slots.type? i = none ∧ after.type? i = rightType) ∨
        right = .parameter i ∧ rightType = none ∧ slots.type? i = none ∧
          after.type? i = leftType := by
  cases leftType with
  | none =>
      cases rightType with
      | none =>
          rw [inferBoth_none_none] at h
          cases h
          exact .inl rfl
      | some rightType =>
          rw [inferBoth_none_some] at h
          rcases type?_of_infer h i with hsame | ⟨hleft, hnone, hfilled⟩
          · exact .inl hsame
          · exact .inr (.inl ⟨hleft, rfl, hnone, hfilled⟩)
  | some leftType =>
      cases rightType with
      | none =>
          rw [inferBoth_some_none] at h
          rcases type?_of_infer h i with hsame | ⟨hright, hnone, hfilled⟩
          · exact .inl hsame
          · exact .inr (.inr ⟨hright, rfl, hnone, hfilled⟩)
      | some rightType =>
          rw [inferBoth_some_some] at h
          cases h
          exact .inl rfl

theorem inferBoth_same (left right : BoundExpr) (type : Option DataType) :
    inferBoth left right type type = pure () := by
  cases type with
  | none => exact inferBoth_none_none left right
  | some type => rfl

theorem length_of_inferBoth
    (h : (inferBoth left right leftType rightType).runOn slots = .ok ((), after)) :
    after.length = slots.length := by
  cases leftType with
  | none =>
      cases rightType with
      | none =>
          rw [inferBoth_none_none] at h
          cases h
          rfl
      | some rightType =>
          rw [inferBoth_none_some] at h
          exact length_of_infer h
  | some leftType =>
      cases rightType with
      | none => exact length_of_infer h
      | some rightType =>
          cases h
          rfl

theorem gainsIn_of_inferBoth (hslots : slots.KnownIn first) (hfirst : first.KnownIn second)
    (h : (inferBoth left right leftType rightType).runOn second = .ok ((), after)) :
    second.GainsIn (left.openLooks slots ++ right.openLooks first) after := by
  refine ⟨length_of_inferBoth h, fun i => (type?_of_inferBoth h i).imp_right ?_⟩
  rintro (⟨rfl, -, hnone, -⟩ | ⟨rfl, -, hnone, -⟩)
  · exact ⟨hnone, by simp [openLooks_parameter ((hslots.trans hfirst).type?_eq_none hnone)]⟩
  · exact ⟨hnone, by simp [openLooks_parameter (hfirst.type?_eq_none hnone)]⟩

theorem inferBoth_again
    (h : (inferBoth left right leftType rightType).runOn slots = .ok ((), after))
    (hlength : final.length = after.length) (hknown : after.KnownIn final) :
    (inferBoth left right leftType rightType).runOn final = .ok ((), final) := by
  cases leftType with
  | none =>
      cases rightType with
      | none =>
          rw [inferBoth_none_none]
          rfl
      | some rightType =>
          rw [inferBoth_none_some] at h ⊢
          exact infer_again h hlength hknown
  | some leftType =>
      cases rightType with
      | none =>
          rw [inferBoth_some_none] at h ⊢
          exact infer_again h hlength hknown
      | some rightType => rfl

/-- An operand whose placeholder may have got a type later on: it has the same type again, or the
one it was given. -/
theorem resolve_again (he : Repeats e.openLooks e.resolve)
    (h : e.resolve.runOn slots = .ok (type, middle)) (hlength : final.length = middle.length)
    (hknown : middle.KnownIn final)
    (honce : ∀ i, middle.type? i ≠ none → (e.openLooks slots).count i ≤ 1)
    (hfinal : ∀ i ∈ e.openLooks slots, final.type? i = middle.type? i ∨
      e = .parameter i ∧ type = none ∧ final.type? i = given) :
    ∃ type', e.resolve.runOn final = .ok (type', final) ∧
      (type' = type ∨ type = none ∧ type' = given) := by
  by_cases hsame : ∀ i ∈ e.openLooks slots, final.type? i = middle.type? i
  · exact ⟨type, he.again slots type middle h final ⟨hlength, hknown, hsame, honce⟩, .inl rfl⟩
  · simp only [Classical.not_forall] at hsame
    obtain ⟨i, hi, hne⟩ := hsame
    rcases hfinal i hi with heq | ⟨rfl, hnone, hgiven⟩
    · exact absurd heq hne
    · refine ⟨final.type? i, ?_, .inr ⟨hnone, hgiven⟩⟩
      rw [resolve]
      rfl

/-- An operand that is used: if it has no type, it gets one that its use does not mind. -/
theorem repeats_use (he : Repeats e.openLooks e.resolve) (given : Option DataType)
    {use : Option DataType → Typing Unit}
    (hnone : use none = e.infer given)
    (hsome : ∀ type, SlotFree (use (some type)))
    (hgiven : ∀ type, given = some type → use (some type) = pure ()) :
    Repeats e.openLooks (e.resolve >>= use) := by
  constructor
  · intro slots a after h
    obtain ⟨type, middle, hresolve, hafter⟩ := runOn_bind_eq_ok.1 h
    have hgains := he.gains slots type middle hresolve
    cases type with
    | none =>
        rw [hnone] at hafter
        exact hgains.trans (gainsIn_of_infer hgains.knownIn hafter)
    | some type =>
        obtain ⟨-, rfl⟩ := (hsome type).eq_pure hafter
        exact hgains
  · intro slots a after h final hfinal
    obtain ⟨type, middle, hresolve, hafter⟩ := runOn_bind_eq_ok.1 h
    cases type with
    -- The operand has a type, so its use fills nothing.
    | some type =>
        obtain ⟨huse, rfl⟩ := (hsome type).eq_pure hafter
        refine runOn_bind_eq_ok.2 ⟨_, final, he.again slots _ _ hresolve final hfinal, ?_⟩
        rw [huse]
        rfl
    | none =>
        rw [hnone] at hafter
        have hgains := gainsIn_of_infer (he.gains slots _ middle hresolve).knownIn hafter
        obtain ⟨type', hresolve', htype'⟩ := resolve_again he hresolve
          (hfinal.length.trans hgains.length) (hgains.knownIn.trans hfinal.known)
          (fun i hi => hfinal.once i (mt hgains.knownIn.type?_eq_none hi)) fun i hi => by
            rw [hfinal.same i hi]
            exact (type?_of_infer hafter i).imp_right fun h => ⟨h.1, rfl, h.2.2⟩
        refine runOn_bind_eq_ok.2 ⟨type', final, hresolve', ?_⟩
        have hinert := infer_again hafter hfinal.length hfinal.known
        -- The operand has no type again, or the one that its use gave it.
        rcases htype' with rfl | ⟨-, rfl⟩
        · rw [hnone, hinert]
        · cases type' with
          | none => rw [hnone, hinert]
          | some type' =>
              rw [hgiven type' rfl]
              rfl

/-- A run in which two operands are typed and then give each other the types they lack. -/
structure OperandsRun (left right : BoundExpr) (leftType rightType : Option DataType)
    (slots first second after : Slots) : Prop where
  typesLeft : left.resolve.runOn slots = .ok (leftType, first)
  typesRight : right.resolve.runOn first = .ok (rightType, second)
  infers : (inferBoth left right leftType rightType).runOn second = .ok ((), after)

namespace OperandsRun

section Again

variable (h : OperandsRun left right leftType rightType slots first second after)
  (hl : Repeats left.openLooks left.resolve) (hr : Repeats right.openLooks right.resolve)

include h hl hr

theorem gains_both : second.GainsIn (left.openLooks slots ++ right.openLooks first) after :=
  gainsIn_of_inferBoth (hl.gains slots leftType first h.typesLeft).knownIn
    (hr.gains first rightType second h.typesRight).knownIn h.infers

theorem gains : slots.GainsIn (left.openLooks slots ++ right.openLooks first) after := by
  have hleft := hl.gains slots leftType first h.typesLeft
  have hright := hr.gains first rightType second h.typesRight
  exact (hleft.append hright).trans (h.gains_both hl hr)

variable (hfinal : Slots.Settled (left.openLooks slots ++ right.openLooks first) after final)

include hfinal

/-- The left operand has its type again, or the one that the right operand gave it. -/
theorem left_again : ∃ type', left.resolve.runOn final = .ok (type', final) ∧
    (type' = leftType ∨ leftType = none ∧ type' = rightType) := by
  have hgains := hr.gains first rightType second h.typesRight
  have hboth := h.gains_both hl hr
  have hknown : first.KnownIn after := hgains.knownIn.trans hboth.knownIn
  -- A placeholder that the right operand found without a type as well has none in the end.
  have hopen : ∀ i ∈ left.openLooks slots, i ∈ right.openLooks first →
      after.type? i = first.type? i := fun i hi hi' => by
    have hnone := hfinal.type?_eq_none_of_mem hi hi'
    rw [hnone, hknown.type?_eq_none hnone]
  refine resolve_again hl h.typesLeft ?_ (hknown.trans hfinal.known) (fun i hi => ?_) fun i hi => ?_
  · rw [hfinal.length, hboth.length, hgains.length]
  · have honce := hfinal.once i (mt hknown.type?_eq_none hi)
    rw [List.count_append] at honce
    omega
  · rw [hfinal.same i (List.mem_append_left _ hi)]
    rcases type?_of_inferBoth h.infers i with hsame | ⟨he, hnone, -, hfilled⟩ | ⟨rfl, -, hnone, -⟩
    · rcases hgains.types i with hkept | ⟨-, hi'⟩
      · exact .inl (hsame.trans hkept)
      · exact .inl (hopen i hi hi')
    · exact .inr ⟨he, hnone, hfilled⟩
    · have hnone' := hgains.knownIn.type?_eq_none hnone
      exact .inl (hopen i hi (by simp [openLooks_parameter hnone']))

/-- The right operand has its type again, or the one that the left operand gave it. -/
theorem right_again : ∃ type', right.resolve.runOn final = .ok (type', final) ∧
    (type' = rightType ∨ rightType = none ∧ type' = leftType) := by
  have hgains := hl.gains slots leftType first h.typesLeft
  have hgains' := hr.gains first rightType second h.typesRight
  have hboth := h.gains_both hl hr
  refine resolve_again hr h.typesRight (hfinal.length.trans hboth.length)
    (hboth.knownIn.trans hfinal.known) (fun i hi => ?_) fun i hi => ?_
  · exact hfinal.last.once i (mt hboth.knownIn.type?_eq_none hi)
  · rw [hfinal.same i (List.mem_append_right _ hi)]
    rcases type?_of_inferBoth h.infers i with hsame | ⟨rfl, -, hnone, -⟩ | ⟨he, hnone, -, hfilled⟩
    · exact .inl hsame
    · -- The left operand is the placeholder, so both found it without a type.
      have hopen := (hgains.knownIn.trans hgains'.knownIn).type?_eq_none hnone
      have hi' : i ∈ (parameter i).openLooks slots := by simp [openLooks_parameter hopen]
      rw [hfinal.type?_eq_none_of_mem hi' hi, hnone]
      exact .inl rfl
    · exact .inr ⟨he, hnone, hfilled⟩

end Again

/-- Operands of one type give each other nothing, and what is made of their types stays. -/
theorem finish_again {α : Type} {finish : Option DataType → Option DataType → Typing α} {a : α}
    {leftType' rightType' : Option DataType}
    (hleft : ∀ type a, finish none (some type) = pure a → finish (some type) (some type) = pure a)
    (hright : ∀ type a, finish (some type) none = pure a →
      finish (some type) (some type) = pure a)
    (hinert : (inferBoth left right leftType rightType).runOn final = .ok ((), final))
    (hpure : finish leftType rightType = pure a)
    (hleftType : leftType' = leftType ∨ leftType = none ∧ leftType' = rightType)
    (hrightType : rightType' = rightType ∨ rightType = none ∧ rightType' = leftType) :
    (inferBoth left right leftType' rightType').runOn final = .ok ((), final) ∧
      finish leftType' rightType' = pure a := by
  rcases hleftType with rfl | ⟨rfl, rfl⟩
  · rcases hrightType with rfl | ⟨rfl, rfl⟩
    · exact ⟨hinert, hpure⟩
    · rw [inferBoth_same]
      cases rightType' with
      | none => exact ⟨rfl, hpure⟩
      | some type => exact ⟨rfl, hright type a hpure⟩
  · rcases hrightType with rfl | ⟨rfl, rfl⟩
    · rw [inferBoth_same]
      cases rightType' with
      | none => exact ⟨rfl, hpure⟩
      | some type => exact ⟨rfl, hleft type a hpure⟩
    · exact ⟨hinert, hpure⟩

end OperandsRun

/-- Two operands that give each other the types they lack, and what is made of their types. -/
theorem repeats_operands {α : Type} (hl : Repeats left.openLooks left.resolve)
    (hr : Repeats right.openLooks right.resolve)
    {finish : Option DataType → Option DataType → Typing α}
    (hfinish : ∀ leftType rightType, SlotFree (finish leftType rightType))
    (hleft : ∀ type a, finish none (some type) = pure a → finish (some type) (some type) = pure a)
    (hright : ∀ type a, finish (some type) none = pure a →
      finish (some type) (some type) = pure a) :
    Repeats (fun slots => left.openLooks slots ++ right.openLooks (left.resolve.slotsAfter slots))
      (do
        let leftType ← left.resolve
        let rightType ← right.resolve
        inferBoth left right leftType rightType
        finish leftType rightType) := by
  have hrun {slots after : Slots} {a : α} (h : Typing.runOn slots (do
        let leftType ← left.resolve
        let rightType ← right.resolve
        inferBoth left right leftType rightType
        finish leftType rightType) = .ok (a, after)) :
      ∃ leftType rightType first second,
        OperandsRun left right leftType rightType slots first second after ∧
          finish leftType rightType = pure a := by
    obtain ⟨leftType, first, hfirst, h⟩ := runOn_bind_eq_ok.1 h
    obtain ⟨rightType, second, hsecond, h⟩ := runOn_bind_eq_ok.1 h
    obtain ⟨⟨⟩, third, hthird, h⟩ := runOn_bind_eq_ok.1 h
    obtain ⟨hpure, rfl⟩ := (hfinish leftType rightType).eq_pure h
    exact ⟨leftType, rightType, first, second, ⟨hfirst, hsecond, hthird⟩, hpure⟩
  constructor
  · intro slots a after h
    obtain ⟨leftType, rightType, first, second, hoperands, -⟩ := hrun h
    rw [slotsAfter_of_runOn hoperands.typesLeft]
    exact hoperands.gains hl hr
  · intro slots a after h final hfinal
    obtain ⟨leftType, rightType, first, second, hoperands, hpure⟩ := hrun h
    rw [slotsAfter_of_runOn hoperands.typesLeft] at hfinal
    obtain ⟨leftType', hleft', hleftType⟩ := hoperands.left_again hl hr hfinal
    obtain ⟨rightType', hright', hrightType⟩ := hoperands.right_again hl hr hfinal
    have hinert := inferBoth_again hoperands.infers hfinal.length hfinal.known
    obtain ⟨hboth, hfinished⟩ :=
      OperandsRun.finish_again hleft hright hinert hpure hleftType hrightType
    refine runOn_bind_eq_ok.2 ⟨leftType', final, hleft', ?_⟩
    refine runOn_bind_eq_ok.2 ⟨rightType', final, hright', ?_⟩
    refine runOn_bind_eq_ok.2 ⟨(), final, hboth, ?_⟩
    rw [hfinished]
    rfl

theorem slotFree_requireComparable (whole : BoundExpr) (leftType rightType : Option DataType) :
    SlotFree (whole.requireComparable leftType rightType) := by
  unfold requireComparable
  split
  next =>
    split
    · exact ⟨.ok (), rfl⟩
    · exact ⟨.error _, rfl⟩
  next => exact ⟨.ok (), rfl⟩

theorem slotFree_arithmeticType (whole : BoundExpr) (leftType rightType : Option DataType) :
    SlotFree (whole.arithmeticType leftType rightType) := by
  rcases whole.arithmeticType_cases leftType rightType with ⟨odd, hodd⟩ | ⟨-, htype⟩
  · exact ⟨.error _, hodd⟩
  · exact ⟨.ok _, htype⟩

/-! ## Expressions -/

theorem repeats_resolvePredicate (he : Repeats e.openLooks e.resolve) :
    Repeats e.openLooks e.resolvePredicate := by
  refine repeats_use he (some .boolean) rfl (fun type => ?_) ?_
  · cases type with
    | boolean => exact ⟨.ok (), rfl⟩
    | _ => exact ⟨.error _, rfl⟩
  · rintro type ⟨⟩
    rfl

theorem repeats_resolveFor (he : Repeats e.openLooks e.resolve) (target : Option DataType) :
    Repeats e.openLooks (e.resolveFor target) := by
  rw [resolveFor_eq]
  refine repeats_use he target rfl (fun type => ?_) ?_
  · cases target with
    | none => exact ⟨.ok (), rfl⟩
    | some target =>
        show SlotFree (if type.comparable target then _ else _)
        split
        · exact ⟨.ok (), rfl⟩
        · exact ⟨.error _, rfl⟩
  · rintro type rfl
    show (if type.comparable type then _ else _) = _
    rw [DataType.comparable_refl, if_pos rfl]

theorem repeats_comparison (whole : BoundExpr) (hl : Repeats left.openLooks left.resolve)
    (hr : Repeats right.openLooks right.resolve) :
    Repeats (fun slots => left.openLooks slots ++ right.openLooks (left.resolve.slotsAfter slots))
      (do
        let leftType ← left.resolve
        let rightType ← right.resolve
        inferBoth left right leftType rightType
        whole.requireComparable leftType rightType) := by
  have hself (type : DataType) : whole.requireComparable (some type) (some type) = pure () := by
    show (if type.comparable type then _ else _) = _
    rw [DataType.comparable_refl, if_pos rfl]
  exact repeats_operands hl hr (whole.slotFree_requireComparable) (fun type _ _ => hself type)
    fun type _ _ => hself type

theorem arithmeticType_some_none (whole : BoundExpr) (type : DataType) :
    whole.arithmeticType (some type) none = whole.arithmeticType (some type) (some type) := by
  cases type <;> rfl

theorem arithmeticType_none_some (whole : BoundExpr) (type : DataType) :
    whole.arithmeticType none (some type) = whole.arithmeticType (some type) (some type) := by
  cases type <;> rfl

theorem repeats_arithmetic (whole : BoundExpr) (hl : Repeats left.openLooks left.resolve)
    (hr : Repeats right.openLooks right.resolve) :
    Repeats (fun slots => left.openLooks slots ++ right.openLooks (left.resolve.slotsAfter slots))
      (do
        let leftType ← left.resolve
        let rightType ← right.resolve
        inferBoth left right leftType rightType
        whole.arithmeticType leftType rightType) :=
  repeats_operands hl hr (whole.slotFree_arithmeticType)
    (fun type _ h => whole.arithmeticType_none_some type ▸ h)
    fun type _ h => whole.arithmeticType_some_none type ▸ h

/-- Typing can be repeated, by induction on the recursion through the expression. -/
theorem repeats_resolve_and_comparison :
    (∀ e : BoundExpr, Repeats e.openLooks e.resolve) ∧
      (∀ whole left right : BoundExpr, Repeats (openLooksOfComparison whole left right)
        (whole.resolveComparison left right)) ∧
        ∀ (whole : BoundExpr) (lefts rights : List BoundExpr),
          Repeats (openLooksOfComparisons whole lefts rights)
            (whole.resolveComparisons lefts rights) := by
  apply typing_induction
  case column =>
    intro c
    rw [resolve]
    exact .pure _
  case literal =>
    intro value
    rw [resolve]
    exact .pure _
  case parameter =>
    intro index
    rw [resolve]
    constructor
    · rintro slots type after ⟨⟩
      exact .refl _ _
    · rintro slots type after ⟨⟩ final hfinal
      show Except.ok (final.type? index, final) = _
      -- The slot was empty and stays so, or it was full.
      cases hslot : slots.type? index with
      | none => rw [hfinal.same index (by simp [openLooks_parameter hslot]), hslot]
      | some type => rw [hfinal.known index type hslot]
  case comparison =>
    intro op left right hop ih
    rw [resolve_comparison hop, openLooks_comparison hop]
    exact ih.bind_nil fun _ => .pure _
  case logical =>
    intro op left right hop ihl ihr
    rw [resolve_logical hop, openLooks_logical hop]
    exact (repeats_resolvePredicate ihl).bind fun _ =>
      (repeats_resolvePredicate ihr).bind_nil fun _ => .pure _
  case arithmetic =>
    intro op left right hop ihl ihr
    rw [resolve_arithmetic hop, openLooks_arithmetic hop]
    exact repeats_arithmetic _ ihl ihr
  case not =>
    intro operand ih
    rw [resolve_not, openLooks_not]
    exact (repeats_resolvePredicate ih).bind_nil fun _ => .pure _
  case isNull =>
    intro operand negated hrow ih
    rw [resolve_isNull hrow, openLooks_isNull]
    exact ih.bind_nil fun _ => .pure _
  case isNull_row =>
    intro operand negated hrow
    rw [resolve_isNull_of_isRow hrow]
    exact .pure _
  case between =>
    intro operand low high negated ihlow ihhigh
    rw [resolve, openLooks_between]
    exact ihlow.bind fun _ => ihhigh.bind_nil fun _ => .pure _
  case row =>
    intro items
    rw [resolve]
    exact .throw _
  case rows =>
    intro whole lefts rights hlength ih
    rw [resolveComparison_rows hlength, openLooksOfComparison_rows]
    exact ih
  case uneven =>
    intro whole lefts rights hlength
    rw [resolveComparison_of_length_ne hlength]
    exact .throw _
  case mixed =>
    intro whole left right hne hrow
    rw [resolveComparison_mixed hrow hne]
    exact .throw _
  case scalars =>
    intro whole left right hrow ihl ihr
    rw [resolveComparison_scalars hrow, openLooksOfComparison_scalars hrow]
    exact repeats_comparison whole ihl ihr
  case items =>
    intro whole left lefts right rights ih ihs
    rw [resolveComparisons, openLooksOfComparisons_cons]
    exact ih.bind fun _ => ihs
  case no_items =>
    intro whole lefts rights hnone
    rw [resolveComparisons_of_nil hnone]
    exact .pure ()

theorem repeats_resolve (e : BoundExpr) : Repeats e.openLooks e.resolve :=
  repeats_resolve_and_comparison.1 e

end BoundExpr

end QueryPlanner

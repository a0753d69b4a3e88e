import QueryPlanner.Proofs.Typing.Rules

/-!
# Slots only gain types

A step of typing gives types to slots that have none, and changes nothing else about the slots.  So
does typing as a whole, and only slots of the placeholders that it looks at are filled.  This holds
of what it leaves behind when it fails, too.

Main statements: `rules_keeps` and `rules_fills`, from which this follows for everything that is
typed, and `Extends.countOpen_lt`, that slots which gain types have fewer without one.
-/

namespace QueryPlanner

namespace Slots

variable {slots : Slots}

/-! ## Slots that the caller fills -/

theorem getElem?_ofHints {count n : Nat} (h : n < count) (hints : List (Option DataType)) :
    (ofHints count hints)[n]? = some hints[n]?.join := by
  unfold ofHints
  rw [List.getElem?_append, List.length_take, List.getElem?_take_of_lt h, List.getElem?_replicate]
  split
  next hlt => rw [List.getElem?_eq_getElem (by omega), Option.join_some]
  next hend =>
    rw [List.getElem?_eq_none (show hints.length ≤ n by omega), if_pos (by omega)]
    rfl

/-- Types beyond the last placeholder are disregarded. -/
theorem ofHints_take (count : Nat) (hints : List (Option DataType)) :
    ofHints count (hints.take count) = ofHints count hints := by
  unfold ofHints
  rw [List.take_take, Nat.min_self, List.length_take]
  congr 2
  omega

/-! ## Filling a slot -/

theorem getElem?_fill (slots : Slots) (i : UInt64) (type : DataType) (n : Nat) :
    (slots.fill i type)[n]? = slots[n]? ∨ slots[n]? = some none ∧ i.toNat = n := by
  unfold fill
  rw [List.getElem?_modify]
  by_cases hn : i.toNat = n
  · cases hslot : slots[n]? with
    | none => exact .inl rfl
    | some slot =>
        cases slot with
        | none => exact .inr ⟨rfl, hn⟩
        | some known => simp [hn]
  · simp [hn]

theorem type?_fill_of_ne {i j : UInt64} (h : j ≠ i) (type : DataType) :
    (slots.fill i type).type? j = slots.type? j := by
  have hne : i.toNat ≠ j.toNat := fun heq => h (UInt64.toNat_inj.1 heq.symm)
  unfold type? fill
  rw [List.getElem?_modify]
  simp [hne]

theorem type?_fill_self {i : UInt64} (h : i.toNat < slots.length) (type : DataType) :
    (slots.fill i type).type? i = (slots.type? i).or (some type) := by
  unfold type? fill
  rw [List.getElem?_modify, List.getElem?_eq_getElem h]
  simp

theorem fill_of_length_le {i : UInt64} (h : slots.length ≤ i.toNat) (type : DataType) :
    slots.fill i type = slots := by
  unfold fill
  exact List.modify_eq_self h

theorem fill_of_type? {i : UInt64} {known : DataType} (h : slots.type? i = some known)
    (type : DataType) : slots.fill i type = slots := by
  unfold fill
  refine List.ext_getElem? fun n => ?_
  rw [List.getElem?_modify]
  by_cases hn : i.toNat = n
  · unfold type? at h
    rw [hn] at h
    cases hslot : slots[n]? with
    | none => rfl
    | some slot =>
        rw [hslot] at h
        simp_all
  · simp [hn]

/-- Filling gives a type to an empty slot, or changes nothing. -/
theorem type?_fill (slots : Slots) (i : UInt64) (type : DataType) (j : UInt64) :
    (slots.fill i type).type? j = slots.type? j ∨
      j = i ∧ slots.type? j = none ∧ (slots.fill i type).type? j = some type := by
  by_cases hj : j = i
  · subst hj
    cases hslot : slots.type? j with
    | some known =>
        rw [fill_of_type? hslot]
        exact .inl hslot
    | none =>
        by_cases hlt : j.toNat < slots.length
        · rw [type?_fill_self hlt, hslot]
          exact .inr ⟨rfl, rfl, rfl⟩
        · rw [fill_of_length_le (by omega)]
          exact .inl hslot
  · exact .inl (type?_fill_of_ne hj type)

/-! ## Slots with more types -/

/-- What is known of the placeholders is also known in other slots. -/
def KnownIn (slots others : Slots) : Prop :=
  ∀ i type, slots.type? i = some type → others.type? i = some type

theorem KnownIn.trans {first second third : Slots} (h : first.KnownIn second)
    (h' : second.KnownIn third) : first.KnownIn third :=
  fun i type hi => h' i type (h i type hi)

/-- A slot that is empty where more is known is empty. -/
theorem KnownIn.type?_eq_none {others : Slots} (h : slots.KnownIn others) {i : UInt64}
    (hi : others.type? i = none) : slots.type? i = none := by
  cases hslot : slots.type? i with
  | none => rfl
  | some type => rw [h i type hslot] at hi; cases hi

/-- A slot that has been filled is not filled again. -/
theorem fill_of_knownIn {others : Slots} {i : UInt64} {type : DataType}
    (hlength : others.length = slots.length) (h : (slots.fill i type).KnownIn others) :
    others.fill i type = others := by
  by_cases hi : i.toNat < slots.length
  · have hfilled := type?_fill_self hi type
    cases hslot : slots.type? i with
    | none =>
        rw [hslot] at hfilled
        exact fill_of_type? (h i type hfilled) type
    | some known =>
        rw [hslot] at hfilled
        exact fill_of_type? (h i known hfilled) type
  · exact fill_of_length_le (by omega) type

/-- Slots that have the types of others, and possibly more. -/
structure Extends (before after : Slots) : Prop where
  length : after.length = before.length
  types : ∀ (n : Nat) type, before[n]? = some (some type) → after[n]? = some (some type)

/-- The number of slots without a type. -/
def countOpen (slots : Slots) : Nat := slots.count none

theorem Extends.tail {a b : Option DataType} {before after : Slots}
    (h : Extends (a :: before) (b :: after)) : Extends before after :=
  ⟨Nat.succ.inj h.length, fun n type hn => h.types (n + 1) type hn⟩

theorem Extends.head {a b : Option DataType} {before after : Slots}
    (h : Extends (a :: before) (b :: after)) : a = none ∨ b = a := by
  cases a with
  | none => exact .inl rfl
  | some type =>
      have hzero := h.types 0 type rfl
      exact .inr (Option.some.inj hzero)

/-- Slots that gain a type have fewer open ones. -/
theorem Extends.countOpen_lt {before after : Slots} (h : Extends before after)
    (hne : after ≠ before) : after.countOpen < before.countOpen := by
  induction before generalizing after with
  | nil => exact absurd (List.eq_nil_of_length_eq_zero h.length) hne
  | cons a before ih =>
      cases after with
      | nil => cases h.length
      | cons b after =>
          unfold countOpen at ih ⊢
          rw [List.count_cons, List.count_cons]
          -- The first slot gains a type, or one of the others does.
          by_cases hrest : after = before
          · subst hrest
            have hba : b ≠ a := fun hba => hne (by rw [hba])
            rcases h.head with rfl | hb
            · simp [hba]
            · exact absurd hb hba
          · have hlt := ih h.tail hrest
            rcases h.head with rfl | rfl
            · split <;> simp <;> omega
            · omega

end Slots

/-! ## What typing does to the slots -/

namespace Typing

/-- The computation only gives types to slots that have none, and these are slots of the given
placeholders. -/
def Keeps (mayFill : UInt64 → Prop) (α : Type) (t : Typing α) : Prop :=
  ∀ slots a after, t.runOn slots = .ok (a, after) →
    after.length = slots.length ∧
      ∀ i, after.type? i = slots.type? i ∨ (slots.type? i = none ∧ mayFill i)

theorem rules_keeps (mayFill : UInt64 → Prop) : Rules mayFill (Keeps mayFill) where
  pure a := by
    rintro slots b after ⟨⟩
    exact ⟨rfl, fun _ => .inl rfl⟩
  bind ht hf := by
    intro slots b after h
    rw [runOn_bind] at h
    obtain ⟨⟨a, middle⟩, hmiddle, hafter⟩ := bind_eq_ok.1 h
    obtain ⟨hlength, htypes⟩ := ht slots a middle hmiddle
    obtain ⟨hlength', htypes'⟩ := hf a middle b after hafter
    refine ⟨hlength'.trans hlength, fun i => ?_⟩
    rcases htypes i with h | h
    · rw [← h]
      exact htypes' i
    · exact .inr h
  get := by
    rintro slots b after ⟨⟩
    exact ⟨rfl, fun _ => .inl rfl⟩
  fill i type hi := by
    rintro slots b after ⟨⟩
    refine ⟨Slots.length_fill slots i type, fun j => ?_⟩
    rcases Slots.type?_fill slots i type j with hsame | ⟨rfl, hnone, -⟩
    · exact .inl hsame
    · exact .inr ⟨hnone, hi⟩
  refuse e he := by
    rintro slots b after ⟨⟩

theorem Keeps.knownIn {mayFill : UInt64 → Prop} {α : Type} {t : Typing α}
    (ht : Keeps mayFill α t) {slots after : Slots} {a : α}
    (h : t.runOn slots = .ok (a, after)) : slots.KnownIn after := by
  intro i type hi
  rcases (ht slots a after h).2 i with heq | ⟨hnone, -⟩
  · rw [heq, hi]
  · rw [hi] at hnone
    cases hnone

/-- What a step of a list leaves known is known at the end. -/
theorem exists_of_runOn_mapM {mayFill : UInt64 → Prop} {α β : Type} {f : α → Typing β} {l : List α}
    (hf : ∀ a ∈ l, Keeps mayFill β (f a)) {bs : List β} {slots after : Slots}
    (h : (l.mapM f).runOn slots = .ok (bs, after)) {a : α} (ha : a ∈ l) :
    ∃ b before between, before.length = slots.length ∧ (f a).runOn before = .ok (b, between) ∧
      between.KnownIn after := by
  induction l generalizing slots bs with
  | nil => cases ha
  | cons first l ih =>
      obtain ⟨hfirst, hrest⟩ := List.forall_mem_cons.1 hf
      obtain ⟨b, between, rest, hb, hl, rfl⟩ := runOn_mapM_cons.1 h
      rcases List.mem_cons.1 ha with rfl | ha
      · exact ⟨b, slots, between, rfl, hb, ((rules_keeps mayFill).mapM hrest).knownIn hl⟩
      · obtain ⟨b', before, between', hlength, hrun, hknown⟩ := ih hrest hl ha
        exact ⟨b', before, between', hlength.trans (hfirst _ _ _ hb).1, hrun, hknown⟩

/-- Slots of a statement that has at most the highest number of placeholders. -/
theorem Keeps.extends {mayFill : UInt64 → Prop} {α : Type} {t : Typing α}
    (ht : Keeps mayFill α t) {slots after : Slots} {a : α} (h : t.runOn slots = .ok (a, after))
    (hlength : slots.length ≤ UInt64.size) : slots.Extends after := by
  obtain ⟨hsame, htypes⟩ := ht slots a after h
  refine ⟨hsame, fun n type hn => ?_⟩
  obtain ⟨hlt, -⟩ := List.getElem?_eq_some_iff.1 hn
  -- Every slot has a placeholder.
  have htoNat : (UInt64.ofNat n).toNat = n := UInt64.toNat_ofNat_of_lt' (by omega)
  have htype := htypes (UInt64.ofNat n)
  unfold Slots.type? at htype
  rw [htoNat, hn] at htype
  exact Option.join_eq_some_iff.1 (by simpa using htype)

/-! ## What a failure leaves -/

/-- The slots that a computation leaves, whether it succeeds or fails. -/
def slotsAfter {α : Type} (slots : Slots) (t : Typing α) : Slots :=
  match t.run slots with
  | .ok _ after | .error _ after => after

/-- Whether it succeeds or fails, the computation only gives types to slots that have none, and
these are slots of the given placeholders. -/
def Fills (mayFill : UInt64 → Prop) (α : Type) (t : Typing α) : Prop :=
  ∀ slots : Slots, (t.slotsAfter slots).length = slots.length ∧
    ∀ n : Nat, (t.slotsAfter slots)[n]? = slots[n]? ∨
      slots[n]? = some none ∧ ∃ i, mayFill i ∧ i.toNat = n

theorem slotsAfter_of_runOn {α : Type} {t : Typing α} {slots after : Slots} {a : α}
    (h : t.runOn slots = .ok (a, after)) : t.slotsAfter slots = after := by
  unfold runOn at h
  unfold slotsAfter
  cases hrun : t.run slots with
  | error e middle =>
      rw [hrun] at h
      cases h
  | ok b middle =>
      rw [hrun] at h
      cases h
      rfl

theorem slotsAfter_bind {α β : Type} (t : Typing α) (f : α → Typing β) (slots : Slots) :
    (t >>= f).slotsAfter slots =
      match t.run slots with
      | .ok a after => (f a).slotsAfter after
      | .error _ after => after := by
  simp only [slotsAfter, bind, EStateM.bind, EStateM.run]
  cases t slots <;> rfl

theorem Fills.bind {mayFill : UInt64 → Prop} {α β : Type} {t : Typing α} {f : α → Typing β}
    (ht : Fills mayFill α t) (hf : ∀ a, Fills mayFill β (f a)) : Fills mayFill β (t >>= f) := by
  intro slots
  obtain ⟨hlength, htypes⟩ := ht slots
  rw [slotsAfter_bind]
  unfold slotsAfter at hlength htypes
  cases hrun : t.run slots with
  | error e middle =>
      -- Nothing runs after a failure, so its slots are those of the whole.
      rw [hrun] at hlength htypes
      exact ⟨hlength, htypes⟩
  | ok a middle =>
      rw [hrun] at hlength htypes
      obtain ⟨hlength', htypes'⟩ := hf a middle
      refine ⟨hlength'.trans hlength, fun n => ?_⟩
      rcases htypes n with hsame | hfilled
      · rw [← hsame]
        exact htypes' n
      · exact .inr hfilled

theorem rules_fills (mayFill : UInt64 → Prop) : Rules mayFill (Fills mayFill) where
  pure a slots := ⟨rfl, fun _ => .inl rfl⟩
  bind := Fills.bind
  get slots := ⟨rfl, fun _ => .inl rfl⟩
  fill i type hi slots := by
    refine ⟨Slots.length_fill slots i type, fun n => ?_⟩
    exact (Slots.getElem?_fill slots i type n).imp_right fun h => ⟨h.1, i, hi, h.2⟩
  refuse e he slots := ⟨rfl, fun _ => .inl rfl⟩

/-- What is known before is known afterwards. -/
theorem Fills.extends {mayFill : UInt64 → Prop} {α : Type} {t : Typing α}
    (ht : Fills mayFill α t) (slots : Slots) : slots.Extends (t.slotsAfter slots) := by
  obtain ⟨hlength, htypes⟩ := ht slots
  refine ⟨hlength, fun n type hn => ?_⟩
  rcases htypes n with hsame | ⟨hnone, -⟩
  · rw [hsame, hn]
  · rw [hn] at hnone
    cases hnone

end Typing

end QueryPlanner

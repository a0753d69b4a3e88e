import QueryPlanner.Text.Lowercase

/-!
# Directories of named things

A directory holds things under the lowercase form of their declared names, one for each, in the
order of these forms.  Texts are ordered by code point, which is also the order of their UTF-8
bytes.

Main statements: a thing is found under every spelling of its name (`find?_insert`), and
taking out a name that was new gives back the directory as it was (`erase_insert`).
-/

namespace QueryPlanner

/-- Things that declare a name. -/
class Named (α : Type) where
  name : α → String

/-- The form of its name under which a thing is held. -/
def Named.key {α : Type} [Named α] (a : α) : String := Text.lowercase (Named.name a)

/-- Things in the order of the lowercase forms of their names. -/
structure Directory (α : Type) [Named α] where
  items : List α
  sorted : items.Pairwise fun a b => Named.key a < Named.key b

namespace Directory

variable {α : Type} [Named α]

/-- The directory that holds nothing. -/
def empty : Directory α := ⟨[], .nil⟩

/-- The thing that answers to a name. -/
def find? (d : Directory α) (name : String) : Option α :=
  d.items.find? fun a => Named.key a == Text.lowercase name

def contains (d : Directory α) (name : String) : Bool := (d.find? name).isSome

def isEmpty (d : Directory α) : Bool := d.items.isEmpty

def size (d : Directory α) : Nat := d.items.length

/-- Puts a thing at its place in an ordered list, instead of the one held under the same form. -/
def insertInto (a : α) : List α → List α
  | [] => [a]
  | b :: rest =>
      if Named.key a < Named.key b then a :: b :: rest
      else if Named.key a = Named.key b then a :: rest
      else b :: insertInto a rest

theorem mem_insertInto {a b : α} {items : List α} (h : b ∈ insertInto a items) :
    b = a ∨ b ∈ items := by
  induction items with
  | nil => simpa [insertInto] using h
  | cons c rest ih =>
      unfold insertInto at h
      split at h
      · simpa using h
      · split at h
        · rcases List.mem_cons.1 h with h | h
          · exact .inl h
          · exact .inr (List.mem_cons_of_mem _ h)
        · rcases List.mem_cons.1 h with h | h
          · exact .inr (h ▸ List.mem_cons_self)
          · exact (ih h).imp_right (List.mem_cons_of_mem _)

private theorem lt_of_not_lt_of_ne {a b : String} (h : ¬a < b) (hne : a ≠ b) : b < a := by
  rcases String.le_total a b with hle | hle
  · exact absurd (String.le_antisymm hle (String.not_lt.1 h)) hne
  · exact String.not_le.1 fun h' => hne (String.le_antisymm h' hle)

theorem pairwise_insertInto (a : α) {items : List α}
    (h : items.Pairwise fun a b => Named.key a < Named.key b) :
    (insertInto a items).Pairwise fun a b => Named.key a < Named.key b := by
  induction items with
  | nil => simp [insertInto]
  | cons b rest ih =>
      obtain ⟨hb, hrest⟩ := List.pairwise_cons.1 h
      unfold insertInto
      split
      next hlt =>
        refine List.pairwise_cons.2 ⟨fun c hc => ?_, h⟩
        rcases List.mem_cons.1 hc with rfl | hc
        · exact hlt
        · exact String.lt_trans hlt (hb c hc)
      next hlt =>
        split
        next heq => exact List.pairwise_cons.2 ⟨fun c hc => heq ▸ hb c hc, hrest⟩
        next hne =>
          refine List.pairwise_cons.2 ⟨fun c hc => ?_, ih hrest⟩
          rcases mem_insertInto hc with rfl | hc
          · exact lt_of_not_lt_of_ne hlt hne
          · exact hb c hc

/-- Puts a thing in, instead of the one held under the same form of its name. -/
def insert (d : Directory α) (a : α) : Directory α :=
  ⟨insertInto a d.items, pairwise_insertInto a d.sorted⟩

/-- Takes out what answers to a name. -/
def erase (d : Directory α) (name : String) : Directory α :=
  ⟨d.items.filter fun a => Named.key a != Text.lowercase name, d.sorted.filter _⟩

/-! ## Laws -/

theorem ext {d e : Directory α} (h : d.items = e.items) : d = e := by
  cases d; cases e; cases h; rfl

@[simp] theorem items_empty : (empty : Directory α).items = [] := rfl

@[simp] theorem find?_empty (name : String) : (empty : Directory α).find? name = none := rfl

theorem mem_of_find? {d : Directory α} {name : String} {a : α} (h : d.find? name = some a) :
    a ∈ d.items := List.mem_of_find?_eq_some h

theorem key_of_find? {d : Directory α} {name : String} {a : α} (h : d.find? name = some a) :
    Named.key a = Text.lowercase name := by
  simpa using List.find?_some h

/-- No two things of a directory have names of one lowercase form. -/
theorem eq_of_key_eq {d : Directory α} {a b : α} (ha : a ∈ d.items) (hb : b ∈ d.items)
    (h : Named.key a = Named.key b) : a = b := by
  obtain ⟨i, hi, rfl⟩ := List.getElem_of_mem ha
  obtain ⟨j, hj, rfl⟩ := List.getElem_of_mem hb
  have hsorted := List.pairwise_iff_getElem.1 d.sorted
  rcases Nat.lt_trichotomy i j with hij | rfl | hij
  · exact absurd (h ▸ hsorted i j hi hj hij) (String.lt_irrefl _)
  · rfl
  · exact absurd (h ▸ hsorted j i hj hi hij) (String.lt_irrefl _)

/-- A thing is found under every spelling of its name. -/
theorem find?_of_mem {d : Directory α} {a : α} (ha : a ∈ d.items) {name : String}
    (hname : Text.lowercase name = Named.key a) : d.find? name = some a := by
  have hsome : (d.find? name).isSome := List.find?_isSome.2 ⟨a, ha, by simp [hname]⟩
  obtain ⟨b, hb⟩ := Option.isSome_iff_exists.1 hsome
  rw [hb, eq_of_key_eq (mem_of_find? hb) ha ((key_of_find? hb).trans hname)]

/-- Two spellings of one lowercase form find the same thing. -/
theorem find?_congr (d : Directory α) {m n : String} (h : Text.lowercase m = Text.lowercase n) :
    d.find? m = d.find? n := by
  simp [find?, h]

private theorem find?_insertInto (a : α) (key : String) (items : List α)
    (h : items.Pairwise fun a b => Named.key a < Named.key b) :
    (insertInto a items).find? (fun b => Named.key b == key) =
      if Named.key a = key then some a else items.find? (fun b => Named.key b == key) := by
  induction items with
  | nil => by_cases hk : Named.key a = key <;> simp [insertInto, hk]
  | cons b rest ih =>
      obtain ⟨hb, hrest⟩ := List.pairwise_cons.1 h
      unfold insertInto
      by_cases hk : Named.key a = key
      · subst hk
        split
        · simp
        · split
          · simp
          next hne =>
            have hba : (Named.key b == Named.key a) = false := by
              simpa using fun h => hne h.symm
            simp [hba, ih hrest]
      · split
        · simp [hk]
        · split
          next heq =>
            have hbk : (Named.key b == key) = false := by simpa [← heq] using hk
            simp [hk, hbk]
          · simp only [List.find?_cons, ih hrest, hk, if_false]

theorem find?_insert (d : Directory α) (a : α) (name : String) :
    (d.insert a).find? name =
      if Named.key a = Text.lowercase name then some a else d.find? name :=
  find?_insertInto a _ _ d.sorted

theorem find?_erase (d : Directory α) (erased name : String) :
    (d.erase erased).find? name =
      if Text.lowercase erased = Text.lowercase name then none else d.find? name := by
  simp only [find?, erase, List.find?_filter]
  split
  next h =>
    rw [List.find?_eq_none]
    intro a _
    simp [h]
  next h =>
    congr 1
    funext a
    by_cases ha : Named.key a = Text.lowercase name
    · simp [ha, Ne.symm h]
    · simp [ha]

private theorem filter_insertInto (a : α) (items : List α)
    (h : ∀ b ∈ items, Named.key b ≠ Named.key a) :
    (insertInto a items).filter (fun b => Named.key b != Named.key a) = items := by
  induction items with
  | nil => simp [insertInto]
  | cons b rest ih =>
      have hb : Named.key b ≠ Named.key a := h b List.mem_cons_self
      have hrest : ∀ c ∈ rest, Named.key c ≠ Named.key a :=
        fun c hc => h c (List.mem_cons_of_mem _ hc)
      have keep : rest.filter (fun b => Named.key b != Named.key a) = rest :=
        List.filter_eq_self.2 fun c hc => by simpa using hrest c hc
      unfold insertInto
      split
      · simp [hb, keep]
      · rw [if_neg (Ne.symm hb)]
        simp [hb, ih hrest]

/-- Taking out a name that was new when it was put in gives back the directory as it was. -/
theorem erase_insert {d : Directory α} {a : α} {name : String}
    (hname : Text.lowercase name = Named.key a) (hnew : d.find? (Named.name a) = none) :
    (d.insert a).erase name = d := by
  apply ext
  simp only [erase, insert, hname]
  apply filter_insertInto
  intro b hb hk
  have := List.find?_eq_none.1 hnew b hb
  simp [Named.key] at this hk
  exact this hk

end Directory

end QueryPlanner

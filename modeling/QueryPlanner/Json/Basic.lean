import QueryPlanner.Number.Binary64

/-!
# JSON values

A value keeps the members of an object in the order of the text, repeated names included, so that
a reader of one particular document can refuse the repetition while another takes the last value.
-/

namespace QueryPlanner

/-- A JSON value. -/
inductive Json where
  | null
  | bool (value : Bool)
  /-- A number without fraction and exponent, of at most 64 bits with or without sign. -/
  | integer (value : Int)
  /-- Any other number. -/
  | double (value : Binary64)
  | string (value : String)
  /-- Well-formed text that denotes no value: a number beyond the range of the format, a text
  with half of a surrogate pair, or an object with such a name. -/
  | unreadable
  | array (items : List Json)
  | object (members : List (String × Json))

namespace Json

mutual

/-- How deep arrays and objects are nested. -/
def depth : Json → Nat
  | .array items => depthItems items + 1
  | .object members => depthMembers members + 1
  | _ => 0

def depthItems : List Json → Nat
  | [] => 0
  | item :: rest => max item.depth (depthItems rest)

def depthMembers : List (String × Json) → Nat
  | [] => 0
  | (_, value) :: rest => max value.depth (depthMembers rest)

end

mutual

/-- Whether every part of the value denotes something. -/
def readable : Json → Bool
  | .unreadable => false
  | .array items => readableItems items
  | .object members => readableMembers members
  | _ => true

def readableItems : List Json → Bool
  | [] => true
  | item :: rest => item.readable && readableItems rest

def readableMembers : List (String × Json) → Bool
  | [] => true
  | (_, value) :: rest => value.readable && readableMembers rest

end

mutual

/-- The value in which only the last of several members with one name is left. -/
def lastWins : Json → Json
  | .array items => .array (lastWinsItems items)
  | .object members => .object (lastWinsMembers members)
  | value => value

def lastWinsItems : List Json → List Json
  | [] => []
  | item :: rest => item.lastWins :: lastWinsItems rest

def lastWinsMembers : List (String × Json) → List (String × Json)
  | [] => []
  | (name, value) :: rest =>
      if rest.any (·.1 == name) then lastWinsMembers rest
      else (name, value.lastWins) :: lastWinsMembers rest

end

/-! ## Members of an object -/

/-- What an object says about a name. -/
inductive Member where
  | absent
  | present (value : Json)
  | repeated

/-- Looks a name up among the members of an object. -/
def member (members : List (String × Json)) (name : String) : Member :=
  match members.filter (·.1 == name) with
  | [] => .absent
  | [(_, value)] => .present value
  | _ => .repeated

/-- The value of a member that has to be there once. -/
def required? (members : List (String × Json)) (name : String) : Option Json :=
  match member members name with
  | .present value => some value
  | _ => none

/-- The value of a member that may be absent; a repeated member is refused. -/
def optional? (members : List (String × Json)) (name : String) : Option (Option Json) :=
  match member members name with
  | .absent => some none
  | .present value => some (some value)
  | .repeated => none

theorem mem_of_required? {members : List (String × Json)} {name : String} {value : Json}
    (h : required? members name = some value) : (name, value) ∈ members := by
  unfold required? member at h
  split at h <;> simp at h
  next v hm =>
    subst h
    split at hm <;> simp at hm
    next key w hf =>
      subst hm
      have hmem : (key, w) ∈ members.filter (·.1 == name) := by simp [hf]
      obtain ⟨hin, hkey⟩ := List.mem_filter.1 hmem
      simp only [beq_iff_eq] at hkey
      exact hkey ▸ hin

theorem sizeOf_lt_of_required? {members : List (String × Json)} {name : String} {value : Json}
    (h : required? members name = some value) : sizeOf value < sizeOf (Json.object members) := by
  have hmem := List.sizeOf_lt_of_mem (mem_of_required? h)
  simp only [Prod.mk.sizeOf_spec, Json.object.sizeOf_spec] at hmem ⊢
  omega

end Json

end QueryPlanner

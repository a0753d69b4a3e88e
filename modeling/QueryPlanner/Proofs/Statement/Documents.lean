import QueryPlanner.Statement.Document

/-!
# Documents are read back

A statement is written as a tree of objects, and reading looks their members up by name.  Every
part of a statement is read back from its document: a text, a flag or a number from the scalar that
stands for it, an alternative by the name that its object carries, a part that may be absent from
the `null` in its place.  The rules `need?_eq`, `maybe?_eq`, `orElse?_eq` and `tag?_eq` carry this
from the members to the object, and expressions follow by recursion on their operands.

A request is told from a bare statement by the member `statement`, which no statement has
(`ofMembers?_toJson`).

Main statement: `documents_readBack`.
-/

namespace QueryPlanner

theorem some_bind {α β : Type} {a : α} {f : α → Option β} : (some a >>= f) = f a := rfl

theorem bind_attach {α β : Type} {o : Option α} {a : α} (h : o = some a)
    (f : {a // o = some a} → Option β) : o.attach >>= f = f ⟨a, h⟩ := by
  subst h
  rfl

namespace Json

/-- What was written is read back. -/
def Reads {α : Type} (read : Json → Option α) (write : α → Json) : Prop :=
  ∀ a, read (write a) = some a

variable {α : Type} {read : Json → Option α} {write : α → Json} {members : List (String × Json)}
  {name : String}

/-! ## Rules for values -/

namespace Reads

theorem text : Reads text? .string := fun _ => rfl

theorem flag : Reads flag? .bool := fun _ => rfl

theorem word : Reads word? ofWord := word?_ofWord

theorem list (h : Reads read write) : Reads (list? read) fun as => .array (as.map write) := by
  intro as
  show (as.map write).mapM read = some as
  induction as with
  | nil => rfl
  | cons a as ih =>
      rw [List.map_cons, List.mapM_cons, h a, ih]
      rfl

/-- A value that is never written as `null` may be absent. -/
theorem nullOr (h : Reads read write) (hnull : ∀ a, write a ≠ .null) :
    Reads (nullOr? read) (ofOption write) := by
  intro o
  cases o with
  | none => rfl
  | some a =>
      show nullOr? read (write a) = some (some a)
      unfold nullOr?
      split
      next hj => exact absurd hj (hnull a)
      next =>
        rw [h a]
        rfl

end Reads

theorem ofWord_ne_null (n : UInt64) : ofWord n ≠ .null := nofun

/-! ## Rules for members -/

theorem need?_eq {a : α} (h : Reads read write)
    (hmember : required? members name = some (write a)) : need? read members name = some a := by
  rw [need?, hmember]
  exact h a

theorem maybe?_eq {o : Option α} (h : Reads read write) (hnull : ∀ a, write a ≠ .null)
    (hmember : optional? members name = some (some (ofOption write o))) :
    maybe? read members name = some o := by
  rw [maybe?, hmember]
  exact h.nullOr hnull o

theorem orElse?_eq {a fallback : α} (h : Reads read write)
    (hmember : optional? members name = some (some (write a))) :
    orElse? read members name fallback = some a := by
  rw [orElse?, hmember]
  exact h a

/-- An alternative is told by its name, however freely the document may be written. -/
theorem tag?_eq {κ : Type} {strictness : Strictness} {all : List κ} {name : κ → String} {k : κ}
    (hmember : required? members "kind" = some (.string (name k)))
    (hfind : all.find? (name · == name k) = some k) :
    tag? strictness all name members = some k := by
  rw [tag?, hmember]
  exact hfind

end Json

open Json

/-! ## Expressions -/

theorem DataType.reads (strictness : Strictness) : Reads (ofJson? strictness) toJson :=
  ofJson?_toJson strictness

theorem BinaryOp.reads (strictness : Strictness) : Reads (ofJson? strictness) toJson :=
  ofName?_name

namespace Expr

theorem Kind.find?_name (kind : Kind) : all.find? (name · == kind.name) = some kind := by
  cases kind <;> rfl

section Operands

variable {strictness : Strictness} {members : List (String × Json)}

theorem ofJson?_binary {op : BinaryOp} {l r : Json} {left right : Expr}
    (htag : tag? strictness Kind.all Kind.name members = some .binary)
    (hop : need? (BinaryOp.ofJson? .lenient) members "op" = some op)
    (hl : required? members "left" = some l) (hr : required? members "right" = some r)
    (hleft : ofJson? .lenient l = some left) (hright : ofJson? .lenient r = some right) :
    ofJson? strictness (.object members) = some (.binary op left right) := by
  rw [ofJson?, htag, some_bind]
  dsimp only
  rw [hop, some_bind, bind_attach hl, bind_attach hr, hleft, hright]
  rfl

theorem ofJson?_not {j : Json} {operand : Expr}
    (htag : tag? strictness Kind.all Kind.name members = some .not)
    (hj : required? members "expr" = some j) (hoperand : ofJson? .lenient j = some operand) :
    ofJson? strictness (.object members) = some (.not operand) := by
  rw [ofJson?, htag, some_bind]
  dsimp only
  rw [bind_attach hj, hoperand]
  rfl

theorem ofJson?_isNull {j : Json} {operand : Expr} {negated : Bool}
    (htag : tag? strictness Kind.all Kind.name members = some .isNull)
    (hj : required? members "expr" = some j) (hoperand : ofJson? .lenient j = some operand)
    (hnegated : orElse? flag? members "negated" false = some negated) :
    ofJson? strictness (.object members) = some (.isNull operand negated) := by
  rw [ofJson?, htag, some_bind]
  dsimp only
  rw [bind_attach hj, hoperand, hnegated]
  rfl

theorem ofJson?_between {j l h : Json} {operand low high : Expr} {negated : Bool}
    (htag : tag? strictness Kind.all Kind.name members = some .between)
    (hj : required? members "expr" = some j) (hl : required? members "low" = some l)
    (hh : required? members "high" = some h) (hoperand : ofJson? .lenient j = some operand)
    (hlow : ofJson? .lenient l = some low) (hhigh : ofJson? .lenient h = some high)
    (hnegated : orElse? flag? members "negated" false = some negated) :
    ofJson? strictness (.object members) = some (.between operand low high negated) := by
  rw [ofJson?, htag, some_bind]
  dsimp only
  rw [bind_attach hj, bind_attach hl, bind_attach hh, hoperand, hlow, hhigh, hnegated]
  rfl

theorem ofJson?_row {js : List Json} {items : List Expr}
    (htag : tag? strictness Kind.all Kind.name members = some .row)
    (hjs : required? members "items" = some (.array js))
    (hitems : js.mapM (ofJson? .lenient) = some items) :
    ofJson? strictness (.object members) = some (.row items) := by
  rw [ofJson?, htag, some_bind]
  dsimp only
  split
  next js' hjs' =>
    obtain rfl : js' = js := by simpa using hjs'.symm.trans hjs
    -- That the items are smaller than the row only matters for the recursion.
    rw [List.mapM_subtype (g := ofJson? .lenient) (fun _ _ => rfl), List.unattach_attach, hitems]
    rfl
  next hne => exact absurd hjs (hne js)

end Operands

mutual

/-- By recursion on the operands, which are read leniently wherever the expression stands. -/
theorem reads (strictness : Strictness) : (e : Expr) → ofJson? strictness e.toJson = some e
  | .column table name => by
      rw [toJson, ofJson?, tag?_eq rfl (Kind.find?_name .column), some_bind]
      dsimp only
      rw [maybe?_eq .text nofun rfl, need?_eq .text rfl]
      rfl
  | .literal value => by
      rw [toJson, ofJson?, tag?_eq rfl (Kind.find?_name .literal), some_bind]
      dsimp only
      rw [need?_eq Value.ofJson?_toJson rfl]
      rfl
  | .parameter index => by
      rw [toJson, ofJson?, tag?_eq rfl (Kind.find?_name .parameter), some_bind]
      dsimp only
      rw [need?_eq .word rfl]
      rfl
  | .binary op left right =>
      ofJson?_binary (tag?_eq rfl (Kind.find?_name .binary)) (need?_eq (BinaryOp.reads _) rfl) rfl
        rfl (reads _ left) (reads _ right)
  | .not operand => ofJson?_not (tag?_eq rfl (Kind.find?_name .not)) rfl (reads _ operand)
  | .isNull operand negated =>
      ofJson?_isNull (tag?_eq rfl (Kind.find?_name .isNull)) rfl (reads _ operand)
        (orElse?_eq .flag rfl)
  | .between operand low high negated =>
      ofJson?_between (tag?_eq rfl (Kind.find?_name .between)) rfl rfl rfl (reads _ operand)
        (reads _ low) (reads _ high) (orElse?_eq .flag rfl)
  | .row items => ofJson?_row (tag?_eq rfl (Kind.find?_name .row)) rfl (readsItems items)

theorem readsItems : (items : List Expr) → (toJsonItems items).mapM (ofJson? .lenient) = some items
  | [] => rfl
  | item :: rest => by
      rw [toJsonItems, List.mapM_cons, reads _ item, readsItems rest]
      rfl

end

theorem toJson_ne_null (e : Expr) : e.toJson ≠ .null := by
  cases e <;> nofun

end Expr

/-! ## Parts of statements -/

theorem ObjectName.reads : Reads ofJson? toJson := by
  intro n
  rw [toJson, ofJson?, maybe?_eq .text nofun rfl, need?_eq .text rfl]
  rfl

theorem TableRef.reads : Reads ofJson? toJson := by
  intro r
  rw [toJson, ofJson?, need?_eq ObjectName.reads rfl, maybe?_eq .text nofun rfl]
  rfl

namespace SelectItem

theorem Kind.find?_name (kind : Kind) : all.find? (name · == kind.name) = some kind := by
  cases kind <;> rfl

theorem reads (strictness : Strictness) : Reads (ofJson? strictness) toJson := by
  intro item
  cases item with
  | wildcard =>
      rw [toJson, ofJson?, tag?_eq rfl (Kind.find?_name .wildcard)]
      rfl
  | qualifiedWildcard table =>
      rw [toJson, ofJson?, tag?_eq rfl (Kind.find?_name .qualifiedWildcard), some_bind]
      dsimp only
      rw [need?_eq .text rfl]
      rfl
  | expr e aliasName defaultName =>
      rw [toJson, ofJson?, tag?_eq rfl (Kind.find?_name .expr), some_bind]
      dsimp only
      rw [need?_eq (Expr.reads _) rfl, maybe?_eq .text nofun rfl, maybe?_eq .text nofun rfl]
      rfl

end SelectItem

theorem OrderItem.reads (strictness : Strictness) : Reads (ofJson? strictness) toJson := by
  intro o
  rw [toJson, ofJson?, need?_eq (Expr.reads _) rfl, orElse?_eq .flag rfl]
  rfl

namespace Select

/-- A query is read back from its members, also behind the name of an alternative. -/
theorem ofMembers?_toMembers (strictness : Strictness) (q : Select)
    {members : List (String × Json)}
    (hmembers : members = q.toMembers ∨ ∃ kind, members = ("kind", kind) :: q.toMembers) :
    ofMembers? strictness members = some q := by
  rcases hmembers with rfl | ⟨kind, rfl⟩ <;>
  · rw [ofMembers?, need?_eq (SelectItem.reads strictness).list rfl,
      orElse?_eq TableRef.reads.list rfl, maybe?_eq (Expr.reads strictness) Expr.toJson_ne_null rfl,
      orElse?_eq (OrderItem.reads strictness).list rfl, maybe?_eq .word ofWord_ne_null rfl,
      maybe?_eq .word ofWord_ne_null rfl]
    rfl

theorem reads (strictness : Strictness) : Reads (ofJson? strictness) toJson :=
  fun q => ofMembers?_toMembers strictness q (.inl rfl)

end Select

namespace InsertSource

theorem Kind.find?_name (kind : Kind) : all.find? (name · == kind.name) = some kind := by
  cases kind <;> rfl

theorem reads (strictness : Strictness) : Reads (ofJson? strictness) toJson := by
  intro source
  cases source with
  | values rows =>
      have hrows := (Reads.list (Expr.reads .lenient)).list
      rw [toJson, ofJson?, tag?_eq rfl (Kind.find?_name .values), some_bind]
      dsimp only
      rw [need?_eq hrows rfl]
      rfl
  | select query =>
      rw [toJson, ofJson?, tag?_eq rfl (Kind.find?_name .select), some_bind]
      dsimp only
      rw [need?_eq (Select.reads _) rfl]
      rfl

end InsertSource

theorem Assignment.reads (strictness : Strictness) : Reads (ofJson? strictness) toJson := by
  intro a
  rw [toJson, ofJson?, need?_eq .text rfl, need?_eq (Expr.reads _) rfl]
  rfl

theorem ColumnDefinition.reads (strictness : Strictness) :
    Reads (ofJson? strictness) toJson := by
  intro d
  rw [toJson, ofJson?, need?_eq .text rfl, need?_eq (DataType.reads _) rfl, orElse?_eq .flag rfl,
    maybe?_eq .text nofun rfl]
  rfl

/-! ## Statements -/

namespace Statement

theorem Kind.find?_name (kind : Kind) : all.find? (name · == kind.name) = some kind := by
  cases kind <;> rfl

theorem reads (strictness : Strictness) : Reads (ofJson? strictness) toJson := by
  intro statement
  have htable := ObjectName.reads
  have hnames := Reads.text.list
  cases statement with
  | select query =>
      show ofJson? strictness (.object _) = some _
      rw [ofJson?, tag?_eq rfl (Kind.find?_name .select), some_bind]
      dsimp only
      rw [Select.ofMembers?_toMembers _ query (.inr ⟨_, rfl⟩)]
      rfl
  | insert table columns source =>
      show ofJson? strictness (.object _) = some _
      rw [ofJson?, tag?_eq rfl (Kind.find?_name .insert), some_bind]
      dsimp only
      rw [need?_eq htable rfl, orElse?_eq hnames rfl, need?_eq (InsertSource.reads _) rfl]
      rfl
  | update table assignments predicate =>
      show ofJson? strictness (.object _) = some _
      rw [ofJson?, tag?_eq rfl (Kind.find?_name .update), some_bind]
      dsimp only
      rw [need?_eq htable rfl, need?_eq (Assignment.reads _).list rfl,
        maybe?_eq (Expr.reads _) Expr.toJson_ne_null rfl]
      rfl
  | delete table predicate =>
      show ofJson? strictness (.object _) = some _
      rw [ofJson?, tag?_eq rfl (Kind.find?_name .delete), some_bind]
      dsimp only
      rw [need?_eq htable rfl, maybe?_eq (Expr.reads _) Expr.toJson_ne_null rfl]
      rfl
  | createSchema name =>
      show ofJson? strictness (.object _) = some _
      rw [ofJson?, tag?_eq rfl (Kind.find?_name .createSchema), some_bind]
      dsimp only
      rw [need?_eq .text rfl]
      rfl
  | dropSchema name =>
      show ofJson? strictness (.object _) = some _
      rw [ofJson?, tag?_eq rfl (Kind.find?_name .dropSchema), some_bind]
      dsimp only
      rw [need?_eq .text rfl]
      rfl
  | createTable table columns =>
      show ofJson? strictness (.object _) = some _
      rw [ofJson?, tag?_eq rfl (Kind.find?_name .createTable), some_bind]
      dsimp only
      rw [need?_eq htable rfl, need?_eq (ColumnDefinition.reads _).list rfl]
      rfl
  | dropTable table =>
      show ofJson? strictness (.object _) = some _
      rw [ofJson?, tag?_eq rfl (Kind.find?_name .dropTable), some_bind]
      dsimp only
      rw [need?_eq htable rfl]
      rfl
  | createIndex name table columns unique =>
      show ofJson? strictness (.object _) = some _
      rw [ofJson?, tag?_eq rfl (Kind.find?_name .createIndex), some_bind]
      dsimp only
      rw [need?_eq .text rfl, need?_eq htable rfl, need?_eq hnames rfl, orElse?_eq .flag rfl]
      rfl
  | dropIndex name table =>
      show ofJson? strictness (.object _) = some _
      rw [ofJson?, tag?_eq rfl (Kind.find?_name .dropIndex), some_bind]
      dsimp only
      rw [need?_eq .text rfl, need?_eq htable rfl]
      rfl
  | createView name columns query =>
      show ofJson? strictness (.object _) = some _
      rw [ofJson?, tag?_eq rfl (Kind.find?_name .createView), some_bind]
      dsimp only
      rw [need?_eq .text rfl, orElse?_eq hnames rfl, need?_eq (Select.reads _) rfl]
      rfl
  | dropView name =>
      show ofJson? strictness (.object _) = some _
      rw [ofJson?, tag?_eq rfl (Kind.find?_name .dropView), some_bind]
      dsimp only
      rw [need?_eq .text rfl]
      rfl
  | alterTable table =>
      show ofJson? strictness (.object _) = some _
      rw [ofJson?, tag?_eq rfl (Kind.find?_name .alterTable), some_bind]
      dsimp only
      rw [need?_eq htable rfl]
      rfl
  | rename source target =>
      show ofJson? strictness (.object _) = some _
      rw [ofJson?, tag?_eq rfl (Kind.find?_name .rename), some_bind]
      dsimp only
      rw [need?_eq htable rfl, need?_eq htable rfl]
      rfl
  | revoke target grantee =>
      show ofJson? strictness (.object _) = some _
      rw [ofJson?, tag?_eq rfl (Kind.find?_name .revoke), some_bind]
      dsimp only
      rw [need?_eq htable rfl, need?_eq .text rfl]
      rfl

theorem exists_toJson_eq (statement : Statement) :
    ∃ members, statement.toJson = .object members := by
  cases statement <;> exact ⟨_, rfl⟩

/-- No statement has a member `statement`, so none is taken for a request with hints. -/
theorem ofMembers?_toJson {statement : Statement} {members : List (String × Json)}
    (h : statement.toJson = .object members) : Request.ofMembers? members = none := by
  cases statement <;> cases h <;> rfl

end Statement

/-! ## Requests -/

namespace Request

/-- The document of hints. -/
def hintsToJson (hints : List (Option DataType)) : Json :=
  .array (hints.map (ofOption DataType.toJson))

theorem readsHints : Reads hints? hintsToJson :=
  .list (.nullOr (DataType.reads .strict) nofun)

/-- A bare statement is a request without hints. -/
theorem ofJson?_statement (statement : Statement) :
    ofJson? statement.toJson = some { statement } := by
  obtain ⟨members, hmembers⟩ := statement.exists_toJson_eq
  have hread := Statement.reads .lenient statement
  rw [hmembers] at hread ⊢
  unfold ofJson?
  dsimp only
  rw [Statement.ofMembers?_toJson hmembers, hread]
  rfl

/-- What else an object holds does not matter, as long as the statement and the hints stand in it
once. -/
theorem ofJson?_object {statement : Statement} {hints : List (Option DataType)}
    {members : List (String × Json)}
    (hstatement : required? members "statement" = some statement.toJson)
    (hhints : optional? members "parameter_types" = some (some (hintsToJson hints))) :
    ofJson? (.object members) = some { statement, hints } := by
  unfold ofJson? ofMembers?
  dsimp only
  rw [need?_eq (Statement.reads .lenient) hstatement, orElse?_eq readsHints hhints]
  rfl

end Request

/-- Every statement is read back from its document, as a statement of its own and as a request
without hints; and a request that states it with hints is read as the statement and these hints. -/
theorem Statement.documents_readBack (statement : Statement) :
    (∀ strictness, ofJson? strictness statement.toJson = some statement) ∧
      Request.ofJson? statement.toJson = some { statement, hints := [] } ∧
        ∀ hints, Request.ofJson? (.object [("statement", statement.toJson),
          ("parameter_types", Request.hintsToJson hints)]) = some { statement, hints } := by
  refine ⟨fun strictness => Statement.reads strictness statement,
    Request.ofJson?_statement statement, fun hints => ?_⟩
  exact Request.ofJson?_object rfl rfl

end QueryPlanner

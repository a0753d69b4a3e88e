import QueryPlanner.Proofs.Computation

/-!
# How expressions get their types

The cases of the recursion through an expression, one equation for each.  Typing takes few kinds of
steps: it reads the slots, fills a slot of a placeholder in the expression, or refuses it.  What is
kept by these steps and by sequences of them is kept by typing as a whole (`Rules.resolve`).
-/

namespace QueryPlanner

namespace BoundExpr

/-! ## Equations -/

@[simp] theorem infer_none (e : BoundExpr) : e.infer none = pure () := by
  cases e <;> rfl

@[simp] theorem inferBoth_none_none (left right : BoundExpr) :
    inferBoth left right none none = pure () := by
  show (left.infer none >>= fun _ => right.infer none) = _
  rw [infer_none, infer_none]
  rfl

@[simp] theorem inferBoth_none_some (left right : BoundExpr) (type : DataType) :
    inferBoth left right none (some type) = left.infer (some type) :=
  bind_pure_unit (x := left.infer (some type))

@[simp] theorem inferBoth_some_none (left right : BoundExpr) (type : DataType) :
    inferBoth left right (some type) none = right.infer (some type) := rfl

@[simp] theorem inferBoth_some_some (left right : BoundExpr) (leftType rightType : DataType) :
    inferBoth left right (some leftType) (some rightType) = pure () := rfl

/-- The type of an arithmetic operation on operands of these types, if they are numeric. -/
def widest : Option DataType → Option DataType → Option DataType
  | some a, some b => a.promote? b
  | a, b => a.or b

theorem arithmeticType_cases (whole : BoundExpr) (leftType rightType : Option DataType) :
    (∃ type, whole.arithmeticType leftType rightType =
        throw (.typeMismatch whole.sql (.notNumeric type))) ∨
      (∀ type ∈ leftType.toList ++ rightType.toList, type.isNumeric) ∧
        whole.arithmeticType leftType rightType = pure (widest leftType rightType) := by
  unfold arithmeticType
  cases h : (leftType.toList ++ rightType.toList).find? (!·.isNumeric) with
  | some type => exact .inl ⟨type, rfl⟩
  | none =>
      refine .inr ⟨by simpa [or_imp, forall_and] using h, ?_⟩
      cases leftType <;> cases rightType <;> rfl

theorem resolve_comparison {op : BinaryOp} (h : op.group = .comparison) (left right : BoundExpr) :
    (binary op left right).resolve = do
      (binary op left right).resolveComparison left right
      return some .boolean := by
  rw [resolve, h]

theorem resolve_logical {op : BinaryOp} (h : op.group = .logical) (left right : BoundExpr) :
    (binary op left right).resolve = do
      left.resolvePredicate
      right.resolvePredicate
      return some .boolean := by
  rw [resolve, h]
  simp only [resolvePredicate, bind_assoc]

theorem resolve_not (operand : BoundExpr) :
    (not operand).resolve = do
      operand.resolvePredicate
      return some .boolean := by
  rw [resolve]
  simp only [resolvePredicate, bind_assoc]

theorem resolve_arithmetic {op : BinaryOp} (h : op.group = .arithmetic)
    (left right : BoundExpr) :
    (binary op left right).resolve = (do
      let leftType ← left.resolve
      let rightType ← right.resolve
      inferBoth left right leftType rightType
      arithmeticType (binary op left right) leftType rightType) := by
  rw [resolve, h]

theorem resolve_isNull_of_isRow {operand : BoundExpr} (h : operand.isRow = true)
    (negated : Bool) : (isNull operand negated).resolve = pure (some .boolean) := by
  rw [resolve, h]
  rfl

theorem resolve_isNull {operand : BoundExpr} (h : operand.isRow = false) (negated : Bool) :
    (isNull operand negated).resolve = do
      let _ ← operand.resolve
      return some .boolean := by
  have hassoc := bind_assoc operand.resolve (fun _ => pure ())
    fun _ => (pure (some .boolean) : Typing (Option DataType))
  rw [resolve, h]
  exact hassoc

theorem resolveComparison_rows {lefts rights : List BoundExpr}
    (h : lefts.length = rights.length) (whole : BoundExpr) :
    whole.resolveComparison (row lefts) (row rights) = whole.resolveComparisons lefts rights := by
  rw [resolveComparison, if_pos h]

theorem resolveComparison_of_length_ne {lefts rights : List BoundExpr}
    (h : lefts.length ≠ rights.length) (whole : BoundExpr) :
    whole.resolveComparison (row lefts) (row rights) =
      throw (.invalidStatement (.rowArity whole.sql)) := by
  rw [resolveComparison, if_neg h]

/-- A row is not compared with a scalar. -/
theorem resolveComparison_mixed {left right : BoundExpr} (h : (left.isRow || right.isRow) = true)
    (hne : ∀ lefts rights, left = row lefts → right = row rights → False) (whole : BoundExpr) :
    whole.resolveComparison left right = throw (.invalidStatement (.rowWithScalar whole.sql)) := by
  rw [resolveComparison, if_pos h]
  · rfl
  · exact hne

theorem resolveComparison_scalars {left right : BoundExpr}
    (h : (left.isRow || right.isRow) = false) (whole : BoundExpr) :
    whole.resolveComparison left right = (do
      let leftType ← left.resolve
      let rightType ← right.resolve
      inferBoth left right leftType rightType
      requireComparable whole leftType rightType) := by
  rw [resolveComparison, h]
  · rfl
  · rintro lefts rights rfl rfl
    cases h

theorem resolveComparisons_of_nil {lefts rights : List BoundExpr} (h : lefts = [] ∨ rights = [])
    (whole : BoundExpr) : whole.resolveComparisons lefts rights = pure () := by
  rw [resolveComparisons]
  rintro left lefts' right rights' rfl rfl
  rcases h with h | h <;> cases h

/-- Requires an expression of a type to fit a column of the given type. -/
def fit (e : BoundExpr) (target actual : Option DataType) : Typing Unit :=
  match actual, target with
  | none, target => e.infer target
  | some actual, some target =>
      if actual.comparable target then pure ()
      else throw (.typeMismatch e.sql (.notAssignable actual target))
  | some _, none => pure ()

theorem resolveFor_eq (e : BoundExpr) (target : Option DataType) :
    e.resolveFor target = e.resolve >>= e.fit target := rfl

/-- Induction on the recursion through an expression: over expressions, over comparisons and over
comparisons of the items of rows. -/
theorem typing_induction {P : BoundExpr → Prop} {C : BoundExpr → BoundExpr → BoundExpr → Prop}
    {Cs : BoundExpr → List BoundExpr → List BoundExpr → Prop}
    (column : ∀ c, P (.column c)) (literal : ∀ value, P (.literal value))
    (parameter : ∀ index, P (.parameter index))
    (comparison : ∀ (op : BinaryOp) left right, op.group = .comparison →
      C (.binary op left right) left right → P (.binary op left right))
    (logical : ∀ (op : BinaryOp) left right, op.group = .logical → P left → P right →
      P (.binary op left right))
    (arithmetic : ∀ (op : BinaryOp) left right, op.group = .arithmetic → P left → P right →
      P (.binary op left right))
    (not : ∀ operand, P operand → P (.not operand))
    (isNull : ∀ operand negated, operand.isRow = false → P operand → P (.isNull operand negated))
    (isNull_row : ∀ operand negated, operand.isRow = true → P (.isNull operand negated))
    (between : ∀ operand low high negated,
      C (.between operand low high negated) operand low →
        C (.between operand low high negated) operand high → P (.between operand low high negated))
    (row : ∀ items, P (.row items))
    (rows : ∀ whole lefts rights, lefts.length = rights.length → Cs whole lefts rights →
      C whole (.row lefts) (.row rights))
    (uneven : ∀ whole lefts rights, lefts.length ≠ rights.length →
      C whole (.row lefts) (.row rights))
    (mixed : ∀ whole left right,
      (∀ lefts rights, left = .row lefts → right = .row rights → False) →
        (left.isRow || right.isRow) = true → C whole left right)
    (scalars : ∀ whole left right, (left.isRow || right.isRow) = false → P left → P right →
      C whole left right)
    (items : ∀ whole left lefts right rights, C whole left right → Cs whole lefts rights →
      Cs whole (left :: lefts) (right :: rights))
    (no_items : ∀ whole lefts rights, (lefts = [] ∨ rights = []) → Cs whole lefts rights) :
    (∀ e, P e) ∧ (∀ whole left right, C whole left right) ∧
      ∀ whole lefts rights, Cs whole lefts rights := by
  refine resolve.mutual_induct P C Cs column literal parameter comparison logical arithmetic not
    (fun operand negated h => isNull operand negated (by simpa using h))
    (fun operand negated h => isNull_row operand negated (by simpa using h)) between row rows
    uneven (fun whole left right hne h _ _ => mixed whole left right hne h)
    (fun whole left right _ h => scalars whole left right (by simpa using h)) items ?_
  intro whole lefts rights hnone
  refine no_items whole lefts rights ?_
  cases lefts with
  | nil => exact .inl rfl
  | cons left lefts =>
      cases rights with
      | nil => exact .inr rfl
      | cons right rights => exact (hnone _ _ _ _ rfl rfl).elim

mutual

/-- The placeholders that typing an expression looks at, each as often as it does.  The operand in
front of `BETWEEN` is compared twice. -/
def looks : BoundExpr → List UInt64
  | .column _ | .literal _ => []
  | .parameter index => [index]
  | .binary _ left right => left.looks ++ right.looks
  | .not operand => operand.looks
  | .isNull operand _ => operand.looks
  | .between operand low high _ => operand.looks ++ low.looks ++ (operand.looks ++ high.looks)
  | .row items => looksItems items

def looksItems : List BoundExpr → List UInt64
  | [] => []
  | item :: rest => item.looks ++ looksItems rest

end

end BoundExpr

/-! ## Steps -/

/-- What is kept by the steps of typing, where slots of some placeholders are filled, and by
sequences of steps. -/
structure Typing.Rules (mayFill : UInt64 → Prop) (J : (α : Type) → Typing α → Prop) : Prop where
  pure : ∀ {α : Type} (a : α), J α (pure a)
  bind : ∀ {α β : Type} {t : Typing α} {f : α → Typing β},
    J α t → (∀ a, J β (f a)) → J β (t >>= f)
  get : J Slots get
  fill : ∀ index type, mayFill index → J PUnit (modify (·.fill index type))
  refuse : ∀ {α : Type} (e : PlanError), e.code = .typeMismatch ∨ e.code = .invalidStatement →
    J α (throw e)

namespace Typing.Rules

variable {mayFill : UInt64 → Prop} {J : (α : Type) → Typing α → Prop} (hJ : Rules mayFill J)

include hJ

theorem infer {e : BoundExpr} (h : ∀ i ∈ e.looks, mayFill i) (type : Option DataType) :
    J Unit (e.infer type) := by
  unfold BoundExpr.infer
  split
  next index type => exact hJ.fill index type (h index (by simp [BoundExpr.looks]))
  next => exact hJ.pure ()

theorem inferBoth {left right : BoundExpr} (hl : ∀ i ∈ left.looks, mayFill i)
    (hr : ∀ i ∈ right.looks, mayFill i) (leftType rightType : Option DataType) :
    J Unit (BoundExpr.inferBoth left right leftType rightType) := by
  unfold BoundExpr.inferBoth
  have hright : J Unit (if rightType.isNone then right.infer leftType else Pure.pure ()) := by
    split
    · exact hJ.infer hr leftType
    · exact hJ.pure ()
  dsimp only
  split
  · exact hJ.bind (hJ.infer hl rightType) fun _ => hright
  · exact hright

theorem requireBoolean {e : BoundExpr} (h : ∀ i ∈ e.looks, mayFill i)
    (type : Option DataType) : J Unit (e.requireBoolean type) := by
  unfold BoundExpr.requireBoolean
  split
  next => exact hJ.infer h _
  next => exact hJ.pure ()
  next => exact hJ.refuse _ (.inl rfl)

theorem requireComparable (whole : BoundExpr) (leftType rightType : Option DataType) :
    J Unit (whole.requireComparable leftType rightType) := by
  unfold BoundExpr.requireComparable
  split
  next =>
    split
    · exact hJ.pure ()
    · exact hJ.refuse _ (.inl rfl)
  next => exact hJ.pure ()

theorem arithmeticType (whole : BoundExpr) (leftType rightType : Option DataType) :
    J _ (whole.arithmeticType leftType rightType) := by
  unfold BoundExpr.arithmeticType
  split
  next => exact hJ.refuse _ (.inl rfl)
  next =>
    split
    · exact hJ.pure _
    · exact hJ.pure _

/-- Typing keeps what its steps keep, by induction on the recursion through the expression. -/
theorem resolve_and_comparison :
    (∀ e : BoundExpr, (∀ i ∈ e.looks, mayFill i) → J _ e.resolve) ∧
      (∀ whole left right : BoundExpr, (∀ i ∈ left.looks ++ right.looks, mayFill i) →
        J _ (whole.resolveComparison left right)) ∧
        ∀ (whole : BoundExpr) (lefts rights : List BoundExpr),
          (∀ i ∈ BoundExpr.looksItems lefts ++ BoundExpr.looksItems rights, mayFill i) →
            J _ (whole.resolveComparisons lefts rights) := by
  apply BoundExpr.typing_induction
  case column =>
    intro c _
    rw [BoundExpr.resolve]
    exact hJ.pure _
  case literal =>
    intro value _
    rw [BoundExpr.resolve]
    exact hJ.pure _
  case parameter =>
    intro index _
    rw [BoundExpr.resolve]
    exact hJ.bind hJ.get fun _ => hJ.pure _
  case comparison =>
    intro op left right hop ih h
    rw [BoundExpr.resolve_comparison hop]
    exact hJ.bind (ih (by simpa [BoundExpr.looks] using h)) fun _ => hJ.pure _
  case logical =>
    intro op left right hop ihl ihr h
    rw [BoundExpr.looks, List.forall_mem_append] at h
    rw [BoundExpr.resolve_logical hop]
    have hleft := hJ.bind (ihl h.1) fun type => hJ.requireBoolean h.1 type
    have hright := hJ.bind (ihr h.2) fun type => hJ.requireBoolean h.2 type
    exact hJ.bind hleft fun _ => hJ.bind hright fun _ => hJ.pure _
  case arithmetic =>
    intro op left right hop ihl ihr h
    rw [BoundExpr.looks, List.forall_mem_append] at h
    rw [BoundExpr.resolve_arithmetic hop]
    exact hJ.bind (ihl h.1) fun _ => hJ.bind (ihr h.2) fun _ =>
      hJ.bind (hJ.inferBoth h.1 h.2 _ _) fun _ => hJ.arithmeticType _ _ _
  case not =>
    intro operand ih h
    rw [BoundExpr.looks] at h
    rw [BoundExpr.resolve_not]
    exact hJ.bind (hJ.bind (ih h) fun _ => hJ.requireBoolean h _) fun _ => hJ.pure _
  case isNull =>
    intro operand negated hrow ih h
    rw [BoundExpr.looks] at h
    rw [BoundExpr.resolve_isNull hrow]
    exact hJ.bind (ih h) fun _ => hJ.pure _
  case isNull_row =>
    intro operand negated hrow _
    rw [BoundExpr.resolve_isNull_of_isRow hrow]
    exact hJ.pure _
  case between =>
    intro operand low high negated ihlow ihhigh h
    rw [BoundExpr.looks, List.forall_mem_append] at h
    rw [BoundExpr.resolve]
    exact hJ.bind (ihlow h.1) fun _ => hJ.bind (ihhigh h.2) fun _ => hJ.pure _
  case row =>
    intro items _
    rw [BoundExpr.resolve]
    exact hJ.refuse _ (.inr rfl)
  case rows =>
    intro whole lefts rights hlength ih h
    rw [BoundExpr.resolveComparison_rows hlength]
    exact ih (by simpa [BoundExpr.looks] using h)
  case uneven =>
    intro whole lefts rights hlength _
    rw [BoundExpr.resolveComparison_of_length_ne hlength]
    exact hJ.refuse _ (.inr rfl)
  case mixed =>
    intro whole left right hne hrow _
    rw [BoundExpr.resolveComparison_mixed hrow hne]
    exact hJ.refuse _ (.inr rfl)
  case scalars =>
    intro whole left right hrow ihl ihr h
    rw [List.forall_mem_append] at h
    rw [BoundExpr.resolveComparison_scalars hrow]
    exact hJ.bind (ihl h.1) fun _ => hJ.bind (ihr h.2) fun _ =>
      hJ.bind (hJ.inferBoth h.1 h.2 _ _) fun _ => hJ.requireComparable _ _ _
  case items =>
    intro whole left lefts right rights ih ihs h
    rw [BoundExpr.resolveComparisons]
    refine hJ.bind (ih fun i hi => h i ?_) fun _ => ihs fun i hi => h i ?_
    all_goals
      simp only [BoundExpr.looksItems, List.mem_append] at hi ⊢
      grind
  case no_items =>
    intro whole lefts rights hnone _
    rw [BoundExpr.resolveComparisons_of_nil hnone]
    exact hJ.pure _

theorem resolve {e : BoundExpr} (h : ∀ i ∈ e.looks, mayFill i) : J _ e.resolve :=
  hJ.resolve_and_comparison.1 e h

theorem resolvePredicate {e : BoundExpr} (h : ∀ i ∈ e.looks, mayFill i) :
    J _ e.resolvePredicate :=
  hJ.bind (hJ.resolve h) fun _ => hJ.requireBoolean h _

theorem fit {e : BoundExpr} (h : ∀ i ∈ e.looks, mayFill i) (target actual : Option DataType) :
    J Unit (e.fit target actual) := by
  unfold BoundExpr.fit
  split
  next => exact hJ.infer h _
  next =>
    split
    · exact hJ.pure ()
    · exact hJ.refuse _ (.inl rfl)
  next => exact hJ.pure ()

theorem resolveFor {e : BoundExpr} (h : ∀ i ∈ e.looks, mayFill i) (target : Option DataType) :
    J _ (e.resolveFor target) :=
  hJ.bind (hJ.resolve h) fun _ => hJ.fit h _ _

theorem mapM {α β : Type} {f : α → Typing β} {l : List α} (h : ∀ a ∈ l, J β (f a)) :
    J (List β) (l.mapM f) := by
  induction l with
  | nil => exact hJ.pure []
  | cons a l ih =>
      rw [List.forall_mem_cons] at h
      rw [List.mapM_cons]
      exact hJ.bind h.1 fun _ => hJ.bind (ih h.2) fun _ => hJ.pure _

theorem forM {α : Type} {f : α → Typing PUnit} {l : List α} (h : ∀ a ∈ l, J PUnit (f a)) :
    J PUnit (l.forM f) := by
  induction l with
  | nil => exact hJ.pure _
  | cons a l ih =>
      rw [List.forall_mem_cons] at h
      exact hJ.bind h.1 fun _ => ih h.2

end Typing.Rules

/-! ## Queries -/

namespace BoundSelect

/-- The placeholders that typing a query looks at. -/
def looks (q : BoundSelect) : List UInt64 :=
  q.predicate.toList.flatMap BoundExpr.looks ++
    (q.results.flatMap (·.expr.looks) ++ q.order.flatMap (·.expr.looks))

/-- Types the predicate of a query. -/
def resolveWhere (q : BoundSelect) : Typing Unit :=
  match q.predicate with
  | none => pure ()
  | some predicate => predicate.resolvePredicate

/-- The results of a query with their types. -/
def resolveResults (q : BoundSelect) : Typing (List ResultColumn) :=
  q.results.mapM fun item => return ⟨item.name, ← item.expr.resolve⟩

/-- Types the sort order of a query. -/
def resolveOrder (q : BoundSelect) : Typing Unit := q.order.forM fun item => do
  let _ ← item.expr.resolve

theorem resolve_eq (q : BoundSelect) :
    q.resolve = (do
      q.resolveWhere
      let results ← q.resolveResults
      q.resolveOrder
      return results) := by
  unfold resolve resolveWhere
  cases q.predicate <;> rfl

end BoundSelect

namespace Typing.Rules

variable {mayFill : UInt64 → Prop} {J : (α : Type) → Typing α → Prop} (hJ : Rules mayFill J)
  {q : BoundSelect}

include hJ

theorem resolveWhere (h : ∀ predicate ∈ q.predicate, ∀ i ∈ predicate.looks, mayFill i) :
    J _ q.resolveWhere := by
  unfold BoundSelect.resolveWhere
  split
  next => exact hJ.pure ()
  next predicate hpredicate => exact hJ.resolvePredicate (h predicate hpredicate)

theorem resolveResult {item : ResultItem} (h : ∀ i ∈ item.expr.looks, mayFill i) :
    J ResultColumn (do return ⟨item.name, ← item.expr.resolve⟩) :=
  hJ.bind (hJ.resolve h) fun _ => hJ.pure _

theorem resolveQuery (h : ∀ i ∈ q.looks, mayFill i) : J _ q.resolve := by
  simp only [BoundSelect.looks, List.forall_mem_append, List.forall_mem_flatMap,
    Option.mem_toList] at h
  rw [BoundSelect.resolve_eq]
  refine hJ.bind (hJ.resolveWhere h.1) fun _ => hJ.bind ?_ fun _ => hJ.bind ?_ fun _ => hJ.pure _
  · exact hJ.mapM fun item hitem => hJ.resolveResult (h.2.1 item hitem)
  · exact hJ.forM fun item hitem => hJ.bind (hJ.resolve (h.2.2 item hitem)) fun _ => hJ.pure _

end Typing.Rules

/-- Typing never refuses an expression for the shape of a key range. -/
theorem Typing.rules_gives :
    Typing.Rules (fun _ => True) fun _ t => Typing.Gives (fun _ => True) t where
  pure _ := .pure trivial
  bind ht hf := ht.bind fun a _ => hf a
  get _ := trivial
  fill _ _ _ _ := trivial
  refuse e he := .throw (by rcases he with he | he <;> rw [he] <;> decide)

/-- Typing a query keeps the names of its results. -/
theorem BoundSelect.gives_resolve (q : BoundSelect) :
    Typing.Gives (fun results => results.map (·.name) = q.results.map (·.name)) q.resolve := by
  rw [resolve_eq]
  have hwhere : Typing.Gives (fun _ => True) q.resolveWhere :=
    Typing.rules_gives.resolveWhere fun _ _ _ _ => trivial
  have horder : Typing.Gives (fun _ => True) q.resolveOrder :=
    Typing.rules_gives.forM fun item _ =>
      (Typing.rules_gives.resolve fun _ _ => trivial).bind fun _ _ => .pure trivial
  refine hwhere.bind fun _ _ => ?_
  refine (Typing.Gives.mapM_map fun item _ => ?_).bind fun results hresults =>
    horder.bind fun _ _ => .pure hresults
  exact (Typing.rules_gives.resolve fun _ _ => trivial).bind fun type _ => .pure rfl

end QueryPlanner

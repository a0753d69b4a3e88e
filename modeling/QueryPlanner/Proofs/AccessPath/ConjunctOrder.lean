import QueryPlanner.Proofs.AccessPath.Preference

/-!
# The order of conjuncts

Whether a column is compared, and how, does not depend on the order of the conjuncts, and neither
does whether a row of columns is.  Only the first comparison of a row decides whether the row is
bound by an equality, since an equality counts only as long as its row has no end.  So the order
of the conjuncts never decides how many fields of an index are bound, and it decides on which index
only by what comes first in a row that is compared in both ways (`bindings_perm`).

Main statement: `chooseRange_perm`.  What comes first in a row does matter:
`chooseRange_reverse_crossConjuncts`.
-/

namespace QueryPlanner

variable {source : Nat} {conjuncts others : List BoundExpr}

/-! ## First comparisons -/

/-- What is found first in a list only depends on its order where either answer can be found. -/
theorem findSome?_perm {α : Type} {f : α → Option Bool} {l l' : List α} (h : l.Perm l')
    (hboth : (∀ answer, ∃ a ∈ l, f a = some answer) → l.findSome? f = l'.findSome? f) :
    l.findSome? f = l'.findSome? f := by
  by_cases hanswers : ∀ answer, ∃ a ∈ l, f a = some answer
  · exact hboth hanswers
  · have hsome : (l.findSome? f).isSome ↔ (l'.findSome? f).isSome := by
      simp only [List.findSome?_isSome_iff, h.mem_iff]
    cases hfirst : l.findSome? f with
    | none =>
        rw [hfirst] at hsome
        exact (Option.not_isSome_iff_eq_none.1 fun hl' => nomatch hsome.2 hl').symm
    | some first =>
        rw [hfirst] at hsome
        obtain ⟨other, hother⟩ := Option.isSome_iff_exists.1 (hsome.1 rfl)
        rw [hother]
        by_contra hne
        -- two different answers are all there are
        refine hanswers fun answer => ?_
        have hfrom : ∃ a ∈ l, f a = some first := List.exists_of_findSome?_eq_some hfirst
        obtain ⟨a, ha, hanswer⟩ := List.exists_of_findSome?_eq_some hother
        by_cases heq : answer = first
        · exact heq ▸ hfrom
        · have hlast : answer = other := by
            revert heq hne
            cases answer <;> cases first <;> cases other <;> simp
          exact ⟨a, h.mem_iff.2 ha, hlast ▸ hanswer⟩

/-- How a row of columns is compared first: by an equality or in another way. -/
def firstComparison? (source : Nat) (conjuncts : List BoundExpr) (positions : List Nat) :
    Option Bool :=
  conjuncts.findSome? (·.comparesRow? source positions)

/-- Whether a row of columns is compared both by an equality and in another way. -/
def IsComparedBothWays (source : Nat) (conjuncts : List BoundExpr) (positions : List Nat) : Prop :=
  ∀ equality, ∃ c ∈ conjuncts, c.comparesRow? source positions = some equality

/-- Two orders of conjuncts begin alike on an index if every row of its first columns that is
compared in both ways is first compared in the same way. -/
def Index.BeginAlike (i : Index) (source : Nat) (conjuncts others : List BoundExpr) : Prop :=
  ∀ width, IsComparedBothWays source conjuncts (i.leadingColumns width) →
    firstComparison? source conjuncts (i.leadingColumns width) =
      firstComparison? source others (i.leadingColumns width)

/-! ## Bindings -/

theorem IndexField.isCompared_perm (h : conjuncts.Perm others) (equality : Bool) (f : IndexField) :
    f.isCompared source conjuncts equality = f.isCompared source others equality :=
  h.any_eq

namespace Index

theorem columnBinding_perm (h : conjuncts.Perm others) (i : Index) :
    i.columnBinding source conjuncts = i.columnBinding source others := by
  unfold columnBinding
  simp only [IndexField.isCompared_perm h]

/-- A row is bound in any order of the conjuncts, or in none. -/
theorem fields_rowBinding?_perm (source : Nat) (h : conjuncts.Perm others) (i : Index)
    (width : Nat) :
    (i.rowBinding? source conjuncts width).map (·.fields) =
      (i.rowBinding? source others width).map (·.fields) := by
  have hsome : (firstComparison? source conjuncts (i.leadingColumns width)).isSome =
      (firstComparison? source others (i.leadingColumns width)).isSome := by
    rw [Bool.eq_iff_iff, firstComparison?, firstComparison?, List.findSome?_isSome_iff,
      List.findSome?_isSome_iff]
    simp only [h.mem_iff]
  unfold rowBinding?
  rw [Option.map_map, Option.map_map]
  unfold firstComparison? at hsome
  revert hsome
  cases conjuncts.findSome? (·.comparesRow? source (i.leadingColumns width)) <;>
    cases others.findSome? (·.comparesRow? source (i.leadingColumns width)) <;> simp

/-- The order of the conjuncts does not decide how many fields a binding binds. -/
theorem exists_fields_of_perm (h : conjuncts.Perm others) {i : Index} {b : Binding}
    (hb : b ∈ i.bindings source conjuncts) :
    ∃ b' ∈ i.bindings source others, b'.fields = b.fields := by
  rcases List.mem_cons.1 hb with rfl | hb
  · exact ⟨_, List.mem_cons_self, by rw [columnBinding_perm h]⟩
  · obtain ⟨k, hk, hb⟩ := List.mem_filterMap.1 hb
    have hfields := fields_rowBinding?_perm source h i (k + 1)
    rw [hb] at hfields
    obtain ⟨b', hb', hsame⟩ := Option.map_eq_some_iff.1 hfields.symm
    exact ⟨b', List.mem_cons_of_mem _ (List.mem_filterMap.2 ⟨k, hk, hb'⟩), hsame⟩

/-- Orders that begin alike give the same bindings. -/
theorem bindings_perm (h : conjuncts.Perm others) {i : Index}
    (hbegin : i.BeginAlike source conjuncts others) :
    i.bindings source conjuncts = i.bindings source others := by
  have hrow (width : Nat) :
      i.rowBinding? source conjuncts width = i.rowBinding? source others width := by
    unfold rowBinding?
    rw [findSome?_perm h (hbegin width)]
  unfold bindings
  simp only [columnBinding_perm h, hrow]

end Index

/-! ## The choice -/

section Choice

variable {schema : String} {t : Table}

/-- No binding in another order has more fields than the preferred one. -/
theorem Table.Prefers.fields_le (h : conjuncts.Perm others) {r r' : KeyRange} {b b' : Binding}
    (hr : t.Prefers source conjuncts r b) (hr' : t.Prefers source others r' b') :
    b'.fields ≤ b.fields := by
  obtain ⟨d, hd, hfields⟩ := Index.exists_fields_of_perm h.symm hr'.binding
  rw [← hfields]
  exact (hr.best _ hr'.index d hd).1

/-- Two preferred bindings among the same ones are on indexes of one name. -/
theorem Table.Prefers.name_le {r r' : KeyRange} {b b' : Binding}
    (hr : t.Prefers source conjuncts r b) (hr' : t.Prefers source others r' b')
    (hsame : ∀ i ∈ t.indexes, i.bindings source conjuncts = i.bindings source others) :
    b'.fields ≤ b.fields ∧ (b'.fields = b.fields → b'.equalities ≤ b.equalities ∧
      (b'.equalities = b.equalities → r.index.name ≤ r'.index.name)) := by
  have hb' := hr'.binding
  rw [← hsame _ hr'.index] at hb'
  exact hr.best _ hr'.index b' hb'

theorem Table.Prefers.index_eq (ht : t.Coherent schema) {r r' : KeyRange} {b b' : Binding}
    (hr : t.Prefers source conjuncts r b) (hr' : t.Prefers source others r' b')
    (hsame : ∀ i ∈ t.indexes, i.bindings source conjuncts = i.bindings source others) :
    r.index = r'.index := by
  have hle := hr.name_le hr' hsame
  have hge := hr'.name_le hr fun i hi => (hsame i hi).symm
  have hfields : b'.fields = b.fields := Nat.le_antisymm hle.1 hge.1
  have hequalities : b'.equalities = b.equalities :=
    Nat.le_antisymm (hle.2 hfields).1 (hge.2 hfields.symm).1
  have hname : r.index.name = r'.index.name :=
    le_antisymm ((hle.2 hfields).2 hequalities) ((hge.2 hfields.symm).2 hequalities.symm)
  exact List.inj_on_of_nodup_map ht.nodup_names hr.index hr'.index hname

/-- The order of the conjuncts does not decide whether an index serves them. -/
theorem chooseRange_eq_none_perm (t : Table) (source : Nat) (h : conjuncts.Perm others) :
    chooseRange t source conjuncts = .ok none ↔ chooseRange t source others = .ok none := by
  rw [chooseRange_eq_none_iff, chooseRange_eq_none_iff]
  refine forall₂_congr fun i _ => ⟨fun hzero b hb => ?_, fun hzero b hb => ?_⟩
  · obtain ⟨d, hd, hfields⟩ := Index.exists_fields_of_perm h.symm hb
    rw [← hfields, hzero d hd]
  · obtain ⟨d, hd, hfields⟩ := Index.exists_fields_of_perm h hb
    rw [← hfields, hzero d hd]

/-- The order of the conjuncts decides neither whether an index serves them nor how many of its
fields are bound.  It does not decide on the index either, if on every index of the table the two
orders begin alike. -/
theorem chooseRange_perm (ht : t.Coherent schema) (source : Nat) (h : conjuncts.Perm others) :
    ∃ choice choice', chooseRange t source conjuncts = .ok choice ∧
      chooseRange t source others = .ok choice' ∧
        choice.map (·.boundColumns) = choice'.map (·.boundColumns) ∧
          ((∀ i ∈ t.indexes, i.BeginAlike source conjuncts others) →
            choice.map (·.index) = choice'.map (·.index)) := by
  obtain ⟨choice, hchoice⟩ : ∃ choice, chooseRange t source conjuncts = .ok choice :=
    ⟨_, chooseRange_eq t source conjuncts⟩
  obtain ⟨choice', hchoice'⟩ : ∃ choice', chooseRange t source others = .ok choice' :=
    ⟨_, chooseRange_eq t source others⟩
  refine ⟨choice, choice', hchoice, hchoice', ?_⟩
  have hnone : choice = none ↔ choice' = none := by
    have hperm := chooseRange_eq_none_perm t source h
    rw [hchoice, hchoice'] at hperm
    simpa using hperm
  match choice, choice' with
  | none, none => exact ⟨rfl, fun _ => rfl⟩
  | none, some r => exact absurd (hnone.1 rfl) (Option.some_ne_none r)
  | some r, none => exact absurd (hnone.2 rfl) (Option.some_ne_none r)
  | some r, some r' =>
      obtain ⟨b, hr⟩ := exists_prefers_of_chooseRange ht hchoice
      obtain ⟨b', hr'⟩ := exists_prefers_of_chooseRange ht hchoice'
      have hfields : b.fields = b'.fields :=
        le_antisymm (hr'.fields_le h.symm hr) (hr.fields_le h hr')
      refine ⟨?_, fun hbegin => ?_⟩
      · rw [Option.map_some, Option.map_some, hr.fields, hr'.fields, hfields]
      · have hsame : ∀ i ∈ t.indexes, i.bindings source conjuncts = i.bindings source others :=
          fun i hi => Index.bindings_perm h (hbegin i hi)
        rw [Option.map_some, Option.map_some, hr.index_eq ht hr' hsame]

end Choice

/-! ## What comes first in a row -/

/-- The conjuncts of `gridConjuncts` in another order, in which the equality of the row still comes
before its other comparison. -/
def gridConjunctsRowsFirst : List BoundExpr := gridConjuncts.drop 2 ++ gridConjuncts.take 2

theorem beginAlike_gridConjuncts {i : Index} (hi : i ∈ gridTable.indexes) :
    i.BeginAlike 0 gridConjuncts gridConjunctsRowsFirst := by
  intro width _
  have hcolumns : i.leadingColumns width ∈ [[], [0], [1], [0, 1]] := by
    simp only [gridTable, List.mem_cons, List.not_mem_nil, or_false] at hi
    rcases hi with rfl | rfl | rfl <;> rcases width with - | - | width <;>
      simp [Index.leadingColumns]
  generalize i.leadingColumns width = columns at hcolumns
  simp only [List.mem_cons, List.not_mem_nil, or_false] at hcolumns
  rcases hcolumns with rfl | rfl | rfl | rfl <;> rfl

theorem chooseRange_perm_gridTable :
    gridTable.Coherent "main" ∧ gridConjuncts.Perm gridConjunctsRowsFirst ∧
      ∃ choice choice', chooseRange gridTable 0 gridConjuncts = .ok choice ∧
        chooseRange gridTable 0 gridConjunctsRowsFirst = .ok choice' ∧
          choice.map (·.boundColumns) = choice'.map (·.boundColumns) ∧
            choice.map (·.index) = choice'.map (·.index) := by
  have hperm : gridConjuncts.Perm gridConjunctsRowsFirst := by
    conv_lhs => rw [← List.take_append_drop 2 gridConjuncts]
    exact List.perm_append_comm
  obtain ⟨choice, choice', hchoice, hchoice', hcount, hindex⟩ :=
    chooseRange_perm coherent_gridTable 0 hperm
  exact ⟨coherent_gridTable, hperm, choice, choice', hchoice, hchoice', hcount,
    hindex fun _ => beginAlike_gridConjuncts⟩

/-- A table `cross (X, Y)` with indexes on its columns in either order. -/
def crossTable : Table :=
  let x (position : Nat) : IndexField := ⟨position, "X", 0, .bigint, none⟩
  let y (position : Nat) : IndexField := ⟨position, "Y", 1, .bigint, none⟩
  { name := ⟨"main", "cross"⟩
    columns := [{ name := "X", type := .bigint }, { name := "Y", type := .bigint }]
    indexes :=
      [⟨"alt", ⟨"main", "cross"⟩, false, [y 0, x 1]⟩,
        ⟨"key", ⟨"main", "cross"⟩, false, [x 0, y 1]⟩] }

/-- The conjuncts of `(X, Y) = (1, 2) AND (X, Y) > (0, 0) AND (Y, X) < (9, 9)`. -/
def crossConjuncts : List BoundExpr :=
  let x : BoundExpr := .column ⟨0, "cross", 0, "X", some .bigint, none⟩
  let y : BoundExpr := .column ⟨0, "cross", 1, "Y", some .bigint, none⟩
  let numbers (m n : Int64) : BoundExpr := .row [.literal (.integer m), .literal (.integer n)]
  [.binary .eq (.row [x, y]) (numbers 1 2), .binary .gt (.row [x, y]) (numbers 0 0),
    .binary .lt (.row [y, x]) (numbers 9 9)]

theorem coherent_crossTable : crossTable.Coherent "main" := by
  have hmade : [Change.createSchema "main",
      .createTable ⟨"main", "cross"⟩ [{ name := "X", type := .bigint },
        { name := "Y", type := .bigint }],
      .createIndex ⟨"main", "cross"⟩ "alt" ["y", "x"] false,
      .createIndex ⟨"main", "cross"⟩ "key" ["x", "y"] false].foldlM Catalog.apply .empty =
        .ok ⟨⟨[{ name := "main", tables := ⟨[crossTable], List.pairwise_singleton _ _⟩ }],
          List.pairwise_singleton _ _⟩⟩ := by rfl
  have heach := (Catalog.Reachable.empty.foldlM hmade).each Catalog.kept_coherent
  exact heach _ List.mem_cons_self crossTable List.mem_cons_self

/-- The equality of a row counts in front of the other comparison of the row, and makes its index
the preferred one; behind the other comparison it does not, and the smaller name decides. -/
theorem chooseRange_reverse_crossConjuncts :
    crossTable.Coherent "main" ∧ crossConjuncts.Perm crossConjuncts.reverse ∧
      (chooseRange crossTable 0 crossConjuncts).map (·.map (·.index.name)) = .ok (some "key") ∧
        (chooseRange crossTable 0 crossConjuncts.reverse).map (·.map (·.index.name)) =
          .ok (some "alt") :=
  ⟨coherent_crossTable, (List.reverse_perm _).symm, by rfl, by rfl⟩

end QueryPlanner

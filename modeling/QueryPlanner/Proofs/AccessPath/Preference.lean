import Mathlib.Data.List.MinMax
import Mathlib.Data.List.Nodup
import Mathlib.Data.Prod.Lex
import Mathlib.Data.String.Basic
import QueryPlanner.Proofs.AccessPath.Compared
import QueryPlanner.Proofs.AccessPath.Exactness
import QueryPlanner.Proofs.Catalog.Coherence

/-!
# The preferred index

Each index of a table is bound by the conjuncts in several ways: single columns bind a run of its
first fields by equalities and perhaps one field more, and every row that consists of its first
fields binds these.  A binding is no more than the number of the fields and of the equalities among
them, so it can be read off the conjuncts without their constants (`Index.bindings`), and the
candidates on an index have just the bindings that bind anything (`exists_mem_allOn_iff`).

The choice among candidates follows the order of their ranks, in which the first of the greatest
ones is taken (`best?_eq_argmax`).  Candidates of one rank are on indexes of one name, so the order
in which a table lists its indexes cannot matter as long as their names differ
(`best?_flatMap_eq_some_iff`).

Main statement: `chooseRange_preferred`.
-/

namespace QueryPlanner

/-- The greatest of the first elements, or the greatest of the last ones, is the greatest of all. -/
theorem argmax_append {α β : Type} [LinearOrder β] {f : α → β} {l l' : List α} {m : α}
    (h : (l ++ l').argmax f = some m) : l.argmax f = some m ∨ l'.argmax f = some m := by
  induction l with
  | nil => exact .inr h
  | cons a l ih =>
      rw [List.cons_append, List.argmax_cons] at h
      cases hrest : (l ++ l').argmax f with
      | none =>
          rw [hrest] at h
          cases h
          have hnil := (List.append_eq_nil_iff.1 (List.argmax_eq_none.1 hrest)).1
          rw [hnil]
          exact .inl rfl
      | some n =>
          rw [hrest] at h
          dsimp only at h
          split at h
          next hlt =>
            cases h
            refine (ih hrest).imp_left fun hl => ?_
            rw [List.argmax_cons, hl]
            exact if_pos hlt
          next hle =>
            cases h
            refine .inl ?_
            rw [List.argmax_cons]
            -- what is greater than the first element would have been taken instead of it
            cases hl : l.argmax f with
            | none => rfl
            | some k =>
                have hk := List.mem_append_left l' (List.argmax_mem hl)
                have hkn := List.le_of_mem_argmax hk hrest
                exact if_neg fun hlt => hle (hlt.trans_le hkn)

/-! ## The order of candidates -/

namespace Candidate

/-- The place of a candidate in the order of preference: more fields, then more equalities, then the
smaller name. -/
def rank (c : Candidate) : Nat ×ₗ Nat ×ₗ Stringᵒᵈ :=
  toLex (c.range.boundColumns, toLex (c.equalities, OrderDual.toDual c.range.index.name))

theorem isBetter_iff {a b : Candidate} : a.isBetter b ↔ b.rank < a.rank := by
  unfold isBetter rank
  rw [Prod.Lex.toLex_lt_toLex, Prod.Lex.toLex_lt_toLex]
  dsimp only
  rw [OrderDual.toDual_lt_toDual]
  split
  next hfields => simp [Ne.symm hfields]
  next hfields =>
    have hsame : b.range.boundColumns = a.range.boundColumns := (not_not.1 hfields).symm
    split
    next hequalities => simp [hsame, Ne.symm hequalities]
    next hequalities => simp [hsame, (not_not.1 hequalities).symm]

/-- The first of the candidates of the greatest rank is taken. -/
theorem best?_eq_argmax (candidates : List Candidate) :
    best? candidates = candidates.argmax rank := by
  unfold best? List.argmax
  congr 1
  funext best c
  cases best with
  | none => rfl
  | some b => exact if_congr isBetter_iff rfl rfl

theorem rank_le_of_best? {candidates : List Candidate} {c d : Candidate}
    (h : best? candidates = some c) (hd : d ∈ candidates) : d.rank ≤ c.rank := by
  rw [best?_eq_argmax] at h
  exact List.le_of_mem_argmax hd h

/-- A rank is at most another one if no rule of preference says otherwise. -/
theorem rank_le_iff {c d : Candidate} :
    d.rank ≤ c.rank ↔ d.range.boundColumns ≤ c.range.boundColumns ∧
      (d.range.boundColumns = c.range.boundColumns → d.equalities ≤ c.equalities ∧
        (d.equalities = c.equalities → c.range.index.name ≤ d.range.index.name)) := by
  unfold rank
  rw [Prod.Lex.toLex_le_toLex', Prod.Lex.toLex_le_toLex']
  rfl

/-- The best candidate on indexes of distinct names is the best one on its own index, and its rank
is the greatest of all. -/
theorem best?_flatMap_eq_some_iff {indexes : List Index}
    (hnames : (indexes.map Index.name).Nodup) {f : Index → List Candidate}
    (hf : ∀ i, ∀ c ∈ f i, c.range.index = i) {c : Candidate} :
    best? (indexes.flatMap f) = some c ↔
      ∃ i ∈ indexes, best? (f i) = some c ∧ ∀ j ∈ indexes, ∀ d ∈ f j, d.rank ≤ c.rank := by
  have hforward {c : Candidate} (h : best? (indexes.flatMap f) = some c) :
      ∃ i ∈ indexes, best? (f i) = some c ∧ ∀ j ∈ indexes, ∀ d ∈ f j, d.rank ≤ c.rank := by
    obtain ⟨i, hi, hc⟩ := List.mem_flatMap.1 (mem_of_best? h)
    refine ⟨i, hi, ?_, fun j hj d hd => rank_le_of_best? h (List.mem_flatMap.2 ⟨j, hj, hd⟩)⟩
    -- the candidates on the other indexes lie there, so this one is the best of its own
    obtain ⟨before, behind, rfl⟩ := List.append_of_mem hi
    have hother := (List.nodup_cons.1 (List.nodup_middle.1 hnames.of_map)).1
    have helse {l : List Index} (hl : i ∉ l) : (l.flatMap f).argmax rank ≠ some c := by
      intro hmem
      obtain ⟨j, hj, hcj⟩ := List.mem_flatMap.1 (List.argmax_mem hmem)
      rw [← hf j c hcj, hf i c hc] at hj
      exact hl hj
    rw [best?_eq_argmax, List.flatMap_append, List.flatMap_cons] at h
    rw [best?_eq_argmax]
    rcases argmax_append h with h | h
    · exact absurd h (helse fun hi => hother (List.mem_append_left _ hi))
    · rcases argmax_append h with h | h
      · exact h
      · exact absurd h (helse fun hi => hother (List.mem_append_right _ hi))
  refine ⟨hforward, ?_⟩
  rintro ⟨i, hi, hbest, hrank⟩
  have hc := mem_of_best? hbest
  cases hall : best? (indexes.flatMap f) with
  | none =>
      rw [best?_eq_argmax, List.argmax_eq_none] at hall
      exact absurd (List.mem_flatMap.2 ⟨i, hi, hc⟩) (hall ▸ List.not_mem_nil)
  | some c' =>
      obtain ⟨i', hi', hbest', hrank'⟩ := hforward hall
      have hc' := mem_of_best? hbest'
      have hsame : c'.rank = c.rank := le_antisymm (hrank i' hi' c' hc') (hrank' i hi c hc)
      -- candidates of one rank lie on indexes of one name
      have hname : i'.name = i.name := by
        simp only [rank, toLex_inj, Prod.mk.injEq, OrderDual.toDual_inj] at hsame
        rw [← hf i' c' hc', ← hf i c hc]
        exact hsame.2.2
      rw [List.inj_on_of_nodup_map hnames hi' hi hname] at hbest'
      rw [← hbest', hbest]

end Candidate

/-! ## Bindings -/

/-- How much of an index is bound: the number of its first fields, and how many of these by
equalities. -/
structure Binding where
  fields : Nat
  equalities : Nat
  deriving DecidableEq

/-- Whether conjuncts compare the column of a field, by an equality or in another way. -/
def IndexField.isCompared (source : Nat) (conjuncts : List BoundExpr) (equality : Bool)
    (f : IndexField) : Bool :=
  conjuncts.any fun c => c.comparesColumn? source f.columnPosition == some equality

namespace Index

/-- What comparisons of single columns bind: the longest run of first fields that equalities
compare, and the field behind it if that is compared in another way. -/
def columnBinding (i : Index) (source : Nat) (conjuncts : List BoundExpr) : Binding :=
  let run := (i.fields.takeWhile (·.isCompared source conjuncts true)).length
  if i.fields[run]?.any (·.isCompared source conjuncts false) then ⟨run + 1, run⟩ else ⟨run, run⟩

/-- The columns of the first fields. -/
def leadingColumns (i : Index) (width : Nat) : List Nat :=
  (i.fields.map (·.columnPosition)).take width

theorem length_leadingColumns {i : Index} {width : Nat} (hle : width ≤ i.degree) :
    (i.leadingColumns width).length = width := by
  unfold leadingColumns
  rw [List.length_take, List.length_map]
  exact Nat.min_eq_left hle

/-- What comparisons of the row of the first columns bind.  Of these the first one decides whether
it is by an equality. -/
def rowBinding? (i : Index) (source : Nat) (conjuncts : List BoundExpr) (width : Nat) :
    Option Binding :=
  (conjuncts.findSome? (·.comparesRow? source (i.leadingColumns width))).map fun equality =>
    ⟨width, if equality then width else 0⟩

/-- The bindings of an index. -/
def bindings (i : Index) (source : Nat) (conjuncts : List BoundExpr) : List Binding :=
  i.columnBinding source conjuncts ::
    (List.range i.degree).filterMap fun k => i.rowBinding? source conjuncts (k + 1)

end Index

namespace Candidate

open SearchArgument (ofConjuncts equal? lower? upper?)

variable {source : Nat} {conjuncts : List BoundExpr} {index : Index} {c : Candidate}

/-- The binding that a candidate makes use of. -/
def binding (c : Candidate) : Binding := ⟨c.range.boundColumns, c.equalities⟩

theorem isCompared_true (f : IndexField) :
    f.isCompared source conjuncts true =
      (equal? (ofConjuncts source conjuncts) f.columnPosition).isSome := by
  rw [Bool.eq_iff_iff, SearchArgument.equal?_isSome_iff]
  simp [IndexField.isCompared]

theorem isCompared_false (f : IndexField) :
    f.isCompared source conjuncts false =
      ((lower? (ofConjuncts source conjuncts) f.columnPosition).isSome ||
        (upper? (ofConjuncts source conjuncts) f.columnPosition).isSome) := by
  rw [Bool.eq_iff_iff, Bool.or_eq_true, SearchArgument.lower?_or_upper?_isSome_iff]
  simp [IndexField.isCompared]

/-- A value is fixed for each field of the run that equalities bind. -/
theorem length_fixedValues (fields : List IndexField) :
    (fixedValues (ofConjuncts source conjuncts) fields).length =
      (fields.takeWhile (·.isCompared source conjuncts true)).length := by
  induction fields with
  | nil => rfl
  | cons field rest ih =>
      unfold fixedValues
      rw [List.takeWhile_cons, isCompared_true]
      cases equal? (ofConjuncts source conjuncts) field.columnPosition with
      | none => rfl
      | some value => exact congrArg Nat.succ ih

/-- Single columns give a candidate if they bind anything, and it has their binding. -/
theorem columns?_binding (source : Nat) (conjuncts : List BoundExpr) (index : Index) :
    match columns? (ofConjuncts source conjuncts) index with
    | none => (index.columnBinding source conjuncts).fields = 0
    | some c => c.binding = index.columnBinding source conjuncts ∧ 0 < c.range.boundColumns := by
  unfold columns? Index.columnBinding
  rw [← length_fixedValues]
  generalize fixedValues (ofConjuncts source conjuncts) index.fields = fixed
  dsimp only
  generalize index.fields[fixed.length]? = next
  have hnext :
      ((next.bind fun f => lower? (ofConjuncts source conjuncts) f.columnPosition).isNone &&
        (next.bind fun f => upper? (ofConjuncts source conjuncts) f.columnPosition).isNone) =
      !next.any (·.isCompared source conjuncts false) := by
    cases next with
    | none => rfl
    | some f => simp [isCompared_false]
  rw [hnext]
  cases next.any (·.isCompared source conjuncts false) with
  | true =>
      refine ⟨?_, ?_⟩
      · show Binding.mk (KeyRange.settle _).boundColumns _ = _
        rw [KeyRange.boundColumns_settle]
        rfl
      · show 0 < (KeyRange.settle _).boundColumns
        rw [KeyRange.boundColumns_settle]
        exact Nat.succ_pos _
  | false =>
      cases fixed with
      | nil => rfl
      | cons value rest =>
          refine ⟨?_, ?_⟩
          · show Binding.mk (KeyRange.settle _).boundColumns _ = _
            rw [KeyRange.boundColumns_settle]
            rfl
          · show 0 < (KeyRange.settle _).boundColumns
            rw [KeyRange.boundColumns_settle]
            exact Nat.succ_pos _

/-- A row that consists of the first columns of an index gives a candidate, and it has the binding
of the row. -/
theorem row?_binding {width : Nat} {equality : Bool} (hpos : 0 < width) (hle : width ≤ index.degree)
    (h : (ofConjuncts source conjuncts).findSome? (·.onRow? (index.leadingColumns width)) =
      some equality) :
    ∃ c, row? index (.ofArguments (ofConjuncts source conjuncts) (index.leadingColumns width)) =
        some c ∧ c.binding = ⟨width, if equality then width else 0⟩ := by
  obtain ⟨hend, hexact⟩ := RowInterval.ofArguments_of_findSome? h
  have hfrom := RowInterval.comesFrom_ofArguments (ofConjuncts source conjuncts)
    (index.leadingColumns width)
  have hpositions : (RowInterval.ofArguments (ofConjuncts source conjuncts)
      (index.leadingColumns width)).positions = index.leadingColumns width :=
    RowInterval.positions_ofArguments
  generalize RowInterval.ofArguments (ofConjuncts source conjuncts)
    (index.leadingColumns width) = row at *
  have hleading : ¬(width = 0 ||
      (index.fields.map (·.columnPosition)).take width != index.leadingColumns width) := by
    simp [Index.leadingColumns, Nat.ne_of_gt hpos]
  have hsome : ¬(row.lower.isNone && row.upper.isNone) := by
    unfold RowInterval.hasEnd at hend
    cases hlower : row.lower <;> cases hupper : row.upper <;> simp_all
  unfold row?
  dsimp only
  rw [hpositions, Index.length_leadingColumns hle, if_neg hleading, if_neg hsome]
  split
  next hone =>
    -- an equality gives both ends
    have hexact' : row.exact = false := by
      cases hfrom with
      | equality values exact mem lower upper => simp [lower, upper] at hone
      | ends exact lower upper => exact exact
    rw [hexact'] at hexact
    subst hexact
    exact ⟨_, rfl, rfl⟩
  next =>
    rw [hexact]
    refine ⟨_, rfl, ?_⟩
    show Binding.mk (KeyRange.settle _).boundColumns _ = _
    rw [KeyRange.boundColumns_settle]
    rfl

theorem leading_of_row? {row : RowInterval} (h : row? index row = some c) :
    0 < row.positions.length ∧ row.positions.length ≤ index.degree ∧
      row.positions = index.leadingColumns row.positions.length := by
  unfold row? at h
  dsimp only at h
  split at h
  next => cases h
  next hleading =>
    simp only [Bool.or_eq_true, decide_eq_true_eq, bne_iff_ne, not_or, not_not] at hleading
    exact ⟨Nat.pos_of_ne_zero hleading.1, length_le_degree hleading.2, hleading.2.symm⟩

/-- The candidates on an index have the bindings that bind anything, and no others. -/
theorem exists_mem_allOn_iff {b : Binding} :
    (∃ c ∈ allOn (ofConjuncts source conjuncts) index, c.binding = b) ↔
      b ∈ index.bindings source conjuncts ∧ 0 < b.fields := by
  have hrow {width : Nat} (hpos : 0 < width) (hle : width ≤ index.degree) :
      (ofConjuncts source conjuncts).findSome? (·.onRow? (index.leadingColumns width)) =
        conjuncts.findSome? (·.comparesRow? source (index.leadingColumns width)) := by
    refine SearchArgument.findSome?_onRow? (fun hnil => ?_) conjuncts
    have hlength := Index.length_leadingColumns hle
    rw [hnil] at hlength
    exact Nat.ne_of_lt hpos hlength
  unfold allOn Index.bindings
  constructor
  · rintro ⟨c, hc, rfl⟩
    rcases List.mem_append.1 hc with hc | hc
    · have hcolumns := columns?_binding source conjuncts index
      rw [Option.mem_toList.1 hc] at hcolumns
      obtain ⟨hbinding, hpos⟩ := hcolumns
      exact ⟨hbinding ▸ List.mem_cons_self, hpos⟩
    · obtain ⟨row, hmem, hc⟩ := List.mem_filterMap.1 hc
      obtain ⟨positions, equality, hfind, rfl⟩ := RowInterval.mem_all_iff.1 hmem
      have hleading := leading_of_row? hc
      rw [RowInterval.positions_ofArguments] at hleading
      obtain ⟨hpos, hle, hleading⟩ := hleading
      generalize positions.length = width at hpos hle hleading
      subst hleading
      obtain ⟨c', hc', hbinding⟩ := row?_binding hpos hle hfind
      rw [hc] at hc'
      cases hc'
      rw [hrow hpos hle] at hfind
      have hmem : c.binding ∈ (List.range index.degree).filterMap fun k =>
          index.rowBinding? source conjuncts (k + 1) := by
        refine List.mem_filterMap.2 ⟨width - 1, List.mem_range.2 (by omega), ?_⟩
        rw [Nat.sub_add_cancel hpos, Index.rowBinding?, hfind, hbinding]
        rfl
      rw [hbinding] at hmem ⊢
      exact ⟨List.mem_cons_of_mem _ hmem, hpos⟩
  · rintro ⟨hb, hpos⟩
    rcases List.mem_cons.1 hb with rfl | hb
    · have hcolumns := columns?_binding source conjuncts index
      cases hc : columns? (ofConjuncts source conjuncts) index with
      | none =>
          rw [hc] at hcolumns
          exact absurd hcolumns (Nat.ne_of_gt hpos)
      | some c =>
          rw [hc] at hcolumns
          exact ⟨c, List.mem_append_left _ (Option.mem_toList.2 rfl), hcolumns.1⟩
    · obtain ⟨k, hk, hb⟩ := List.mem_filterMap.1 hb
      obtain ⟨equality, hfind, rfl⟩ := Option.map_eq_some_iff.1 hb
      have hle : k + 1 ≤ index.degree := List.mem_range.1 hk
      rw [← hrow (Nat.succ_pos k) hle] at hfind
      obtain ⟨c, hc, hbinding⟩ := row?_binding (Nat.succ_pos k) hle hfind
      have hmem := RowInterval.mem_all_iff.2 ⟨_, _, hfind, rfl⟩
      exact ⟨c, List.mem_append_right _ (List.mem_filterMap.2 ⟨_, hmem, hc⟩), hbinding⟩

end Candidate

/-! ## The choice -/

/-- A range makes use of a binding of its index, and no binding of an index of the table is to be
preferred: none has more fields, none of as many fields has more equalities, and none that has as
many of both is on an index of a smaller name. -/
structure Table.Prefers (t : Table) (source : Nat) (conjuncts : List BoundExpr) (r : KeyRange)
    (b : Binding) : Prop where
  index : r.index ∈ t.indexes
  binding : b ∈ r.index.bindings source conjuncts
  /-- The range is the one of a candidate that binds as much. -/
  candidate : ∃ candidates,
    Candidate.onIndex (SearchArgument.ofConjuncts source conjuncts) r.index = .ok candidates ∧
      ∃ c ∈ candidates, c.range = r ∧ c.binding = b
  fields : r.boundColumns = b.fields
  best : ∀ j ∈ t.indexes, ∀ d ∈ j.bindings source conjuncts,
    d.fields ≤ b.fields ∧ (d.fields = b.fields → d.equalities ≤ b.equalities ∧
      (d.equalities = b.equalities → r.index.name ≤ j.name))

variable {t : Table} {source : Nat} {conjuncts : List BoundExpr}

/-- Nothing is a candidate if no binding binds anything. -/
theorem flatMap_allOn_eq_nil_iff {indexes : List Index} :
    indexes.flatMap (Candidate.allOn (SearchArgument.ofConjuncts source conjuncts)) = [] ↔
      ∀ i ∈ indexes, ∀ b ∈ i.bindings source conjuncts, b.fields = 0 := by
  rw [List.flatMap_eq_nil_iff]
  refine forall₂_congr fun i _ => ?_
  constructor
  · intro hnil b hb
    by_contra hne
    obtain ⟨c, hc, -⟩ := Candidate.exists_mem_allOn_iff.2 ⟨hb, Nat.pos_of_ne_zero hne⟩
    rw [hnil] at hc
    cases hc
  · intro hzero
    refine List.eq_nil_iff_forall_not_mem.2 fun c hc => ?_
    obtain ⟨hb, hpos⟩ := Candidate.exists_mem_allOn_iff.1 ⟨c, hc, rfl⟩
    exact Nat.ne_of_gt hpos (hzero _ hb)

/-- The candidate of the greatest rank has the preferred binding. -/
theorem prefers_of_rank_le {i : Index} (hi : i ∈ t.indexes) {c : Candidate}
    (hc : c ∈ Candidate.allOn (SearchArgument.ofConjuncts source conjuncts) i)
    (hrank : ∀ j ∈ t.indexes,
      ∀ d ∈ Candidate.allOn (SearchArgument.ofConjuncts source conjuncts) j, d.rank ≤ c.rank) :
    t.Prefers source conjuncts c.range c.binding := by
  obtain rfl := Candidate.index_of_mem_allOn hc
  obtain ⟨hbinding, hpos⟩ := Candidate.exists_mem_allOn_iff.1 ⟨c, hc, rfl⟩
  have heven : ∀ a ∈ SearchArgument.ofConjuncts source conjuncts, a.IsEven :=
    fun _ => SearchArgument.isEven_of_mem_ofConjuncts
  have hcandidates := Candidate.onIndex_eq heven c.range.index
  refine ⟨hi, hbinding, ⟨_, hcandidates, c, hc, rfl, rfl⟩, rfl, fun j hj d hd => ?_⟩
  rcases Nat.eq_zero_or_pos d.fields with hzero | hdpos
  · exact ⟨by omega, by omega⟩
  · obtain ⟨candidate, hcandidate, rfl⟩ := Candidate.exists_mem_allOn_iff.2 ⟨hd, hdpos⟩
    obtain rfl := Candidate.index_of_mem_allOn hcandidate
    exact Candidate.rank_le_iff.1 (hrank _ hj candidate hcandidate)

theorem chooseRange_eq_none_iff :
    chooseRange t source conjuncts = .ok none ↔
      ∀ i ∈ t.indexes, ∀ b ∈ i.bindings source conjuncts, b.fields = 0 := by
  rw [chooseRange_eq, Except.ok.injEq, Option.map_eq_none_iff, Candidate.best?_eq_argmax,
    List.argmax_eq_none]
  exact flatMap_allOn_eq_nil_iff

section Coherent

variable {schema : String}

theorem Table.Coherent.nodup_names (ht : t.Coherent schema) :
    (t.indexes.map Index.name).Nodup := by
  refine List.pairwise_map.2 (ht.indexNames.imp fun {i j} hdistinct hsame => ?_)
  rw [hsame, Text.sameLetters_refl] at hdistinct
  cases hdistinct

/-- A chosen range makes use of the preferred binding. -/
theorem exists_prefers_of_chooseRange (ht : t.Coherent schema) {r : KeyRange}
    (h : chooseRange t source conjuncts = .ok (some r)) :
    ∃ b, t.Prefers source conjuncts r b := by
  rw [chooseRange_eq] at h
  obtain ⟨c, hc, rfl⟩ := Option.map_eq_some_iff.1 (Except.ok.inj h)
  obtain ⟨i, hi, hbest, hrank⟩ :=
    (Candidate.best?_flatMap_eq_some_iff ht.nodup_names
      fun _ _ => Candidate.index_of_mem_allOn).1 hc
  exact ⟨c.binding, prefers_of_rank_le hi (Candidate.mem_of_best? hbest) hrank⟩

/-- The order in which the indexes are listed does not matter. -/
theorem chooseRange_indexes_perm (ht : t.Coherent schema) {indexes : List Index}
    (hperm : indexes.Perm t.indexes) (source : Nat) (conjuncts : List BoundExpr) :
    chooseRange { t with indexes } source conjuncts = chooseRange t source conjuncts := by
  have hnames : (indexes.map Index.name).Nodup :=
    (hperm.map Index.name).nodup_iff.2 ht.nodup_names
  rw [chooseRange_eq, chooseRange_eq]
  congr 2
  -- which candidate is the best one is said of the indexes without their order
  refine Option.ext fun c => ?_
  rw [Candidate.best?_flatMap_eq_some_iff hnames fun _ _ => Candidate.index_of_mem_allOn,
    Candidate.best?_flatMap_eq_some_iff ht.nodup_names fun _ _ => Candidate.index_of_mem_allOn]
  simp only [hperm.mem_iff]

end Coherent

/-- Choosing a range of a coherent table never fails.  It gives none just if no binding of an index
binds anything, and else one that makes use of the preferred binding.  The order in which the
indexes are listed does not matter. -/
theorem chooseRange_preferred {schema : String} {t : Table} (ht : t.Coherent schema) (source : Nat)
    (conjuncts : List BoundExpr) :
    ∃ choice, chooseRange t source conjuncts = .ok choice ∧
      (choice = none ↔ ∀ i ∈ t.indexes, ∀ b ∈ i.bindings source conjuncts, b.fields = 0) ∧
      (∀ r ∈ choice, ∃ b, t.Prefers source conjuncts r b) ∧
      ∀ indexes, indexes.Perm t.indexes →
        chooseRange { t with indexes } source conjuncts = .ok choice := by
  obtain ⟨choice, hchoice⟩ : ∃ choice, chooseRange t source conjuncts = .ok choice :=
    ⟨_, chooseRange_eq t source conjuncts⟩
  refine ⟨choice, hchoice, ?_, ?_, fun indexes hperm => ?_⟩
  · rw [← chooseRange_eq_none_iff, hchoice, Except.ok.injEq]
  · rintro r rfl
    exact exists_prefers_of_chooseRange ht hchoice
  · rw [chooseRange_indexes_perm ht hperm, hchoice]

/-- A table `grid (X, Y)` with indexes on its columns, two of them on both. -/
def gridTable : Table :=
  let x (position : Nat) : IndexField := ⟨position, "X", 0, .bigint, none⟩
  let y (position : Nat) : IndexField := ⟨position, "Y", 1, .bigint, none⟩
  { name := ⟨"main", "grid"⟩
    columns := [{ name := "X", type := .bigint }, { name := "Y", type := .bigint }]
    indexes :=
      [⟨"y", ⟨"main", "grid"⟩, false, [y 0]⟩, ⟨"xy", ⟨"main", "grid"⟩, true, [x 0, y 1]⟩,
        ⟨"both", ⟨"main", "grid"⟩, false, [x 0, y 1]⟩] }

/-- The conjuncts of `X = 1 AND 2 < Y AND (X, Y) = (1, ?) AND (X, Y) <= (3, 4)`. -/
def gridConjuncts : List BoundExpr :=
  let x : BoundExpr := .column ⟨0, "grid", 0, "X", some .bigint, none⟩
  let y : BoundExpr := .column ⟨0, "grid", 1, "Y", some .bigint, none⟩
  let number (n : Int64) : BoundExpr := .literal (.integer n)
  [.binary .eq x (number 1), .binary .lt (number 2) y,
    .binary .eq (.row [x, y]) (.row [number 1, .parameter 0]),
    .binary .ltEq (.row [x, y]) (.row [number 3, number 4])]

theorem coherent_gridTable : gridTable.Coherent "main" := by
  have hmade : [Change.createSchema "main",
      .createTable ⟨"main", "grid"⟩ [{ name := "X", type := .bigint },
        { name := "Y", type := .bigint }],
      .createIndex ⟨"main", "grid"⟩ "y" ["y"] false,
      .createIndex ⟨"main", "grid"⟩ "xy" ["x", "y"] true,
      .createIndex ⟨"main", "grid"⟩ "both" ["x", "y"] false].foldlM Catalog.apply .empty =
        .ok ⟨⟨[{ name := "main", tables := ⟨[gridTable], List.pairwise_singleton _ _⟩ }],
          List.pairwise_singleton _ _⟩⟩ := by rfl
  have heach := (Catalog.Reachable.empty.foldlM hmade).each Catalog.kept_coherent
  exact heach _ List.mem_cons_self gridTable List.mem_cons_self

theorem chooseRange_preferred_gridTable :
    gridTable.Coherent "main" ∧
      ∃ choice, chooseRange gridTable 0 gridConjuncts = .ok choice ∧
        (choice = none ↔ ∀ i ∈ gridTable.indexes, ∀ b ∈ i.bindings 0 gridConjuncts, b.fields = 0) ∧
        (∀ r ∈ choice, ∃ b, gridTable.Prefers 0 gridConjuncts r b) ∧
        ∀ indexes, indexes.Perm gridTable.indexes →
          chooseRange { gridTable with indexes } 0 gridConjuncts = .ok choice :=
  ⟨coherent_gridTable, chooseRange_preferred coherent_gridTable 0 gridConjuncts⟩

/-- The row binds both columns by an equality, more than the columns on their own; of the two
indexes on both the smaller name decides. -/
example : gridTable.indexes.map (·.bindings 0 gridConjuncts) =
      [[⟨1, 0⟩], [⟨2, 1⟩, ⟨2, 2⟩], [⟨2, 1⟩, ⟨2, 2⟩]] ∧
    (chooseRange gridTable 0 gridConjuncts).map (·.map fun r => (r.index.name, r.boundColumns)) =
      .ok (some ("both", 2)) := by
  constructor <;> rfl

end QueryPlanner

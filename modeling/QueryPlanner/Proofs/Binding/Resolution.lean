import Mathlib.Data.List.Basic
import QueryPlanner.Proofs.Catalog.Coherence
import QueryPlanner.Proofs.Plan.Access

/-!
# Which column a reference means

A reference names a column, and may say which source it is a column of.  Here what it means is told
by all columns that answer to it, in all sources that it may be a column of.  If there is none, it
is refused; so it is if they are columns of several sources.  Of several columns of one source the
first is taken.  Only views have such columns: they show what their queries return, under names that
may repeat, while the columns of a table have different names.

Main statement: `resolve_answers`.
-/

namespace QueryPlanner

/-! ## Columns that answer -/

namespace BoundSource

/-- References to the columns of a source that answer to a name. -/
def answers (s : BoundSource) (number : Nat) (name : String) : List BoundColumn :=
  (s.references number).filter fun c => Text.sameLetters c.name name

variable {s : BoundSource} {number : Nat} {name : String} {c : BoundColumn}

theorem find?_eq_head? : s.find? number name = (s.answers number name).head? := by
  rw [answers, List.head?_filter, references, List.find?_map]
  rfl

theorem mem_references_iff : c ∈ s.references number ↔
    ∃ column, s.columns[c.position]? = some column ∧
      c = s.reference number (column, c.position) := by
  constructor
  · intro h
    obtain ⟨⟨column, position⟩, hcolumn, rfl⟩ := List.mem_map.1 h
    exact ⟨column, List.mem_zipIdx_iff_getElem?.1 hcolumn, rfl⟩
  · rintro ⟨column, hcolumn, hc⟩
    exact List.mem_map.2 ⟨(column, c.position), List.mem_zipIdx_iff_getElem?.2 hcolumn, hc.symm⟩

theorem source_of_mem_references (h : c ∈ s.references number) : c.source = number := by
  obtain ⟨column, -, hc⟩ := mem_references_iff.1 h
  rw [hc]
  rfl

theorem source_of_mem_answers (h : c ∈ s.answers number name) : c.source = number :=
  source_of_mem_references (List.mem_filter.1 h).1

end BoundSource

namespace Scope

/-- References to all columns that answer to a name, in the sources that go by a qualifier, or in
any source without one. -/
def answers (scope : Scope) (qualifier : Option String) (name : String) : List BoundColumn :=
  scope.references.filter fun c =>
    Text.sameLetters c.name name && qualifier.all fun q => Text.sameLetters c.qualifier q

/-- No two sources go by one name. -/
def Distinct (scope : Scope) : Prop :=
  scope.Pairwise fun a b => Text.sameLetters a.aliasName b.aliasName = false

variable {scope : Scope} {qualifier : Option String} {name : String} {c : BoundColumn}

theorem mem_answers_iff : c ∈ scope.answers qualifier name ↔
    ∃ source column, scope[c.source]? = some source ∧ source.columns[c.position]? = some column ∧
      c = source.reference c.source (column, c.position) ∧
      Text.sameLetters column.name name = true ∧
      ∀ q ∈ qualifier, Text.sameLetters source.aliasName q = true := by
  simp only [answers, references, List.mem_filter, List.mem_flatMap, Bool.and_eq_true,
    Option.all_eq_true]
  constructor
  · rintro ⟨⟨⟨source, number⟩, hsource, hc⟩, hname, hqualifier⟩
    obtain rfl := BoundSource.source_of_mem_references hc
    obtain ⟨column, hcolumn, hc⟩ := BoundSource.mem_references_iff.1 hc
    rw [hc] at hname hqualifier
    exact ⟨source, column, List.mem_zipIdx_iff_getElem?.1 hsource, hcolumn, hc, hname, hqualifier⟩
  · rintro ⟨source, column, hsource, hcolumn, hc, hname, hqualifier⟩
    refine ⟨⟨(source, c.source), List.mem_zipIdx_iff_getElem?.2 hsource, ?_⟩, ?_, ?_⟩
    · exact BoundSource.mem_references_iff.2 ⟨column, hcolumn, hc⟩
    · rw [hc]
      exact hname
    · rw [hc]
      exact hqualifier

/-! ## References without a qualifier -/

theorem answers_none : scope.answers none name =
    scope.zipIdx.flatMap fun source => source.1.answers source.2 name := by
  simp only [answers, references, List.filter_flatMap, Option.all_none, Bool.and_true]
  rfl

theorem candidates_eq : scope.candidates name =
    scope.zipIdx.filterMap fun source => (source.1.answers source.2 name).head? := by
  simp only [candidates, BoundSource.find?_eq_head?]

theorem filterMap_head?_answers_eq_nil_iff {sources : List (BoundSource × Nat)} :
    (sources.filterMap fun source => (source.1.answers source.2 name).head?) = [] ↔
      (sources.flatMap fun source => source.1.answers source.2 name) = [] := by
  rw [List.filterMap_eq_nil_iff, List.flatMap_eq_nil_iff]
  simp only [List.head?_eq_none_iff]

theorem candidates_eq_nil_iff : scope.candidates name = [] ↔ scope.answers none name = [] := by
  rw [candidates_eq, answers_none]
  exact filterMap_head?_answers_eq_nil_iff

/-- The first answers of sources are a single column exactly when only one of the sources has
answers, by induction on the sources: one that has answers must be the only one. -/
theorem filterMap_head?_answers_iff {sources : List (BoundSource × Nat)}
    (hnumbers : sources.Pairwise fun a b => a.2 ≠ b.2) :
    (sources.filterMap fun source => (source.1.answers source.2 name).head?) = [c] ↔
      ∃ others, (sources.flatMap fun source => source.1.answers source.2 name) = c :: others ∧
        ∀ d ∈ others, d.source = c.source := by
  induction sources with
  | nil => simp
  | cons first rest ih =>
      obtain ⟨hfirst, hrest⟩ := List.pairwise_cons.1 hnumbers
      rw [List.flatMap_cons]
      cases hanswers : first.1.answers first.2 name with
      | nil =>
          rw [List.filterMap_cons_none (by rw [hanswers]; rfl)]
          exact ih hrest
      | cons head tail =>
          have hown : ∀ d ∈ head :: tail, d.source = first.2 := fun d hd =>
            BoundSource.source_of_mem_answers (hanswers ▸ hd)
          have hother : ∀ d ∈ rest.flatMap fun source => source.1.answers source.2 name,
              d.source ≠ first.2 := by
            intro d hd
            obtain ⟨source, hsource, hd⟩ := List.mem_flatMap.1 hd
            rw [BoundSource.source_of_mem_answers hd]
            exact (hfirst source hsource).symm
          rw [List.filterMap_cons_some (b := head) (by rw [hanswers]; rfl), List.cons_eq_cons,
            filterMap_head?_answers_eq_nil_iff]
          constructor
          · rintro ⟨rfl, hnone⟩
            rw [hnone, List.append_nil]
            refine ⟨tail, rfl, fun d hd => ?_⟩
            rw [hown d (List.mem_cons_of_mem _ hd), hown head List.mem_cons_self]
          · rintro ⟨others, hcons, hsource⟩
            obtain ⟨rfl, rfl⟩ := List.cons_eq_cons.1 hcons
            refine ⟨rfl, List.eq_nil_iff_forall_not_mem.2 fun d hd => hother d hd ?_⟩
            rw [hsource d (List.mem_append_right _ hd), hown head List.mem_cons_self]

/-- There is one candidate exactly when all columns that answer are columns of one source. -/
theorem candidates_eq_singleton_iff : scope.candidates name = [c] ↔
    ∃ others, scope.answers none name = c :: others ∧ ∀ d ∈ others, d.source = c.source := by
  have hnumbers : (scope.zipIdx.map Prod.snd).Nodup := by
    rw [List.zipIdx_map_snd]
    exact List.nodup_range'
  rw [candidates_eq, answers_none]
  exact filterMap_head?_answers_iff (List.pairwise_map.1 hnumbers)

/-! ## References with a qualifier -/

theorem source?_eq_none_iff {q : String} : scope.source? q = none ↔
    ∀ source ∈ scope, Text.sameLetters source.aliasName q = false := by
  rw [source?, List.find?_eq_none]
  simp only [Bool.not_eq_true]
  constructor
  · intro h source hsource
    obtain ⟨number, hnumber⟩ := List.getElem?_of_mem hsource
    exact h (source, number) (List.mem_zipIdx_iff_getElem?.2 hnumber)
  · intro h source hsource
    exact h source.1 (List.mem_of_getElem? (List.mem_zipIdx_iff_getElem?.1 hsource))

/-- Where no two sources go by one name, a reference with a qualifier means a column of the source
that goes by it. -/
theorem answers_some (h : scope.Distinct) {q : String} {source : BoundSource × Nat}
    (hsource : scope.source? q = some source) (name : String) :
    scope.answers (some q) name = source.1.answers source.2 name := by
  have hfilter (s : BoundSource × Nat) :
      ((s.1.references s.2).filter fun c =>
        Text.sameLetters c.name name && Text.sameLetters c.qualifier q) =
        if Text.sameLetters s.1.aliasName q then s.1.answers s.2 name else [] := by
    rw [BoundSource.answers, BoundSource.references, List.filter_map, List.filter_map]
    split
    next halias => simp [Function.comp_def, BoundSource.reference, halias]
    next halias => simp [Function.comp_def, BoundSource.reference, halias]
  obtain ⟨hq, before, after, hsplit, hbefore⟩ := List.find?_eq_some_iff_append.1 hsource
  have hdistinct : (scope.zipIdx.map Prod.fst).Pairwise fun a b =>
      Text.sameLetters a.aliasName b.aliasName = false := by
    rw [List.zipIdx_map_fst]
    exact h
  rw [List.pairwise_map, hsplit, List.pairwise_append, List.pairwise_cons] at hdistinct
  -- Another source that goes by the qualifier would go by the name of this one.
  have hafter : ∀ a ∈ after, ¬Text.sameLetters a.1.aliasName q = true := by
    intro a ha haq
    have hsame := Text.sameLetters_trans hq (Text.sameLetters_symm haq)
    rw [hdistinct.2.1.1 a ha] at hsame
    cases hsame
  have hnone : ∀ sources : List (BoundSource × Nat),
      (∀ a ∈ sources, ¬Text.sameLetters a.1.aliasName q = true) →
        (sources.flatMap fun s =>
          if Text.sameLetters s.1.aliasName q then s.1.answers s.2 name else []) = [] :=
    fun sources hsources => List.flatMap_eq_nil_iff.2 fun a ha => if_neg (hsources a ha)
  simp only [answers, references, List.filter_flatMap, Option.all_some, hfilter]
  rw [hsplit, List.flatMap_append, List.flatMap_cons, if_pos hq, hnone after hafter,
    hnone before fun a ha => by simpa using hbefore a ha]
  exact List.append_nil _

/-! ## What references mean -/

/-- What comes of a reference to a column. -/
inductive Means (scope : Scope) (qualifier : Option String) (name : String) :
    Except PlanError BoundColumn → Prop where
  /-- It means the first of the columns that answer, if they are columns of one source. -/
  | column {c : BoundColumn} (others : List BoundColumn)
      (answers : scope.answers qualifier name = c :: others)
      (oneSource : ∀ d ∈ others, d.source = c.source) : Means scope qualifier name (.ok c)
  /-- Columns of two sources answer. -/
  | ambiguous {c d : BoundColumn} (first : c ∈ scope.answers qualifier name)
      (second : d ∈ scope.answers qualifier name) (ne : c.source ≠ d.source) :
      Means scope qualifier name (.error (.ambiguousColumn name))
  /-- No column answers. -/
  | unknownColumn
      (known : ∀ q ∈ qualifier, ∃ s ∈ scope, Text.sameLetters s.aliasName q = true)
      (none : scope.answers qualifier name = []) :
      Means scope qualifier name (.error (.unknownColumn (Expr.column qualifier name).sql))
  /-- No source goes by the qualifier. -/
  | unknownTable {q : String} (qualified : qualifier = some q)
      (unknown : ∀ s ∈ scope, Text.sameLetters s.aliasName q = false) :
      Means scope qualifier name (.error (.unknownTable q))

/-- A qualifier that no source goes by has no columns. -/
theorem answers_eq_nil {q : String}
    (h : ∀ s ∈ scope, Text.sameLetters s.aliasName q = false) :
    scope.answers (some q) name = [] := by
  refine List.eq_nil_iff_forall_not_mem.2 fun c hc => ?_
  obtain ⟨source, -, hsource, -, -, -, hq⟩ := mem_answers_iff.1 hc
  have hgoes := hq q rfl
  rw [h source (List.mem_of_getElem? hsource)] at hgoes
  cases hgoes

theorem resolve_none_of_means {outcome : Except PlanError BoundColumn}
    (h : scope.Means none name outcome) : scope.resolve none name = outcome := by
  cases h with
  | column others answers oneSource =>
      have hone := candidates_eq_singleton_iff.2 ⟨others, answers, oneSource⟩
      simp only [resolve, hone]
  | unknownColumn known none =>
      have hnone := candidates_eq_nil_iff.2 none
      simp only [resolve, hnone]
      rfl
  | unknownTable qualified unknown => cases qualified
  | @ambiguous c d first second ne =>
      -- Neither none nor all of the columns that answer are columns of one source.
      unfold resolve
      dsimp only
      split
      next hnil =>
        rw [candidates_eq_nil_iff.1 hnil] at first
        cases first
      next e hone =>
        obtain ⟨others, hanswers, hsource⟩ := candidates_eq_singleton_iff.1 hone
        have hall : ∀ d ∈ scope.answers none name, d.source = e.source := by
          rw [hanswers]
          exact List.forall_mem_cons.2 ⟨rfl, hsource⟩
        exact absurd ((hall c first).trans (hall d second).symm) ne
      next => rfl

theorem resolve_some_of_means (hdistinct : scope.Distinct) {q : String}
    {outcome : Except PlanError BoundColumn} (h : scope.Means (some q) name outcome) :
    scope.resolve (some q) name = outcome := by
  cases hsource : scope.source? q with
  | none =>
      have hunknown := source?_eq_none_iff.1 hsource
      cases h with
      | column others answers =>
          rw [answers_eq_nil hunknown] at answers
          cases answers
      | ambiguous first =>
          rw [answers_eq_nil hunknown] at first
          cases first
      | unknownColumn known =>
          obtain ⟨s, hs, hq⟩ := known q rfl
          rw [hunknown s hs] at hq
          cases hq
      | unknownTable qualified unknown =>
          cases qualified
          simp only [resolve, hsource]
  | some source =>
      have hanswers := answers_some hdistinct hsource name
      cases h with
      | @column c others answers =>
          have hfirst : source.1.find? source.2 name = some c := by
            rw [BoundSource.find?_eq_head?, ← hanswers, answers]
            rfl
          simp only [resolve, hsource, hfirst]
      | ambiguous first second ne =>
          rw [hanswers] at first second
          have hsame := (BoundSource.source_of_mem_answers first).trans
            (BoundSource.source_of_mem_answers second).symm
          exact absurd hsame ne
      | unknownColumn known none =>
          have hnone : source.1.find? source.2 name = Option.none := by
            rw [BoundSource.find?_eq_head?, ← hanswers, none]
            rfl
          simp only [resolve, hsource, hnone]
          rfl
      | unknownTable qualified unknown =>
          cases qualified
          rw [source?_eq_none_iff.2 unknown] at hsource
          cases hsource

/-- Something comes of every reference. -/
theorem exists_means (scope : Scope) (qualifier : Option String) (name : String) :
    ∃ outcome, scope.Means qualifier name outcome := by
  by_cases hknown : ∀ q ∈ qualifier, ∃ s ∈ scope, Text.sameLetters s.aliasName q = true
  · cases hanswers : scope.answers qualifier name with
    | nil => exact ⟨_, .unknownColumn hknown hanswers⟩
    | cons c others =>
        by_cases hsource : ∀ d ∈ others, d.source = c.source
        · exact ⟨_, .column others hanswers hsource⟩
        · push Not at hsource
          obtain ⟨d, hd, hne⟩ := hsource
          have hc : c ∈ scope.answers qualifier name := hanswers ▸ List.mem_cons_self
          have hd : d ∈ scope.answers qualifier name := hanswers ▸ List.mem_cons_of_mem c hd
          exact ⟨_, .ambiguous hc hd hne.symm⟩
  · push Not at hknown
    obtain ⟨q, hq, hunknown⟩ := hknown
    exact ⟨_, .unknownTable hq fun s hs => eq_false_of_ne_true (hunknown s hs)⟩

/-- Where no two sources go by one name, exactly one thing comes of a reference. -/
theorem resolve_eq_iff (h : scope.Distinct) {outcome : Except PlanError BoundColumn} :
    scope.resolve qualifier name = outcome ↔ scope.Means qualifier name outcome := by
  have hresolve (x : Except PlanError BoundColumn) (hx : scope.Means qualifier name x) :
      scope.resolve qualifier name = x := by
    cases qualifier with
    | none => exact resolve_none_of_means hx
    | some q => exact resolve_some_of_means h hx
  -- Something comes of the reference, and it is what it is resolved to.
  refine ⟨?_, hresolve outcome⟩
  rintro rfl
  obtain ⟨x, hx⟩ := exists_means scope qualifier name
  rw [hresolve x hx]
  exact hx

end Scope

/-! ## Scopes of queries -/

namespace Select

variable {bindSource : TableRef → Except PlanError BoundSource}

/-- Sources that are bound one after the other go by different names. -/
theorem distinct_of_bindSources {before scope : Scope} {refs : List TableRef}
    (hbefore : before.Distinct) (h : bindSources bindSource before refs = .ok scope) :
    scope.Distinct := by
  induction refs generalizing before with
  | nil =>
      cases h
      exact hbefore
  | cons r rest ih =>
      unfold bindSources at h
      obtain ⟨source, -, h⟩ := bind_eq_ok.1 h
      dsimp only at h
      split at h
      next => cases h
      next hnew =>
        refine ih (List.pairwise_append.2 ⟨hbefore, List.pairwise_singleton _ _, ?_⟩) h
        intro a ha b hb
        rw [List.mem_singleton.1 hb]
        exact eq_false_of_ne_true fun hsame => hnew (List.any_eq_true.2 ⟨a, ha, hsame⟩)

/-- A source of a scope stands for one of the references. -/
theorem exists_of_mem_scope {scope : Scope} {refs : List TableRef}
    (h : bindSources bindSource [] refs = .ok scope) {source : BoundSource} (hs : source ∈ scope) :
    ∃ r ∈ refs, bindSource r = .ok source := by
  obtain ⟨sources, hsources, rfl⟩ := exists_of_bindSources h
  exact exists_of_mem_mapM hsources hs

end Select

/-- The columns of a table have different names. -/
theorem Table.position_unique {schema : String} {t : Table} (h : t.Coherent schema) {i j : Nat}
    {a b : Column} (ha : t.columns[i]? = some a) (hb : t.columns[j]? = some b)
    (hname : Text.sameLetters a.name b.name = true) : i = j := by
  obtain ⟨hi, rfl⟩ := List.getElem?_eq_some_iff.1 ha
  obtain ⟨hj, rfl⟩ := List.getElem?_eq_some_iff.1 hb
  have hdistinct := List.pairwise_iff_getElem.1 h.columns
  rcases Nat.lt_trichotomy i j with hlt | heq | hgt
  · rw [hdistinct i j hi hj hlt] at hname
    cases hname
  · exact heq
  · have hname := Text.sameLetters_symm hname
    rw [hdistinct j i hj hi hgt] at hname
    cases hname

namespace Session

variable {s : Session} {expanding : List String} {refs : List TableRef} {scope : Scope}

/-- Two columns of one source that answer to a name are columns of a view. -/
theorem exists_view_of_answers
    (hscope : Select.bindSources (s.bindSource expanding) [] refs = .ok scope)
    (htables : s.catalog.Each Table.Coherent) {qualifier : Option String} {name : String}
    {c d : BoundColumn}
    (hc : c ∈ scope.answers qualifier name) (hd : d ∈ scope.answers qualifier name)
    (hsource : c.source = d.source) (hne : c ≠ d) :
    ∃ source view query, scope[c.source]? = some source ∧ source.origin = .view view query := by
  obtain ⟨source, a, hget, ha, hca, haname, -⟩ := Scope.mem_answers_iff.1 hc
  obtain ⟨source', b, hget', hb, hdb, hbname, -⟩ := Scope.mem_answers_iff.1 hd
  rw [← hsource] at hget' hdb
  rw [hget] at hget'
  cases hget'
  obtain ⟨r, -, hr⟩ := Select.exists_of_mem_scope hscope (List.mem_of_getElem? hget)
  rcases bindSource_eq_ok hr with ⟨-, t, ht, rfl⟩ | ⟨w, -, -, q, -, hw⟩
  · -- In a table, the two columns would be one.
    have hmem := Catalog.mem_tables_of_table? (table?_of_bindTable ht)
    obtain ⟨schema, hschema, hmem⟩ := List.mem_flatMap.1 hmem
    simp only [BoundSource.ofTable, List.getElem?_map, Option.map_eq_some_iff] at ha hb
    obtain ⟨column, hcolumn, rfl⟩ := ha
    obtain ⟨column', hcolumn', rfl⟩ := hb
    have hsame := Text.sameLetters_trans haname (Text.sameLetters_symm hbname)
    have hposition :=
      Table.position_unique (htables schema hschema t hmem) hcolumn hcolumn' hsame
    rw [← hposition, hcolumn] at hcolumn'
    cases hcolumn'
    exact absurd (hca.trans (hposition ▸ hdb.symm)) hne
  · exact ⟨source, w.name, q, hget, View.origin_of_source hw⟩

/-- A reference to a column means the first of the columns that answer to it, if they are columns of
one source, and is refused otherwise: as ambiguous, if columns of several sources answer to it, and
as unknown, if none does.  A source has two such columns only if it is a view, so a column of a
table is the only one that answers. -/
theorem resolve_answers (s : Session) (expanding : List String) (refs : List TableRef)
    {scope : Scope} (hscope : Select.bindSources (s.bindSource expanding) [] refs = .ok scope)
    (qualifier : Option String) (name : String) :
    (∀ outcome, scope.resolve qualifier name = outcome ↔ scope.Means qualifier name outcome) ∧
      (s.catalog.Each Table.Coherent → ∀ c ∈ scope.answers qualifier name,
        ∀ d ∈ scope.answers qualifier name, c.source = d.source → c ≠ d →
          ∃ source view query, scope[c.source]? = some source ∧
            source.origin = .view view query) := by
  have hdistinct := Select.distinct_of_bindSources List.Pairwise.nil hscope
  exact ⟨fun outcome => Scope.resolve_eq_iff hdistinct, fun htables c hc d hd =>
    exists_view_of_answers hscope htables hc hd⟩

end Session

/-- The view `v (a, A)` of `SELECT 1, 2`. -/
def repeatingView : View :=
  { name := "v"
    columns := ["a", "A"]
    query :=
      { items := [1, 2].map fun n => .expr (.literal (.integer n)) none none }
    parameterFree := rfl }

/-- A session with a view whose columns have one name in two cases of letters. -/
def repeatingSession : Session :=
  { catalog := .empty
    defaultSchema := "main"
    views := Directory.empty.insert repeatingView }

/-- The source that a reference to `repeatingView` stands for. -/
def repeatingSource (aliasName : String) : BoundSource :=
  { aliasName
    origin := .view "v"
      { sources := []
        results := [⟨.literal (.integer 1), "1"⟩, ⟨.literal (.integer 2), "2"⟩]
        predicate := none
        order := []
        offset := none
        limit := none }
    columns := [⟨"a", some .bigint, none⟩, ⟨"A", some .bigint, none⟩] }

theorem bindSource_repeatingSession (aliasName : Option String) :
    repeatingSession.bindSource [] { name := { name := "v" }, aliasName } =
      .ok (repeatingSource (aliasName.getD "v")) := by
  have hview : repeatingSession.view? { name := "v" } = some repeatingView := by rfl
  rw [Session.bindSource_of_view hview List.not_mem_nil]
  with_unfolding_all rfl

/-- Without a qualifier `A` is ambiguous between two sources of such a view; with the name of the
second one it means the first of the two columns that answer, which is a column of a view. -/
theorem resolve_answers_repeatingSession :
    ∃ scope c d, Select.bindSources (repeatingSession.bindSource []) []
        [{ name := { name := "v" } }, { name := { name := "v" }, aliasName := some "w" }] =
          .ok scope ∧
      scope.resolve none "A" = .error (.ambiguousColumn "A") ∧
      scope.answers (some "W") "A" = [c, d] ∧ scope.resolve (some "W") "A" = .ok c ∧
      ∃ source view query, scope[c.source]? = some source ∧
        source.origin = .view view query := by
  have hscope : Select.bindSources (repeatingSession.bindSource []) []
      [{ name := { name := "v" } }, { name := { name := "v" }, aliasName := some "w" }] =
        .ok [repeatingSource "v", repeatingSource "w"] := by
    simp only [Select.bindSources, bindSource_repeatingSession]
    rfl
  have hall : Scope.answers [repeatingSource "v", repeatingSource "w"] none "A" =
      (repeatingSource "v").references 0 ++ (repeatingSource "w").references 1 := by rfl
  have hsecond : Scope.answers [repeatingSource "v", repeatingSource "w"] (some "W") "A" =
      (repeatingSource "w").references 1 := by rfl
  obtain ⟨hnone, -⟩ := Session.resolve_answers repeatingSession [] _ hscope none "A"
  obtain ⟨hsome, hview⟩ := Session.resolve_answers repeatingSession [] _ hscope (some "W") "A"
  refine ⟨_, (repeatingSource "w").reference 1 (⟨"a", some .bigint, none⟩, 0),
    (repeatingSource "w").reference 1 (⟨"A", some .bigint, none⟩, 1), hscope, ?_, hsecond, ?_, ?_⟩
  · refine (hnone _).2 (.ambiguous
      (c := (repeatingSource "v").reference 0 (⟨"a", some .bigint, none⟩, 0))
      (d := (repeatingSource "w").reference 1 (⟨"a", some .bigint, none⟩, 0)) ?_ ?_ (by decide))
    · rw [hall]
      exact List.mem_append_left _ List.mem_cons_self
    · rw [hall]
      exact List.mem_append_right _ List.mem_cons_self
  · exact (hsome _).2 (.column _ hsecond (by decide))
  · refine hview .empty _ ?_ ((repeatingSource "w").reference 1
      (⟨"A", some .bigint, none⟩, 1)) ?_ rfl (by decide)
    · rw [hsecond]
      exact List.mem_cons_self
    · rw [hsecond]
      exact List.mem_cons_of_mem _ List.mem_cons_self

/-- Of the two columns of a view that answer to a name the first is taken, and the reference is not
ambiguous. -/
theorem resolve_repeatedName :
    ∃ scope c d, Select.bindSources (repeatingSession.bindSource []) []
        [{ name := { name := "v" } }] = .ok scope ∧
      c ≠ d ∧ scope.answers none "a" = [c, d] ∧ scope.resolve none "a" = .ok c ∧
      scope.answers (some "v") "a" = [c, d] ∧ scope.resolve (some "v") "a" = .ok c := by
  have hscope : Select.bindSources (repeatingSession.bindSource []) []
      [{ name := { name := "v" } }] = .ok [repeatingSource "v"] := by
    simp only [Select.bindSources, bindSource_repeatingSession]
    rfl
  refine ⟨_, (repeatingSource "v").reference 0 (⟨"a", some .bigint, none⟩, 0),
    (repeatingSource "v").reference 0 (⟨"A", some .bigint, none⟩, 1), hscope, by decide,
    ?_, ?_, ?_, ?_⟩ <;> rfl

end QueryPlanner

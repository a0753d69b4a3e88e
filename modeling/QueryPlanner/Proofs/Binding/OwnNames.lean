import QueryPlanner.Proofs.Binding.Resolution
import QueryPlanner.Proofs.Text.Spelling

/-!
# Sources by the name they are read under

A table or view that is read without an alias goes by the name that it was declared with.  It was
found under the name that the query has for it, in any case of letters; columns are then looked for
in a source whose name differs from the qualifier at most in the case of the letters `A` to `Z`.
These are two ways to compare names: a query that writes `äpfel` for the table `ÄPFEL` finds the
table and cannot qualify columns by the name it has written.

Main statement: `bindSelect_ownName`.
-/

namespace QueryPlanner

/-- The query of a table or view, read under its name, with one entry in its select list. -/
def Select.itemOf (name : String) (item : SelectItem) : Select :=
  { items := [item], sources := [{ name := { name } }] }

/-- The bound query of a source without conditions. -/
def BoundSelect.ofSource (source : BoundSource) (results : List ResultItem) : BoundSelect :=
  { sources := [source], results, predicate := none, order := [], offset := none, limit := none }

namespace Scope

variable {source : BoundSource} {name : String}

theorem source?_of_sameLetters (h : Text.sameLetters source.aliasName name = true) :
    source? [source] name = some (source, 0) := by
  simp [source?, h]

theorem source?_of_ne (h : Text.sameLetters source.aliasName name = false) :
    source? [source] name = none := by
  simp [source?, h]

/-- A source shows a column under the name of each of its columns. -/
theorem exists_resolve (h : Text.sameLetters source.aliasName name = true) {c : SourceColumn}
    (hc : c ∈ source.columns) :
    ∃ column ∈ source.references 0, Text.sameLetters column.name c.name = true ∧
      resolve [source] (some name) c.name = .ok column := by
  obtain ⟨position, hposition⟩ := List.getElem?_of_mem hc
  have hanswer : source.reference 0 (c, position) ∈ source.answers 0 c.name :=
    List.mem_filter.2 ⟨BoundSource.mem_references_iff.2 ⟨c, hposition, rfl⟩,
      Text.sameLetters_refl c.name⟩
  cases hanswers : source.answers 0 c.name with
  | nil =>
      rw [hanswers] at hanswer
      cases hanswer
  | cons column others =>
      have hcolumn : column ∈ source.answers 0 c.name := hanswers ▸ List.mem_cons_self
      obtain ⟨hreference, hname⟩ := List.mem_filter.1 hcolumn
      have hfind : source.find? 0 c.name = some column := by
        rw [BoundSource.find?_eq_head?, hanswers]
        rfl
      refine ⟨column, hreference, hname, ?_⟩
      simp only [resolve, source?_of_sameLetters h, hfind]

theorem bindItem_column {scope : Scope} {qualifier : Option String} {column : BoundColumn}
    (h : scope.resolve qualifier name = .ok column) (aliasName defaultName : Option String) :
    scope.bindItem (.expr (.column qualifier name) aliasName defaultName) =
      .ok [⟨.column column, aliasName.getD column.name⟩] := by
  rw [bindItem, bindExpr, h]
  cases aliasName <;> rfl

end Scope

theorem View.aliasName_of_source {w : View} {aliasName : Option String} {q : BoundSelect}
    {source : BoundSource} (h : w.source aliasName q = .ok source) :
    source.aliasName = aliasName.getD w.name := by
  obtain ⟨-, types, -, rfl⟩ := View.source_eq_ok_iff.1 h
  rfl

namespace Session

variable {s : Session} {name : String} {source : BoundSource}

theorem bindTable_of_table? {name : ObjectName} {t : Table}
    (h : s.catalog.table? (name.qualify s.defaultSchema) = some t) : s.bindTable name = .ok t := by
  obtain ⟨schema, hschema, -⟩ := Option.bind_eq_some_iff.1 h
  have hhas : s.catalog.hasSchema (name.qualify s.defaultSchema).schema = true := by
    rw [Catalog.hasSchema, Directory.contains, hschema]
    rfl
  unfold bindTable
  dsimp only
  rw [if_pos hhas, h]

/-- A source is found under the name that it was declared with, but for the case of letters. -/
theorem lowercase_aliasName (h : s.bindSource [] { name := { name } } = .ok source) :
    Text.lowercase source.aliasName = Text.lowercase name := by
  rcases bindSource_eq_ok h with ⟨-, t, ht, rfl⟩ | ⟨w, hview, -, q, -, hw⟩
  · obtain ⟨schema, -, ht⟩ := Option.bind_eq_some_iff.1 (table?_of_bindTable ht)
    have hkey : Named.key t = Text.lowercase name := Directory.key_of_find? ht
    rw [← hkey]
    rfl
  · have hkey : Named.key w = Text.lowercase name := Directory.key_of_find? hview
    rw [View.aliasName_of_source hw, ← hkey]
    rfl

theorem bindSelect_itemOf (h : s.bindSource [] { name := { name } } = .ok source)
    (item : SelectItem) :
    s.bindSelect (.itemOf name item) =
      (Scope.bindItem [source] item).map (BoundSelect.ofSource source) := by
  have hscope : Select.bindSources (s.bindSource []) [] [{ name := { name } }] = .ok [source] := by
    rw [Select.bindSources, h]
    rfl
  rw [bindSelect, Select.bindWith_eq, Select.itemOf, hscope, ok_bind, Select.bindIn,
    List.mapM_cons, List.mapM_nil]
  cases Scope.bindItem [source] item with
  | error e => rfl
  | ok results => exact congrArg (Except.ok ∘ BoundSelect.ofSource source) (List.append_nil results)

/-- Of a table or view that is read without an alias, every column can be referred to, and all can
be listed, with the name it is read under as the qualifier, if this name differs from the declared
one at most in the case of ASCII letters; otherwise no source is known by it.  Lookup finds the
declared name up to its small letters, which leaves no other case if both names are in ASCII. -/
theorem bindSelect_ownName (s : Session) (name : String) {source : BoundSource}
    (h : s.bindSource [] { name := { name } } = .ok source) :
    (Text.sameLetters source.aliasName name = true →
        (∀ c ∈ source.columns, ∃ column ∈ source.references 0,
          Text.sameLetters column.name c.name = true ∧ ∀ aliasName defaultName,
            s.bindSelect (.itemOf name
                (.expr (.column (some name) c.name) aliasName defaultName)) =
              .ok (.ofSource source [⟨.column column, aliasName.getD column.name⟩])) ∧
        s.bindSelect (.itemOf name (.qualifiedWildcard name)) =
          .ok (.ofSource source ((source.references 0).map Scope.columnResult))) ∧
      (Text.sameLetters source.aliasName name = false →
        (∀ column aliasName defaultName,
          s.bindSelect (.itemOf name (.expr (.column (some name) column) aliasName defaultName)) =
            .error (.unknownTable name)) ∧
        s.bindSelect (.itemOf name (.qualifiedWildcard name)) = .error (.unknownTable name)) ∧
      Text.lowercase source.aliasName = Text.lowercase name ∧
      (Text.IsAscii source.aliasName → Text.IsAscii name →
        Text.sameLetters source.aliasName name = true) := by
  refine ⟨fun hsame => ⟨fun c hc => ?_, ?_⟩, fun hother => ⟨fun column aliasName defaultName => ?_,
    ?_⟩, lowercase_aliasName h, fun hdeclared hwritten => ?_⟩
  · obtain ⟨column, hcolumn, hname, hresolve⟩ := Scope.exists_resolve hsame hc
    refine ⟨column, hcolumn, hname, fun aliasName defaultName => ?_⟩
    rw [bindSelect_itemOf h, Scope.bindItem_column hresolve]
    rfl
  · rw [bindSelect_itemOf h, Scope.bindItem, Scope.source?_of_sameLetters hsame]
    rfl
  · rw [bindSelect_itemOf h, Scope.bindItem, Scope.bindExpr, Scope.resolve,
      Scope.source?_of_ne hother]
    rfl
  · rw [bindSelect_itemOf h, Scope.bindItem, Scope.source?_of_ne hother]
    rfl
  · exact Text.sameLetters_of_lowercase hdeclared hwritten (lowercase_aliasName h)

end Session

/-- A table with one column. -/
def Table.single (name : String) : Table :=
  { name := ⟨"main", name⟩, columns := [{ name := "c", type := .bigint }], indexes := [] }

/-- The tables `Nuts` and `ÄPFEL`. -/
def fruitTables : Directory Table :=
  ⟨[.single "Nuts", .single "ÄPFEL"], by decide +kernel⟩

/-- A session with `fruitTables` and no views. -/
def fruitSession : Session :=
  { catalog := ⟨⟨[{ name := "main", tables := fruitTables }], List.pairwise_singleton _ _⟩⟩
    defaultSchema := "main" }

theorem bindSource_fruitSession (name : String) {t : Table} (ht : t ∈ fruitTables.items)
    (hname : Text.lowercase name = Named.key t) :
    fruitSession.bindSource [] { name := { name } } = .ok (.ofTable t none) := by
  have hschema : fruitSession.catalog.schemas.find? "main" =
      some { name := "main", tables := fruitTables } :=
    Directory.find?_of_mem List.mem_cons_self rfl
  have htable : fruitSession.bindTable { name } = .ok t := by
    refine Session.bindTable_of_table? ?_
    show fruitSession.catalog.table? ⟨"main", name⟩ = some t
    rw [Catalog.table?, hschema]
    exact Directory.find?_of_mem ht hname
  have hview : fruitSession.view? { name } = none := rfl
  rw [Session.bindSource_of_table hview, htable]
  rfl

/-- Columns of `ÄPFEL` cannot be qualified by `äpfel`, while those of `Nuts` can be by `NUTS`. -/
theorem bindSelect_ownName_fruitSession :
    (fruitSession.bindSource [] { name := { name := "äpfel" } } =
        .ok (.ofTable (.single "ÄPFEL") none) ∧
      fruitSession.bindSelect (.itemOf "äpfel" (.expr (.column (some "äpfel") "c") none none)) =
        .error (.unknownTable "äpfel") ∧
      fruitSession.bindSelect (.itemOf "äpfel" (.qualifiedWildcard "äpfel")) =
        .error (.unknownTable "äpfel")) ∧
    ∃ source column, fruitSession.bindSource [] { name := { name := "NUTS" } } = .ok source ∧
      fruitSession.bindSelect (.itemOf "NUTS" (.expr (.column (some "NUTS") "c") none none)) =
        .ok (.ofSource source [⟨.column column, column.name⟩]) := by
  have happles := bindSource_fruitSession "äpfel" (t := .single "ÄPFEL")
    (List.mem_cons_of_mem _ List.mem_cons_self) (by decide +kernel)
  have hnuts := bindSource_fruitSession "NUTS" (t := .single "Nuts")
    List.mem_cons_self (by decide +kernel)
  obtain ⟨-, hunknown, -⟩ := fruitSession.bindSelect_ownName "äpfel" happles
  obtain ⟨hknown, -, -, hascii⟩ := fruitSession.bindSelect_ownName "NUTS" hnuts
  obtain ⟨hcolumn, hwildcard⟩ := hunknown (by decide)
  obtain ⟨hcolumns, -⟩ := hknown (hascii (by decide) (by decide))
  obtain ⟨column, -, -, hbound⟩ := hcolumns _ List.mem_cons_self
  exact ⟨⟨happles, hcolumn _ _ _, hwildcard⟩, _, column, hnuts, hbound none none⟩

end QueryPlanner

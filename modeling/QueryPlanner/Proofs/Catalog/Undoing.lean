import QueryPlanner.Proofs.Catalog.Coherence
import QueryPlanner.Proofs.Catalog.Entries
import QueryPlanner.View

/-!
# Dropping what was created

A schema, table, index or view that has just been created can be dropped under every spelling of its
name, and what it was created in is then exactly what it was before.

Creating puts something where nothing stood, so taking it away leaves nothing there again.  Indexes
are different: they stand in a list, and dropping takes out all that go by the name.  The new index
is the only one, since its name had to be new.

Main statement: `drop_create`.
-/

namespace QueryPlanner

namespace Directory

variable {α : Type} [Named α] {d : Directory α}

theorem find?_eq_none_of_contains {name : String} (h : d.contains name = false) :
    d.find? name = none := by
  simpa [contains] using h

theorem contains_insert {a : α} {name : String} (hname : Text.lowercase name = Named.key a) :
    (d.insert a).contains name = true := by
  simp [contains, find?_insert, hname]

end Directory

/-! ## Schemas and views -/

namespace Catalog

variable {c c' : Catalog} {m n : TableName}

theorem dropSchema_of_createSchema {name other : String} (h : c.createSchema name = .ok c')
    (hname : Text.lowercase other = Text.lowercase name) : c'.dropSchema other = .ok c := by
  unfold createSchema at h
  split at h
  next => cases h
  next hnew =>
    cases h
    have hnone := Directory.find?_eq_none_of_contains (eq_false_of_ne_true hnew)
    have hfound : (c.schemas.insert { name }).find? other = some { name } :=
      Directory.find?_insert c.schemas { name } other ▸ if_pos hname.symm
    have hback : (c.schemas.insert { name }).erase other = c.schemas :=
      Directory.erase_insert hname hnone
    unfold dropSchema
    simp only [hfound, hback]
    rfl

end Catalog

theorem Views.remove_of_add {views views' : Views} {view : View} {name : String}
    (h : views.add view = .ok views') (hname : Text.lowercase name = Named.key view) :
    views'.remove name = .ok views := by
  unfold add at h
  split at h
  next => cases h
  next hnew =>
    cases h
    have hnone : views.find? (Named.name view) = none :=
      Directory.find?_eq_none_of_contains (eq_false_of_ne_true hnew)
    rw [remove, if_pos (Directory.contains_insert hname), Directory.erase_insert hname hnone]

/-! ## Tables and indexes -/

namespace Table

/-- The new index is the only one that goes by its name. -/
theorem removeIndex_of_addIndex {t t' : Table} {name other : String} {columns : List String}
    {unique : Bool} (h : t.addIndex name columns unique = .ok t')
    (hname : Text.sameLetters name other = true) : t'.removeIndex other = .ok t := by
  unfold addIndex at h
  split at h
  next => cases h
  next hnew =>
    obtain ⟨fields, -, h⟩ := bind_eq_ok.1 h
    cases h
    have hothers : ∀ i ∈ t.indexes, Text.sameLetters i.name other = false := by
      intro i hi
      rw [Bool.not_eq_true, Option.isSome_eq_false_iff, Option.isNone_iff_eq_none, index?,
        List.find?_eq_none] at hnew
      refine eq_false_of_ne_true fun hsame => hnew i hi ?_
      exact Text.sameLetters_trans hsame (Text.sameLetters_symm hname)
    have hkept : t.indexes.filter (fun i => !Text.sameLetters i.name other) = t.indexes := by
      simpa using hothers
    have hnone : t.indexes.find? (fun i => Text.sameLetters i.name other) = none := by
      simpa [List.find?_eq_none] using hothers
    simp [removeIndex, index?, hnone, hkept, hname]

end Table

namespace Catalog

variable {c c' : Catalog} {m n : TableName}

theorem dropTable_of_createTable {columns : List Column} (h : c.createTable m columns = .ok c')
    (hkey : m.key = n.key) : c'.dropTable n = .ok c := by
  rw [createTable_eq] at h
  split at h
  next => cases h
  next => cases h
  next schema hentry =>
    split at h
    next => cases h
    next =>
      cases h
      have hfits : Directory.Fits m.table
          (some { name := ⟨schema, m.table⟩, columns := columns : Table }) :=
        Directory.fits_some.2 rfl
      have hnone : c.standing? n = some (schema, none) := standing?_congr hkey ▸ hentry
      rw [dropTable_eq, standing?_place hfits hkey, hnone, Option.map_some]
      dsimp only
      rw [place_place hfits Directory.fits_none hkey, place_standing? hnone]

/-- What gives back the table that was changed gives back the catalog. -/
theorem modify_of_modify {f g : Table → Except CatalogError Table}
    (hf : ∀ t t', f t = .ok t' → t'.name = t.name) (hfg : ∀ t t', f t = .ok t' → g t' = .ok t)
    (h : c.modify m f = .ok c') (hkey : m.key = n.key) : c'.modify n g = .ok c := by
  unfold modify at h
  split at h
  next => cases h
  next => cases h
  next schema t hentry =>
    obtain ⟨t', ht', rfl⟩ := map_eq_ok.1 h
    have hfits : Directory.Fits m.table (some t) := fits_of_standing? hentry
    have hfits' : Directory.Fits m.table (some t') := fits_of_name_eq hfits (hf t t' ht')
    have hsome : c.standing? n = some (schema, some t) := standing?_congr hkey ▸ hentry
    rw [modify, standing?_place hfits' hkey, hsome, Option.map_some]
    dsimp only
    rw [hfg t t' ht']
    show Except.ok ((c.place m (some t')).place n (some t)) = Except.ok c
    rw [place_place hfits' (fits_of_standing? hsome) hkey, place_standing? hsome]

theorem dropIndex_of_createIndex {name other : String} {columns : List String} {unique : Bool}
    (h : c.createIndex m name columns unique = .ok c') (hkey : m.key = n.key)
    (hname : Text.sameLetters name other = true) : c'.dropIndex n other = .ok c := by
  rw [createIndex_eq] at h
  split at h
  next => cases h
  next =>
    rw [dropIndex_eq]
    exact modify_of_modify (fun _ _ ht => Table.name_of_addIndex ht)
      (fun _ _ ht => Table.removeIndex_of_addIndex ht hname) h hkey

end Catalog

/-- A schema, a table, an index and a view that could be created can be dropped under every spelling
of their names in ASCII letters, and this gives back the catalog, or the views, of before. -/
theorem Catalog.drop_create (c : Catalog) (views : Views) :
    (∀ name other c', Text.sameLetters name other = true → c.createSchema name = .ok c' →
      c'.dropSchema other = .ok c) ∧
    (∀ (name other : TableName) columns c', name.SameLetters other →
      c.createTable name columns = .ok c' → c'.dropTable other = .ok c) ∧
    (∀ (name other : TableName) index index' columns unique c', name.SameLetters other →
      Text.sameLetters index index' = true → c.createIndex name index columns unique = .ok c' →
        c'.dropIndex other index' = .ok c) ∧
    ∀ (view : View) other views', Text.sameLetters view.name other = true →
      views.add view = .ok views' → views'.remove other = .ok views := by
  refine ⟨?_, ?_, ?_, ?_⟩
  · intro name other c' hname h
    exact dropSchema_of_createSchema h (Text.lowercase_of_sameLetters hname).symm
  · intro name other columns c' hname h
    exact dropTable_of_createTable h (TableName.key_of_sameLetters hname)
  · intro name other index index' columns unique c' hname hindex h
    exact dropIndex_of_createIndex h (TableName.key_of_sameLetters hname) hindex
  · intro view other views' hname h
    exact Views.remove_of_add h (Text.lowercase_of_sameLetters hname).symm

/-- A view whose query has no results. -/
def emptyView (name : String) : View :=
  { name, columns := [], query := { items := [] }, parameterFree := rfl }

/-- Names beyond ASCII are found again, and the index that was there before stays. -/
theorem drop_create_ledgerCatalog :
    ∃ c₁ c₂ c₃ views,
      ledgerCatalog.createSchema "Ärger" = .ok c₁ ∧
      c₁.dropSchema "ÄRGER" = .ok ledgerCatalog ∧
      ledgerCatalog.createTable ⟨"MAIN", "ΑΣ t"⟩ [{ name := "x", type := .bigint }] = .ok c₂ ∧
      c₂.dropTable ⟨"main", "ΑΣ T"⟩ = .ok ledgerCatalog ∧
      ledgerCatalog.createIndex ⟨"main", "T"⟩ "byId" ["ID", "note"] true = .ok c₃ ∧
      c₃.dropIndex ⟨"Main", "t"⟩ "BYID" = .ok ledgerCatalog ∧
      Views.add .empty (emptyView "v") = .ok views ∧ views.remove "V" = .ok .empty := by
  obtain ⟨hschemas, htables, hindexes, hviews⟩ := ledgerCatalog.drop_create .empty
  obtain ⟨c₁, hschema⟩ := exists_of_isOk (x := ledgerCatalog.createSchema "Ärger")
    (by decide +kernel)
  obtain ⟨c₂, htable⟩ := exists_of_isOk (x := ledgerCatalog.createTable ⟨"MAIN", "ΑΣ t"⟩
    [{ name := "x", type := .bigint }]) (by decide +kernel)
  obtain ⟨c₃, hindex⟩ := exists_of_isOk (x := ledgerCatalog.createIndex ⟨"main", "T"⟩ "byId"
    ["ID", "note"] true) (by decide +kernel)
  obtain ⟨views, hview⟩ := exists_of_isOk (x := Views.add .empty (emptyView "v"))
    (by decide +kernel)
  have hledger : TableName.SameLetters ⟨"main", "T"⟩ ⟨"Main", "t"⟩ := ⟨by decide, by decide⟩
  have hword : TableName.SameLetters ⟨"MAIN", "ΑΣ t"⟩ ⟨"main", "ΑΣ T"⟩ :=
    ⟨by decide, by decide +kernel⟩
  exact ⟨c₁, c₂, c₃, views, hschema, hschemas "Ärger" "ÄRGER" c₁ (by rfl) hschema, htable,
    htables _ _ _ c₂ hword htable, hindex,
    hindexes _ _ "byId" "BYID" _ _ c₃ hledger (by decide) hindex, hview,
    hviews (emptyView "v") "V" views (by decide) hview⟩

end QueryPlanner

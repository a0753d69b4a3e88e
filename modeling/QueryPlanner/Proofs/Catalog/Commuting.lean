import QueryPlanner.Proofs.Catalog.Coherence
import QueryPlanner.Proofs.Catalog.Entries

/-!
# Calls for different tables

Declaring and dropping tables and indexes goes table by table.  Two calls that name different tables,
in the same schema or in different ones, may be made in either order: each of them is carried out or
refused as it would be in the other order, with the same error, and the catalog that they leave is
the same.

A call is local (`Local`) if in catalogs that agree on what stands under its name it does the same:
it is refused with the same error, or it puts the same table there.  All four calls are local, and
local calls under different names do not see each other, whatever else they are.

Main statement: `calls_commute`.
-/

namespace QueryPlanner

/-- A call that declares or drops a table or one of its indexes. -/
inductive TableCall where
  | createTable (columns : List Column)
  | dropTable
  | createIndex (name : String) (columns : List String) (unique : Bool)
  | dropIndex (name : String)

/-- Makes a call for the table with a name. -/
def TableCall.run (name : TableName) (c : Catalog) : TableCall → Except CatalogError Catalog
  | .createTable columns => c.createTable name columns
  | .dropTable => c.dropTable name
  | .createIndex index columns unique => c.createIndex name index columns unique
  | .dropIndex index => c.dropIndex name index

namespace Catalog

variable {c c' : Catalog} {m n : TableName}

/-- What a call answers: nothing, or an error. -/
def answer (x : Except CatalogError Catalog) : Except CatalogError Unit := x.map fun _ => ()

/-! ## Local calls -/

/-- In two catalogs a call is refused with the same error, or puts the same table under a name. -/
inductive SameEffect (c c' : Catalog) (n : TableName) :
    Except CatalogError Catalog → Except CatalogError Catalog → Prop where
  | refused (e : CatalogError) : SameEffect c c' n (.error e) (.error e)
  | placed {t : Option Table} (fits : Directory.Fits n.table t) :
      SameEffect c c' n (.ok (c.place n t)) (.ok (c'.place n t))

/-- A call does the same in all catalogs that agree on what stands under a name. -/
def Local (n : TableName) (call : Catalog → Except CatalogError Catalog) : Prop :=
  ∀ c c', c.standing? n = c'.standing? n → SameEffect c c' n (call c) (call c')

theorem local_modify {f : Table → Except CatalogError Table}
    (hf : ∀ t t', f t = .ok t' → t'.name = t.name) : Local n fun c => c.modify n f := by
  intro c c' h
  dsimp only [modify]
  rw [h]
  split
  next => exact .refused _
  next => exact .refused _
  next schema t hentry =>
    cases ht' : f t with
    | error e => exact .refused e
    | ok t' => exact .placed (fits_of_name_eq (fits_of_standing? hentry) (hf t t' ht'))

theorem local_createTable (columns : List Column) : Local n fun c => c.createTable n columns := by
  intro c c' h
  dsimp only
  rw [createTable_eq, createTable_eq, h]
  split
  next => exact .refused _
  next => exact .refused _
  next =>
    split
    next => exact .refused _
    next => exact .placed (Directory.fits_some.2 rfl)

theorem local_dropTable : Local n fun c => c.dropTable n := by
  intro c c' h
  dsimp only
  rw [dropTable_eq, dropTable_eq, h]
  split
  next => exact .refused _
  next => exact .refused _
  next => exact .placed Directory.fits_none

theorem local_createIndex (name : String) (columns : List String) (unique : Bool) :
    Local n fun c => c.createIndex n name columns unique := by
  intro c c' h
  dsimp only
  rw [createIndex_eq, createIndex_eq]
  split
  next => exact .refused _
  next => exact local_modify (fun _ _ ht => Table.name_of_addIndex ht) c c' h

theorem local_dropIndex (name : String) : Local n fun c => c.dropIndex n name := by
  intro c c' h
  dsimp only
  rw [dropIndex_eq, dropIndex_eq]
  exact local_modify (fun _ _ ht => Table.name_of_removeIndex ht) c c' h

theorem local_run (call : TableCall) : Local n fun c => call.run n c := by
  cases call with
  | createTable columns => exact local_createTable columns
  | dropTable => exact local_dropTable
  | createIndex name columns unique => exact local_createIndex name columns unique
  | dropIndex name => exact local_dropIndex name

/-! ## Two calls -/

/-- A local call leaves alone what stands under other names. -/
theorem Local.standing?_after {call : Catalog → Except CatalogError Catalog} (hcall : Local m call)
    (c : Catalog) (h : m.key ≠ n.key) : (c.after (call c)).standing? n = c.standing? n := by
  have heffect := hcall c c rfl
  generalize call c = x at heffect
  cases heffect with
  | refused e => rfl
  | placed fits => exact standing?_place_of_ne fits h

/-- Local calls under different names may be made in either order. -/
theorem Local.commute {f g : Catalog → Except CatalogError Catalog} (hf : Local m f)
    (hg : Local n g) (h : m.key ≠ n.key) (c : Catalog) :
    answer (f c) = answer (f (c.after (g c))) ∧ answer (g (c.after (f c))) = answer (g c) ∧
      (c.after (f c)).after (g (c.after (f c))) = (c.after (g c)).after (f (c.after (g c))) := by
  have hf' := hf c (c.after (g c)) (hg.standing?_after c h.symm).symm
  have hg' := hg c (c.after (f c)) (hf.standing?_after c h).symm
  -- Each call does the same alone and after the other one.
  generalize f (c.after (g c)) = second at hf'
  generalize g (c.after (f c)) = second' at hg'
  generalize f c = first at hf' hg'
  generalize g c = first' at hf' hg'
  cases hf' with
  | refused e =>
      cases hg' with
      | refused e' => exact ⟨rfl, rfl, rfl⟩
      | placed fits => exact ⟨rfl, rfl, rfl⟩
  | placed fits =>
      cases hg' with
      | refused e' => exact ⟨rfl, rfl, rfl⟩
      | placed fits' => exact ⟨rfl, rfl, place_comm fits fits' h⟩

/-- Calls that declare or drop different tables, or indexes of different tables, may be made in
either order: each is answered alike, and the same catalog is left. -/
theorem calls_commute (c : Catalog) {m n : TableName} (h : m.key ≠ n.key) (f g : TableCall) :
    let afterFirst := c.after (f.run m c)
    let afterSecond := c.after (g.run n c)
    answer (f.run m c) = answer (f.run m afterSecond) ∧
      answer (g.run n afterFirst) = answer (g.run n c) ∧
      afterFirst.after (g.run n afterFirst) = afterSecond.after (f.run m afterSecond) :=
  (local_run f).commute (local_run g) h c

end Catalog

/-- The index of `ledgerCatalog` is dropped and another table is declared, in either order. -/
theorem calls_commute_ledgerCatalog :
    let create : TableCall := .createTable [{ name := "x", type := .bigint }]
    let drop : TableCall := .dropIndex "BYNOTE"
    let afterCreate := ledgerCatalog.after (create.run ⟨"main", "u"⟩ ledgerCatalog)
    let afterDrop := ledgerCatalog.after (drop.run ⟨"Main", "T"⟩ ledgerCatalog)
    TableName.key ⟨"main", "u"⟩ ≠ TableName.key ⟨"Main", "T"⟩ ∧
      (create.run ⟨"main", "u"⟩ ledgerCatalog).isOk = true ∧
      (drop.run ⟨"Main", "T"⟩ ledgerCatalog).isOk = true ∧
      Catalog.answer (create.run ⟨"main", "u"⟩ afterDrop) =
        Catalog.answer (create.run ⟨"main", "u"⟩ ledgerCatalog) ∧
      Catalog.answer (drop.run ⟨"Main", "T"⟩ afterCreate) =
        Catalog.answer (drop.run ⟨"Main", "T"⟩ ledgerCatalog) ∧
      afterCreate.after (drop.run ⟨"Main", "T"⟩ afterCreate) =
        afterDrop.after (create.run ⟨"main", "u"⟩ afterDrop) := by
  intro create drop afterCreate afterDrop
  have hkey : TableName.key ⟨"main", "u"⟩ ≠ TableName.key ⟨"Main", "T"⟩ := by decide +kernel
  obtain ⟨hcreate, hdrop, hleft⟩ := ledgerCatalog.calls_commute hkey create drop
  exact ⟨hkey, by decide +kernel, by decide +kernel, hcreate.symm, hdrop, hleft⟩

end QueryPlanner

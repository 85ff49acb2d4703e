import FeatureCensus.Proofs.Relational.Insertion
import FeatureCensus.Results.Database

/-!
# Tables of results in a store

The tables of results as they are once they are made.  They have no rules but that values are there
and that rows differ in their keys, and what is given for a new row comes into its columns as it is.
So all their rows can be deleted, and contents with different keys can be added, unless a value is
kept out or is missing.

Main results:

- Theorem {lit}`Layout.takes_usages`: a place in a project comes into its row as it is; the other
  tables have the same theorem.
- Theorem {lit}`Layout.Filling.together_usages`: places of different keys or positions do not
  exclude each other.
- Theorem {lit}`Layout.deleteRows_eq_ok`: all rows are deleted from a table.
- Theorem {lit}`Layout.addRows_eq_ok`: contents are added behind those that are there.
- Theorems {lit}`Layout.addRows_of_obstacle` and {lit}`Layout.addRows_of_lacks`: why they are not.
-/

namespace FeatureCensus

open Relational Text

namespace Layout

/-- The shape of the table once its index is made. -/
def kept (layout : Layout) : Shape :=
  match layout.key? with
  | none => layout.shape
  | some (column, index) =>
    { layout.shape with
      uniques := layout.shape.uniques ++ [{ name := index, terms := keyOf [column] }]
      indexes := layout.shape.indexes ++ [keyOf [column]] }

theorem name_kept (layout : Layout) : layout.kept.name = layout.name := by
  unfold kept
  split <;> rfl

/-- The tables differ in their names, however these are written. -/
theorem names_differ :
    sameName counters.name usages.name = false ∧ sameName counters.name totals.name = false ∧
      sameName usages.name totals.name = false := by
  decide +kernel

/-- The columns in which rows have to differ, as the keys and the indexes name them. -/
theorem plainColumns?_kept :
    counters.kept.uniquesInOrder.map (·.plainColumns? counters.kept) = [some [(3, .binary)]] ∧
      usages.kept.uniquesInOrder.map (·.plainColumns? usages.kept) =
        [some [(0, .binary), (1, .binary)]] := by
  decide +kernel

theorem isPlain_totals : totals.kept.IsPlain [] where
  isKeyed := rfl
  isStrict := rfl
  checks := rfl
  generated := by decide
  uniques := rfl

theorem isPlain_counters : counters.kept.IsPlain [[(3, .binary)]] where
  isKeyed := rfl
  isStrict := rfl
  checks := rfl
  generated := by decide
  uniques := plainColumns?_kept.1

theorem isPlain_usages : usages.kept.IsPlain [[(0, .binary), (1, .binary)]] where
  isKeyed := rfl
  isStrict := rfl
  checks := rfl
  generated := by decide
  uniques := plainColumns?_kept.2

/-- Columns of the totals are found among names that are written out, which makes long names easy
to compare. -/
theorem columnIndex?_totals : totals.kept.columnIndex? = fun name =>
    ["id", "updated", "repositories_analyzed", "files_analyzed", "lines_analyzed"].findIdx?
      fun column => sameName column name := rfl

/-- The places of the columns for which rows give values. -/
theorem columnIndex?_columns :
    totals.columns.map totals.kept.columnIndex? = [1, 2, 3, 4].map some ∧
      counters.columns.map counters.kept.columnIndex? = [1, 2, 3, 4, 5, 6].map some ∧
      usages.columns.map usages.kept.columnIndex? = [0, 1, 2, 3, 4].map some := by
  rw [columnIndex?_totals]
  decide +kernel

theorem places_totals : insertedColumns totals.kept totals.name totals.columns =
    .ok ([1, 2, 3, 4].map some) :=
  insertedColumns_eq_ok isPlain_totals _ (by decide) columnIndex?_columns.1

theorem places_counters : insertedColumns counters.kept counters.name counters.columns =
    .ok ([1, 2, 3, 4, 5, 6].map some) :=
  insertedColumns_eq_ok isPlain_counters _ (by decide) columnIndex?_columns.2.1

theorem places_usages : insertedColumns usages.kept usages.name usages.columns =
    .ok ([0, 1, 2, 3, 4].map some) :=
  insertedColumns_eq_ok isPlain_usages _ (by decide) columnIndex?_columns.2.2

/-- What the declared types of the columns make of values. -/
theorem ofType_folded : Affinity.ofType (Parser.folded "INTEGER") = .integer ∧
    Affinity.ofType (Parser.folded "VARCHAR(255)") = .text := by
  decide +kernel

theorem affinityOf_integerColumn {shape : Shape} (h : shape.isStrict = false) (name : String) :
    shape.affinityOf (integerColumn name) = .integer := by
  simp [Shape.affinityOf, Column.affinity, h, integerColumn, ofType_folded.1]

theorem affinityOf_textColumn {shape : Shape} (h : shape.isStrict = false) (name : String) :
    shape.affinityOf (textColumn name) = .text := by
  simp [Shape.affinityOf, Column.affinity, h, textColumn, optionalColumn, ofType_folded.2]

theorem affinityOf_optionalColumn {shape : Shape} (h : shape.isStrict = false) (name : String) :
    shape.affinityOf (optionalColumn name) = .text := by
  simp [Shape.affinityOf, Column.affinity, h, optionalColumn, ofType_folded.2]

theorem takes_totals (row : TotalsRow) :
    totals.kept.Takes (([1, 2, 3, 4].map some).zip (updated :: row.values))
      fun n => .integer n :: updated :: row.values := by
  have hsettled : ∀ number value, totals.kept.settled number (value :: updated :: row.values) =
      .integer number :: updated :: row.values := by
    intro number value
    simp [Shape.settled, kept, totals, affinityOf_integerColumn, TotalsRow.values, updated,
      Affinity.convert, Affinity.wholeOf]
  exact {
    new := ⟨.null :: updated :: row.values, fun _ => rfl, fun number => hsettled number _⟩
    settled := fun number => hsettled number _
    filled := fun _ _ => rfl }

theorem takes_counters (row : CounterRow) :
    counters.kept.Takes (([1, 2, 3, 4, 5, 6].map some).zip (updated :: row.values))
      fun n => .integer n :: updated :: row.values := by
  have hsettled : ∀ number value, counters.kept.settled number (value :: updated :: row.values) =
      .integer number :: updated :: row.values := by
    intro number value
    simp [Shape.settled, kept, counters, affinityOf_integerColumn, affinityOf_textColumn,
      CounterRow.values, updated, Affinity.convert, Affinity.wholeOf]
  exact {
    new := ⟨.null :: updated :: row.values, fun _ => rfl, fun number => hsettled number _⟩
    settled := fun number => hsettled number _
    filled := fun _ _ => rfl }

theorem forms_usages (row : UsageRow) :
    usages.kept.Forms (([0, 1, 2, 3, 4].map some).zip row.values) fun _ => row.values := by
  have hsettled : ∀ number, usages.kept.settled number row.values = row.values := by
    intro number
    obtain ⟨key, position, _ | project, _ | path, line⟩ := row <;>
    simp [Shape.settled, kept, usages, affinityOf_integerColumn, affinityOf_textColumn,
      affinityOf_optionalColumn, UsageRow.values, textValue, Affinity.convert, Affinity.wholeOf]
  exact {
    new := ⟨row.values, fun _ => rfl, hsettled⟩
    settled := hsettled }

theorem takes_usages {row : UsageRow} (h : row.project?.isSome) :
    usages.kept.Takes (([0, 1, 2, 3, 4].map some).zip row.values) fun _ => row.values where
  toForms := forms_usages row
  filled _ _ := by
    obtain ⟨key, position, _ | project, path?, line⟩ := row
    · cases h
    · rfl

theorem lacks_usages {row : UsageRow} (h : ¬ row.project?.isSome) :
    usages.kept.Lacks (([0, 1, 2, 3, 4].map some).zip row.values) (fun _ => row.values)
      (.missingValue "feature_usage" "project") where
  toForms := forms_usages row
  unfilled _ _ := by
    obtain ⟨key, position, _ | project, path?, line⟩ := row
    · rfl
    · exact absurd rfl h

/-! ## Contents of tables -/

/-- Contents of some sort as rows of a table: the values that are given for each of them, and the
values of its row, one of which may be the number of the row. -/
structure Filling (ρ : Type) where
  layout : Layout
  /-- The columns in which rows have to differ. -/
  keys : List (List (Nat × Collation))
  /-- The places of the given values. -/
  places : List (Option Nat)
  given : ρ → List Value
  full : Int → ρ → List Value
  /-- That all values are there that have to be. -/
  IsWhole : ρ → Prop
  isPlain : layout.kept.IsPlain keys
  insertedColumns : Relational.insertedColumns layout.kept layout.name layout.columns = .ok places
  length_given : ∀ x, (given x).length = places.length
  /-- Why contents are refused that are not whole. -/
  refusal : Refusal
  takes : ∀ x, IsWhole x → layout.kept.Takes (places.zip (given x)) fun n => full n x
  lacks : ∀ x, ¬ IsWhole x → layout.kept.Lacks (places.zip (given x)) (fun n => full n x) refusal

namespace Filling

/-- The totals as rows. -/
def totals : Filling TotalsRow where
  layout := Layout.totals
  keys := []
  places := [1, 2, 3, 4].map some
  given row := updated :: row.values
  full n row := .integer n :: updated :: row.values
  IsWhole _ := True
  isPlain := isPlain_totals
  insertedColumns := places_totals
  length_given _ := rfl
  refusal := default
  takes row _ := takes_totals row
  lacks _ h := absurd trivial h

/-- The counters as rows, which have to differ in their keys. -/
def counters : Filling CounterRow where
  layout := Layout.counters
  keys := [[(3, .binary)]]
  places := [1, 2, 3, 4, 5, 6].map some
  given row := updated :: row.values
  full n row := .integer n :: updated :: row.values
  IsWhole _ := True
  isPlain := isPlain_counters
  insertedColumns := places_counters
  length_given _ := rfl
  refusal := default
  takes row _ := takes_counters row
  lacks _ h := absurd trivial h

/-- The places of occurrences as rows, which have to differ in their keys or positions. -/
def usages : Filling UsageRow where
  layout := Layout.usages
  keys := [[(0, .binary), (1, .binary)]]
  places := [0, 1, 2, 3, 4].map some
  given row := row.values
  full _ row := row.values
  IsWhole row := row.project?.isSome
  isPlain := isPlain_usages
  insertedColumns := places_usages
  length_given _ := rfl
  refusal := .missingValue "feature_usage" "project"
  takes _ h := takes_usages h
  lacks _ h := lacks_usages h

variable {ρ : Type}

/-- The table of some contents, which were added one after the other. -/
def table (filling : Filling ρ) (contents : List ρ) : Table :=
  ⟨filling.layout.kept, .ok (numbered filling.full contents)⟩

/-- That contents can be in the table together. -/
def Together (filling : Filling ρ) : ρ → ρ → Prop :=
  Apart filling.keys filling.full

/-- Counters with different keys can be in their table together. -/
theorem together_counters {x y : CounterRow} (h : x.key ≠ y.key) : counters.Together x y := by
  have hne : (y.key == x.key) = false := by simpa using h.symm
  intro columns hcolumns m n
  obtain rfl := List.mem_singleton.1 hcolumns
  simp [agree, counters, CounterRow.values, Value.same, hne]

/-- Places of different keys or positions can be in their table together. -/
theorem together_usages {x y : UsageRow} (h : x.key ≠ y.key ∨ x.position ≠ y.position) :
    usages.Together x y := by
  intro columns hcolumns m n
  obtain rfl := List.mem_singleton.1 hcolumns
  simp only [agree, usages, UsageRow.values, Value.same, List.all_cons, List.all_nil,
    List.getElem?_cons_zero, List.getElem?_cons_succ, Bool.and_true]
  rcases h with hkey | hposition
  · have hne : (y.key == x.key) = false := by simpa using hkey.symm
    simp [hne]
  · have hne : ((y.position : Int) == (x.position : Int)) = false := by
      simpa using fun heq => hposition (Int.ofNat_inj.1 heq).symm
    simp [hne]

end Filling

/-! ## Changes of tables -/

theorem after_eq_ok {statement : Statement} {store changed : Store}
    (h : statement.run.run store = .ok () changed) : store.after statement = .ok changed := by
  rw [Store.after, h]

theorem after_of_refused {statement : Statement} {store changed : Store} {refusal : Refusal}
    (h : statement.run.run store = .error (.refused refusal) changed) :
    store.after statement = refuse refusal := by
  rw [Store.after, h]

/-- All rows are deleted from a table. -/
theorem deleteRows_eq_ok {layout : Layout} {store : Store} {rows : Array Row}
    (hrows : store.table? layout.name = some ⟨layout.kept, .ok rows⟩)
    (h : store.IsUntriggered layout.name) :
    ∃ changed, layout.deleteRows store = .ok changed ∧
      Store.Refills layout.kept #[] store changed := by
  rw [← name_kept] at hrows h
  obtain ⟨changed, hrun, hrefills⟩ := run_deletion hrows h
  refine ⟨changed, ?_, hrefills⟩
  rw [deleteRows, runChecked, ← name_kept, check_deletion hrows h, after_eq_ok hrun]
  rfl

section Adding

variable {ρ : Type} (filling : Filling ρ) {store : Store} {before more : List ρ} {strays : Strays}
  (hbefore : store.table? filling.layout.name = some (filling.table before))
  (h : store.IsUntriggered filling.layout.name)

include hbefore h

theorem check_insertion_eq_ok (hmore : more ≠ []) :
    store.check (filling.layout.insertion (more.map filling.given)) = .ok () := by
  have hplaces := filling.insertedColumns
  rw [← name_kept] at hbefore h hplaces
  cases more with
  | nil => exact absurd rfl hmore
  | cons first rest =>
    rw [insertion, ← name_kept, List.map_cons]
    exact check_insertion hbefore h hplaces (filling.length_given first)

/-- Contents of which a value is kept out are not added. -/
theorem addRows_of_obstacle (hmore : more ≠ []) {error : DatabaseError}
    (hobstacle : obstacle? strays (more.map filling.given) = some error) :
    filling.layout.addRows strays (more.map filling.given) store = .error error := by
  rw [addRows, check_insertion_eq_ok filling hbefore h hmore, hobstacle]
  rfl

/-- Contents are added to a table behind those that are there. -/
theorem addRows_eq_ok (hmore : more ≠ [])
    (hobstacle : obstacle? strays (more.map filling.given) = none)
    (hwhole : ∀ x ∈ more, filling.IsWhole x)
    (htogether : (before ++ more).Pairwise filling.Together) :
    ∃ changed, filling.layout.addRows strays (more.map filling.given) store = .ok changed ∧
      Store.Refills filling.layout.kept (numbered filling.full (before ++ more)) store changed := by
  have hcheck := check_insertion_eq_ok filling hbefore h hmore
  have hplaces := filling.insertedColumns
  rw [← name_kept] at hbefore h hplaces
  obtain ⟨changed, hrun, hrefills⟩ := run_insertion filling.isPlain h hbefore hplaces
    (fun x hx => filling.takes x (hwhole x hx)) htogether
  refine ⟨changed, ?_, hrefills⟩
  rw [addRows, hcheck, hobstacle]
  change DatabaseError.ofResult (store.after (filling.layout.insertion _)) = _
  rw [insertion, ← name_kept, after_eq_ok hrun]
  rfl

/-- Contents of which one is not whole are not added. -/
theorem addRows_of_lacks (hmore : more ≠ [])
    (hobstacle : obstacle? strays (more.map filling.given) = none)
    (hlacks : ∃ x ∈ more, ¬ filling.IsWhole x)
    (htogether : (before ++ more).Pairwise filling.Together) :
    filling.layout.addRows strays (more.map filling.given) store =
      .error (.relational filling.refusal) := by
  have hcheck := check_insertion_eq_ok filling hbefore h hmore
  have hplaces := filling.insertedColumns
  rw [← name_kept] at hbefore h hplaces
  have heach : ∀ x ∈ more,
      filling.layout.kept.Takes (filling.places.zip (filling.given x)) (filling.full · x) ∨
        filling.layout.kept.Lacks (filling.places.zip (filling.given x)) (filling.full · x)
          filling.refusal := by
    intro x _
    by_cases hwhole : filling.IsWhole x
    · exact .inl (filling.takes x hwhole)
    · exact .inr (filling.lacks x hwhole)
  obtain ⟨x, hx, hpart⟩ := hlacks
  obtain ⟨changed, hrun⟩ := run_insertion_of_lacks filling.isPlain h hbefore hplaces heach
    ⟨x, hx, filling.lacks x hpart⟩ htogether
  rw [addRows, hcheck, hobstacle]
  change DatabaseError.ofResult (store.after (filling.layout.insertion _)) = _
  rw [insertion, ← name_kept, after_of_refused hrun]
  rfl

end Adding

end Layout
end FeatureCensus

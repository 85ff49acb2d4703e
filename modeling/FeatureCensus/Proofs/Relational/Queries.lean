import FeatureCensus.Proofs.Relational.Insertion

/-!
# Queries on one table

What queries find in a table: its rows in some columns, and in the order of a column the rows as
they are, where they are in this order already and no index arranges them.  Of rows that are
numbered from one the contents are found.

Main results:

- Theorem {lit}`Relational.select_none`: rows are found as they are.
- Theorem {lit}`Relational.select_some`: rows that are in order are found as they are.
- Theorem {lit}`Relational.count_eq_ok`: rows with a value are counted.
- Theorem {lit}`Relational.map_rows_numbered`: what is found of numbered rows.
-/

namespace FeatureCensus
namespace Relational

variable {shape : Shape} {rows : Array Row} {s : Store}

/-! ## Columns -/

/-- That columns of a table are read so. -/
def Shape.AreRead (shape : Shape) (columns : List String) (readers : List Reader) : Prop :=
  columns.map (shape.relation #[]).reader? = readers.map some

instance (shape : Shape) (columns : List String) (readers : List Reader) :
    Decidable (shape.AreRead columns readers) :=
  inferInstanceAs (Decidable (_ = _))

/-- Columns are read at their places. -/
theorem areRead_of_places {columns : List String} {places : List Nat} {readers : List Reader}
    (hplaces : columns.map shape.columnIndex? = places.map some)
    (hreaders : places.map (fun i => (shape.heading[i]?).map fun heading =>
      Reader.mk heading.affinity? heading.collation (some i)) = readers.map some) :
    shape.AreRead columns readers := by
  have hindex : ∀ name, (shape.relation #[]).columnIndex? name = shape.columnIndex? name := by
    intro name
    simp [Relation.columnIndex?, Shape.relation, Shape.heading, Shape.columnIndex?,
      List.findIdx?_map, Function.comp_def]
  rw [Shape.AreRead, ← hreaders]
  clear hreaders
  induction columns generalizing places with
  | nil =>
    obtain rfl : places = [] := by simpa using hplaces.symm
    rfl
  | cons column rest ih =>
    cases places with
    | nil => simp at hplaces
    | cons place others =>
      simp only [List.map_cons, List.cons.injEq] at hplaces
      obtain ⟨hplace, hrest⟩ := hplaces
      rw [List.map_cons, List.map_cons, ih hrest, Relation.reader?, hindex, hplace]
      rfl

theorem readers_eq_ok (hrows : s.table? shape.name = some ⟨shape, .ok rows⟩)
    {columns : List String} {readers : List Reader} (h : shape.AreRead columns readers)
    (shown : String → String) : s.readers shape.name shown columns = .ok readers := by
  have houtline : s.outline shape.name = .ok (shape.relation #[]) := checkTable_eq_ok hrows 399 _
  rw [Store.readers, houtline]
  unfold Shape.AreRead at h
  change columns.mapM _ = _
  induction columns generalizing readers with
  | nil =>
    obtain rfl : readers = [] := by simpa using h.symm
    rfl
  | cons column rest ih =>
    cases readers with
    | nil => simp at h
    | cons reader others =>
      simp only [List.map_cons, List.cons.injEq] at h
      obtain ⟨hreader, hrest⟩ := h
      rw [List.mapM_cons, ih hrest, hreader]
      rfl

theorem relation_eq_ok (hrows : s.table? shape.name = some ⟨shape, .ok rows⟩) :
    s.relation shape.name = .ok (shape.relation rows) := by
  have hdepth : depthLimit = 399 + 1 := rfl
  rw [Store.relation, hdepth, relationOf, hrows]
  rfl

/-! ## Orders -/

/-- Rows that no index arranges stay as they are. -/
theorem arrange_none {places : List Nat} (h : shape.indexOf? places = none)
    (rows : List NumberedRow) : shape.arrange places none rows = rows := by
  rw [Shape.arrange]
  simp only [h]

/-- Rows that are in the order of a column stay as they are, where no index arranges them. -/
theorem arrange_some {places : List Nat} {reader : Reader}
    (hfor : shape.indexFor? reader (places ++ reader.place?.toList) = none)
    (hof : shape.indexOf? (places ++ reader.place?.toList) = none) {rows : List NumberedRow}
    (hrows : rows.Pairwise fun a b =>
      (Value.order reader.collation (reader.value a) (reader.value b) != .gt) = true) :
    shape.arrange places (some reader) rows = rows := by
  rw [Shape.arrange]
  simp only [hfor, hof]
  exact List.mergeSort_of_pairwise hrows

/-! ## Selections -/

/-- Without an order the rows come as they are, where no index arranges them. -/
theorem select_none (hrows : s.table? shape.name = some ⟨shape, .ok rows⟩)
    {columns : List String} (readers : List Reader) (h : shape.AreRead columns readers)
    (shown : String → String) (hof : shape.indexOf? (readers.filterMap Reader.place?) = none) :
    s.select shape.name shown columns none =
      .ok ((shape.relation rows).rows.map fun row =>
        readers.map fun reader => reader.value row) := by
  have hnone : shape.AreRead [] [] := rfl
  rw [Store.select, readers_eq_ok hrows h, Option.toList_none, readers_eq_ok hrows hnone, hrows]
  simp only [relation_eq_ok hrows]
  rw [← arrange_none hof (shape.relation rows).rows]
  rfl

/-- In an order that the rows have they come as they are, where no index arranges them. -/
theorem select_some (hrows : s.table? shape.name = some ⟨shape, .ok rows⟩)
    {columns : List String} (readers : List Reader) (h : shape.AreRead columns readers)
    (shown : String → String) {term : String} (reader : Reader)
    (hterm : shape.AreRead [term] [reader])
    (hfor : shape.indexFor? reader (readers.filterMap Reader.place? ++ reader.place?.toList) = none)
    (hof : shape.indexOf? (readers.filterMap Reader.place? ++ reader.place?.toList) = none)
    (hsorted : (shape.relation rows).rows.Pairwise fun a b =>
      (Value.order reader.collation (reader.value a) (reader.value b) != .gt) = true) :
    s.select shape.name shown columns (some term) =
      .ok ((shape.relation rows).rows.map fun row =>
        readers.map fun reader => reader.value row) := by
  rw [Store.select, readers_eq_ok hrows h, Option.toList_some, readers_eq_ok hrows hterm, hrows]
  simp only [relation_eq_ok hrows]
  conv_rhs => rw [← arrange_some hfor hof hsorted]
  rfl

/-- The rows that have a value are counted. -/
theorem count_eq_ok (hrows : s.table? shape.name = some ⟨shape, .ok rows⟩)
    {column : String} (reader : Reader) (h : shape.AreRead [column] [reader])
    (shown : String → String) (value : Value) :
    s.count shape.name shown column value =
      .ok ((shape.relation rows).rows.countP (Store.holds reader value)) := by
  rw [Store.count, readers_eq_ok hrows h, relation_eq_ok hrows]
  simp [bind, Except.bind, pure, Except.pure]

/-! ## Numbered rows -/

section Numbered

variable {ρ : Type} {full : Int → ρ → List Value}

theorem rows_numbered (shape : Shape) (contents : List ρ) :
    (shape.relation (numbered full contents)).rows =
      (contents.zipIdx 1).map fun (x, n) => (some (n : Int), full n x) := by
  simp [Shape.relation, numbered, Function.comp_def]

/-- What does not depend on the numbers of rows is found from their contents. -/
theorem map_rows_numbered (shape : Shape) {β : Type} {f : NumberedRow → β} {g : ρ → β}
    (h : ∀ n x, f (some n, full n x) = g x) (contents : List ρ) :
    (shape.relation (numbered full contents)).rows.map f = contents.map g := by
  conv_rhs => rw [← List.zipIdx_map_fst 1 contents, List.map_map]
  simp [rows_numbered, h, Function.comp_def]

theorem countP_rows_numbered (shape : Shape) {p : NumberedRow → Bool} {q : ρ → Bool}
    (h : ∀ n x, p (some n, full n x) = q x) (contents : List ρ) :
    (shape.relation (numbered full contents)).rows.countP p = contents.countP q := by
  have hmap := map_rows_numbered shape h contents
  have hcount := congrArg (List.countP id) hmap
  simpa only [List.countP_map, Function.id_comp] using hcount

/-- Rows are in an order in which their contents are, where smaller numbers come first. -/
theorem pairwise_rows_numbered (shape : Shape) {R : NumberedRow → NumberedRow → Prop}
    {S : ρ → ρ → Prop} (h : ∀ m n x y, m < n → S x y → R (some m, full m x) (some n, full n y))
    {contents : List ρ}
    (hcontents : contents.Pairwise S) :
    (shape.relation (numbered full contents)).rows.Pairwise R := by
  rw [rows_numbered, List.pairwise_iff_getElem]
  intro i j hi hj hij
  simp only [List.length_map, List.length_zipIdx] at hi hj
  simp only [List.getElem_map, List.getElem_zipIdx]
  exact h _ _ _ _ (by omega) (List.pairwise_iff_getElem.1 hcontents i j hi hj hij)

end Numbered

end Relational
end FeatureCensus

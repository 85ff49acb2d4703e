import FeatureCensus.Proofs.Relational.Queries
import FeatureCensus.Proofs.Results.Replacing

/-!
# Answers of stored results

A store whose tables hold some rows of results answers as a database of our own with these rows
does: the same numbers of occurrences in the same order, the same numbers of places, and the same
rows.

Main results:

- Theorem {lit}`order_text_eq_eq`: texts are equal in their order if they are the same.
- Theorem {lit}`holds_textReader`: a key is looked for where it is.
- Theorem {lit}`foldlM_put_eq_ok`: counters with different keys are all read.
- Theorems {lit}`Database.featureCounts_foreign`, {lit}`Database.usageCount_foreign` and
  {lit}`Database.dump_foreign`: the three queries.
-/

namespace FeatureCensus

open Relational

/-! ## Comparisons of texts -/

theorem orderOfCodes_eq_eq {as bs : List Nat} :
    Collation.orderOfCodes as bs = .eq ↔ as = bs := by
  induction as generalizing bs with
  | nil => cases bs <;> simp [Collation.orderOfCodes]
  | cons a rest ih =>
    cases bs with
    | nil => simp [Collation.orderOfCodes]
    | cons b others => simp [Collation.orderOfCodes, Ordering.then_eq_eq, ih]

/-- Two texts are equal in their plain order if they are the same. -/
theorem order_text_eq_eq {s t : String} :
    Value.order .binary (.text s) (.text t) = .eq ↔ s = t := by
  have hcodes : Function.Injective Char.toNat := fun a b h => Char.toNat_inj.1 h
  have horder : Value.order .binary (.text s) (.text t) =
      Collation.orderOfCodes (s.toList.map Char.toNat) (t.toList.map Char.toNat) := rfl
  rw [horder, orderOfCodes_eq_eq, List.map_inj_right fun _ _ h => hcodes h]
  exact String.toList_inj

/-! ## Readers -/

/-- How a column of integers is read. -/
def integerReader (place : Nat) : Reader :=
  ⟨some .integer, .binary, some place⟩

/-- How a column of texts is read. -/
def textReader (place : Nat) : Reader :=
  ⟨some .text, .binary, some place⟩

/-- How the numbers of rows are read. -/
def numberReader : Reader :=
  ⟨some .integer, .binary, none⟩

/-- Rows with rising integers are in the order of their column. -/
theorem order_ne_gt_of_le {reader : Reader} {a b : NumberedRow} {m n : Int}
    (ha : reader.value a = .integer m) (hb : reader.value b = .integer n) (h : m ≤ n) :
    (Value.order reader.collation (reader.value a) (reader.value b) != .gt) = true := by
  have hle : compare m n ≠ .gt := Int.compare_ne_gt.2 h
  rw [ha, hb]
  simpa [Value.order, Value.rank, Value.orderOfNumbers] using hle

/-- A text that may be missing is looked for where it is. -/
theorem holds_textReader {place : Nat} {number? : Option Int} {values : List Value} {text : String}
    (h : values[place]? = some (.text text)) (wanted? : Option String) :
    Store.holds (textReader place) (textValue wanted?) (number?, values) =
      (some text == wanted?) := by
  have hvalue : (textReader place).value (number?, values) = .text text := by
    simp [Reader.value, textReader, h]
  cases wanted? with
  | none => simp [Store.holds, hvalue, textValue]
  | some wanted =>
    have horder : Operand.order .binary ⟨.text text, some .text⟩ ⟨.text wanted, none⟩ =
        Value.order .binary (.text text) (.text wanted) := rfl
    rw [Store.holds, hvalue]
    by_cases heq : text = wanted
    · have hsame := order_text_eq_eq.2 heq
      subst heq
      simp [textValue, Comparison.value, textReader, horder, hsame, Comparison.holds]
    · have hother : Value.order .binary (.text text) (.text wanted) ≠ .eq :=
        fun hsame => heq (order_text_eq_eq.1 hsame)
      simp [textValue, Comparison.value, textReader, horder, hother, Comparison.holds, heq,
        Value.ofBool]

/-- Whether a value is a text that stands for no characters. -/
def isBroken : Value → Bool
  | .brokenText _ => true
  | _ => false

@[simp]
theorem isBroken_integer (n : Int) : isBroken (.integer n) = false := rfl

@[simp]
theorem isBroken_text (text : String) : isBroken (.text text) = false := rfl

@[simp]
theorem isBroken_textValue (text? : Option String) : isBroken (textValue text?) = false := by
  cases text? <;> rfl

/-- Values that are no broken texts can be shown. -/
theorem checkShown_eq_ok {values : List Value} (h : ∀ value ∈ values, isBroken value = false)
    (columns : List String) : checkShown columns values = .ok () := by
  induction values generalizing columns with
  | nil => exact checkShown_nil columns
  | cons value rest ih =>
    have hrest := ih fun other hother => h other (List.mem_cons_of_mem value hother)
    cases columns with
    | nil => rfl
    | cons column others =>
      cases value with
      | brokenText bytes => cases h _ List.mem_cons_self
      | _ => exact hrest others

/-! ## Counters -/

/-- A key that is not there is added at the end. -/
theorem put_eq_concat {κ α : Type} [BEq κ] [LawfulBEq κ] {key : κ} {entries : List (κ × α)}
    (h : ∀ entry ∈ entries, entry.1 ≠ key) (value : α) :
    Association.put key value entries = entries ++ [(key, value)] := by
  induction entries with
  | nil => rfl
  | cons entry rest ih =>
    obtain ⟨other, old⟩ := entry
    have hne : (key == other) = false := by
      simpa using (h (other, old) List.mem_cons_self).symm
    rw [Association.put, hne]
    simp [ih fun entry hentry => h entry (List.mem_cons_of_mem _ hentry)]

namespace Database

open Layout

variable {t : Tables} {store : Store}

/-- What is read of counters with different keys is put together in their order. -/
theorem foldlM_put_eq_ok {f : List (Option String × Value) → List Value →
      Except DatabaseError (List (Option String × Value))}
    (hf : ∀ (counts : List (Option String × Value)) (row : CounterRow),
      f counts [.text row.key, .integer row.occurrences] =
        .ok (Association.put (some row.key) (.integer row.occurrences) counts))
    {counters : List CounterRow} (hkeys : counters.Pairwise fun x y => x.key ≠ y.key)
    {counts : List (Option String × Value)}
    (hnew : ∀ entry ∈ counts, ∀ row ∈ counters, entry.1 ≠ some row.key) :
    (counters.map fun row => [Value.text row.key, .integer row.occurrences]).foldlM f counts =
      .ok (counts ++ counters.map fun row => (some row.key, .integer row.occurrences)) := by
  induction counters generalizing counts with
  | nil => simp; rfl
  | cons row rest ih =>
    obtain ⟨hrow, hrest⟩ := List.pairwise_cons.1 hkeys
    have hput := put_eq_concat (fun entry hentry => hnew entry hentry row List.mem_cons_self)
      (Value.integer row.occurrences)
    have hlater : ∀ entry ∈ counts ++ [(some row.key, Value.integer row.occurrences)],
        ∀ other ∈ rest, entry.1 ≠ some other.key := by
      intro entry hentry other hother
      rcases List.mem_append.1 hentry with hold | hadded
      · exact hnew entry hold other (List.mem_cons_of_mem row hother)
      · rw [List.mem_singleton.1 hadded]
        exact fun heq => hrow other hother (Option.some.inj heq)
    rw [List.map_cons, List.foldlM_cons, hf, hput]
    refine (ih hrest hlater).trans ?_
    rw [List.append_assoc]
    rfl

/-- The rows of counters are in the order of their positions. -/
theorem pairwise_positions {rows : List CounterRow}
    (h : rows.Pairwise fun x y => x.position ≤ y.position) :
    (counters.kept.relation (numbered Filling.counters.full rows)).rows.Pairwise fun a b =>
      (Value.order (integerReader 2).collation ((integerReader 2).value a)
        ((integerReader 2).value b) != .gt) = true :=
  pairwise_rows_numbered _ (fun _ _ _ _ _ hxy => order_ne_gt_of_le rfl rfl (Int.ofNat_le.2 hxy)) h

/-- The numbers of occurrences are read in the order of the counters. -/
theorem featureCounts_foreign (h : t.AreIn store)
    (hkeys : t.counters.Pairwise fun x y => x.key ≠ y.key)
    (hordered : t.counters.Pairwise fun x y => x.position ≤ y.position) :
    (foreign store).featureCounts = (own t).featureCounts := by
  have hselect : store.select counters.name qualified ["feature_key", "occurrence_count"]
      (some "position") =
        .ok (t.counters.map fun row => [.text row.key, .integer row.occurrences]) := by
    have hfound := h.counters
    rw [← name_kept] at hfound ⊢
    rw [select_some hfound [textReader 3, integerReader 5] (by decide +kernel) qualified
      (integerReader 2) (by decide +kernel) (by decide +kernel) (by decide +kernel)
      (pairwise_positions hordered)]
    rw [map_rows_numbered]
    intro n x
    rfl
  rw [featureCounts, featureCounts]
  simp only [hselect]
  exact foldlM_put_eq_ok (fun counts row => rfl) hkeys (by simp)

/-- The stored places of a feature are counted. -/
theorem usageCount_foreign (h : t.AreIn store) (key? : Option String) :
    (foreign store).usageCount key? = (own t).usageCount key? := by
  have hcount : store.count usages.name qualified "feature_key" (textValue key?) =
      .ok (t.usages.countP fun row => some row.key == key?) := by
    have hfound := h.usages
    rw [← name_kept] at hfound ⊢
    rw [count_eq_ok hfound (textReader 0) (by decide +kernel) qualified,
      countP_rows_numbered _ fun n x => holds_textReader rfl key?]
  rw [usageCount, usageCount]
  simp only [hcount]
  rfl

/-! ## All rows -/

/-- The rows of a table are shown as they are. -/
theorem listRows_eq_ok {layout : Layout} {columns : List String} {order? : Option String}
    {rows : List (List Value)} (hselect : store.select layout.name id columns order? = .ok rows)
    (hshown : ∀ row ∈ rows, ∀ value ∈ row, isBroken value = false) :
    layout.listRows columns order? store = .ok rows := by
  have hforM : rows.forM (checkShown columns) = .ok () :=
    forM_eq_ok fun row hrow => checkShown_eq_ok (hshown row hrow) columns
  rw [listRows, hselect]
  change (DatabaseError.ofResult (rows.forM (checkShown columns)) >>= _) = _
  rw [hforM]
  rfl

/-- All rows of all tables are found as they were added. -/
theorem dump_foreign (h : t.AreIn store)
    (hordered : t.counters.Pairwise fun x y => x.position ≤ y.position) :
    (foreign store).dump = (own t).dump := by
  have htotals : totals.listRows (totals.columns.drop 1) none store =
      .ok (t.totals.map TotalsRow.values) := by
    have hfound := h.totals
    have hplaces : (totals.columns.drop 1).map totals.kept.columnIndex? = [2, 3, 4].map some := by
      rw [List.map_drop, columnIndex?_columns.1]
      rfl
    refine listRows_eq_ok ?_ ?_
    · rw [← name_kept] at hfound ⊢
      rw [select_none hfound [integerReader 2, integerReader 3, integerReader 4]
        (areRead_of_places hplaces (by decide +kernel)) id (by decide +kernel)]
      rw [map_rows_numbered]
      intro n x
      rfl
    · simp [TotalsRow.values]
  have hcounters : counters.listRows (counters.columns.drop 1) (some "position") store =
      .ok (t.counters.map CounterRow.values) := by
    have hfound := h.counters
    refine listRows_eq_ok ?_ ?_
    · rw [← name_kept] at hfound ⊢
      rw [select_some hfound
        [integerReader 2, textReader 3, textReader 4, integerReader 5, integerReader 6]
        (by decide +kernel) id (integerReader 2) (by decide +kernel) (by decide +kernel)
        (by decide +kernel) (pairwise_positions hordered)]
      rw [map_rows_numbered]
      intro n x
      rfl
    · simp [CounterRow.values]
  have husages : usages.listRows usages.columns (some "rowid") store =
      .ok (t.usages.map UsageRow.values) := by
    have hfound := h.usages
    have hsorted : (usages.kept.relation (numbered Filling.usages.full t.usages)).rows.Pairwise
        fun a b => (Value.order numberReader.collation (numberReader.value a)
          (numberReader.value b) != .gt) = true :=
      pairwise_rows_numbered _ (S := fun _ _ => True)
        (fun _ _ _ _ hmn _ => order_ne_gt_of_le rfl rfl (Int.le_of_lt hmn))
        (List.pairwise_iff_getElem.2 fun _ _ _ _ _ => trivial)
    refine listRows_eq_ok ?_ ?_
    · rw [← name_kept] at hfound ⊢
      rw [select_some hfound
        [textReader 0, integerReader 1, textReader 2, textReader 3, integerReader 4]
        (by decide +kernel) id numberReader (by decide +kernel) (by decide +kernel)
        (by decide +kernel) hsorted]
      rw [map_rows_numbered]
      intro n x
      rfl
    · simp [UsageRow.values]
  rw [dump, dump]
  simp only [htotals, hcounters, husages]
  rfl

end Database
end FeatureCensus

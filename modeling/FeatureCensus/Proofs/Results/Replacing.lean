import FeatureCensus.Proofs.Results.Layouts
import FeatureCensus.Results.Database

/-!
# Replacing results

A session is saved in steps: all tables are emptied, and then the totals and the counters are
added, each counter with its places in batches.  Every step keeps that the tables hold what was
added so far and nothing else, unless something keeps its rows out.  So in the end they hold the
rows of the session, whatever they held before, or the first obstacle is told: the steps do what a
database of our own does at once.

Main results:

- Theorem {lit}`ne_nil_of_mem_batches`: no batch is empty.
- Theorem {lit}`Tables.AreIn.addBatches`: places are added in batches as they are at once.
- Theorem {lit}`Tables.AreIn.addCounters`: counters are added with their places.
- Theorem {lit}`Layout.deleteAll_eq_ok`: tables are emptied, and others are left alone.
- Theorem {lit}`Layout.goIn_save`: saving leaves the rows of the session, or tells what keeps them
  out first.
-/

namespace FeatureCensus

open Relational Layout Text

/-! ## Batches -/

/-- No batch is empty. -/
theorem ne_nil_of_mem_batches {α : Type} {size : Nat} (items : List α) {batch : List α}
    (h : batch ∈ batches size items) : batch ≠ [] := by
  rw [batches] at h
  split at h
  · cases h
  · rename_i hor
    have hsize : size ≠ 0 := fun hzero => hor (Or.inl hzero)
    have hitems : items ≠ [] := fun hnil => hor (Or.inr hnil)
    have _shorter := List.length_pos_iff.2 hitems
    rcases List.mem_cons.1 h with rfl | hlater
    · simp [hsize, hitems]
    · exact ne_nil_of_mem_batches (items.drop size) hlater
termination_by items.length
decreasing_by
  simp only [List.length_drop]
  omega

/-! ## Tables in a store -/

namespace Tables

/-- That some rows are all that can be found in the tables of a store. -/
structure AreIn (t : Tables) (store : Store) : Prop where
  totals : store.table? Layout.totals.name = some (Filling.totals.table t.totals)
  counters : store.table? Layout.counters.name = some (Filling.counters.table t.counters)
  usages : store.table? Layout.usages.name = some (Filling.usages.table t.usages)
  untriggered : ∀ layout ∈ Layout.all, store.IsUntriggered layout.name

/-- That rows do not exclude each other from the tables. -/
structure AreApart (t : Tables) : Prop where
  keys : t.counters.Pairwise fun x y => x.key ≠ y.key
  positions : t.usages.Pairwise fun x y => x.key ≠ y.key ∨ x.position ≠ y.position

/-- Tables with more rows behind their own. -/
def append (t more : Tables) : Tables where
  totals := t.totals ++ more.totals
  counters := t.counters ++ more.counters
  usages := t.usages ++ more.usages

/-- Rows that do not exclude each other with more behind them do not without. -/
theorem AreApart.of_append {t more : Tables} (h : (t.append more).AreApart) : t.AreApart where
  keys := (List.pairwise_append.1 h.keys).1
  positions := (List.pairwise_append.1 h.positions).1

/-- That just some rows are in the store of an outcome, unless something keeps them out: then the
outcome tells the first of it. -/
def GoIn (t : Tables) (outcome : Except DatabaseError Store) : List DatabaseError → Prop
  | [] => ∃ store, outcome = .ok store ∧ t.AreIn store
  | error :: _ => outcome = .error error

/-- What keeps rows out first comes before all that is done later. -/
theorem GoIn.bind {t more : Tables} {outcome : Except DatabaseError Store}
    {next : Store → Except DatabaseError Store} {first later : List DatabaseError}
    (h : t.GoIn outcome first)
    (hnext : ∀ store, t.AreIn store → more.GoIn (next store) later) :
    more.GoIn (outcome >>= next) (first ++ later) := by
  cases first with
  | nil =>
    obtain ⟨store, rfl, hstore⟩ := h
    exact hnext store hstore
  | cons error others =>
    rw [GoIn] at h
    rw [h]
    rfl

/-- The time of saving is never kept out. -/
theorem obstacle?_updated (strays : Strays) (values : List Value) :
    obstacle? strays [updated :: values] = obstacle? strays [values] := by
  have hupdated : obstacleOf? strays updated = none := by
    have hword : isWord 1750000000 = true := by decide
    simp [updated, obstacleOf?, hword]
  simp [obstacle?, hupdated]

namespace AreIn

variable {t : Tables} {store changed : Store} {strays : Strays}

theorem refillTotals (h : t.AreIn store) {rows : List TotalsRow}
    (hrefills : Store.Refills Layout.totals.kept (numbered Filling.totals.full rows)
      store changed) :
    AreIn { t with totals := rows } changed where
  totals := hrefills.table
  counters := by
    have hname := (sameName_comm _ _).trans names_differ.2.1
    exact (hrefills.others _ hname).trans h.counters
  usages := by
    have hname := (sameName_comm _ _).trans names_differ.2.2
    exact (hrefills.others _ hname).trans h.usages
  untriggered layout hlayout := (h.untriggered layout hlayout).of_refills hrefills

theorem refillCounters (h : t.AreIn store) {rows : List CounterRow}
    (hrefills : Store.Refills Layout.counters.kept (numbered Filling.counters.full rows)
      store changed) :
    AreIn { t with counters := rows } changed where
  totals := (hrefills.others _ names_differ.2.1).trans h.totals
  counters := hrefills.table
  usages := (hrefills.others _ names_differ.1).trans h.usages
  untriggered layout hlayout := (h.untriggered layout hlayout).of_refills hrefills

theorem refillUsages (h : t.AreIn store) {rows : List UsageRow}
    (hrefills : Store.Refills Layout.usages.kept (numbered Filling.usages.full rows)
      store changed) :
    AreIn { t with usages := rows } changed where
  totals := (hrefills.others _ names_differ.2.2).trans h.totals
  counters := by
    have hname := (sameName_comm _ _).trans names_differ.1
    exact (hrefills.others _ hname).trans h.counters
  usages := hrefills.table
  untriggered layout hlayout := (h.untriggered layout hlayout).of_refills hrefills

/-- A row that has all its values goes in behind those that are there, unless it is kept out. -/
theorem goIn_addRow {ρ : Type} (filling : Filling ρ) {before : List ρ} {row : ρ}
    (hbefore : store.table? filling.layout.name = some (filling.table before))
    (huntriggered : store.IsUntriggered filling.layout.name) (hwhole : filling.IsWhole row)
    (htogether : (before ++ [row]).Pairwise filling.Together)
    (hrefill : ∀ changed, Store.Refills filling.layout.kept
      (numbered filling.full (before ++ [row])) store changed → t.AreIn changed) :
    t.GoIn (filling.layout.addRows strays [filling.given row] store)
      (obstacle? strays [filling.given row]).toList := by
  have hadded : [row] ≠ [] := List.cons_ne_nil row []
  cases hobstacle : obstacle? strays [filling.given row] with
  | some error => exact addRows_of_obstacle filling hbefore huntriggered hadded hobstacle
  | none =>
    have hall : ∀ x ∈ [row], filling.IsWhole x := by simpa using hwhole
    obtain ⟨changed, hrun, hrefills⟩ :=
      addRows_eq_ok filling hbefore huntriggered hadded hobstacle hall htogether
    exact ⟨changed, hrun, hrefill changed hrefills⟩

/-- The totals are added behind those that are there. -/
theorem addTotals (h : t.AreIn store) (row : TotalsRow) :
    (t.append { totals := [row] }).GoIn
      (Layout.totals.addRows strays [updated :: row.values] store)
      (obstacle? strays [row.values]).toList := by
  have huntriggered := h.untriggered Layout.totals (by simp [Layout.all])
  have htogether : (t.totals ++ [row]).Pairwise Filling.totals.Together :=
    List.pairwise_iff_getElem.2 fun _ _ _ _ _ columns hcolumns =>
      absurd hcolumns List.not_mem_nil
  rw [← obstacle?_updated]
  refine goIn_addRow Filling.totals h.totals huntriggered trivial htogether ?_
  intro changed hrefills
  simpa [append] using h.refillTotals hrefills

/-- A counter is added behind those that are there. -/
theorem addCounterRow (h : t.AreIn store) (row : CounterRow)
    (hapart : (t.append { counters := [row] }).AreApart) :
    (t.append { counters := [row] }).GoIn
      (Layout.counters.addRows strays [updated :: row.values] store)
      (obstacle? strays [row.values]).toList := by
  have huntriggered := h.untriggered Layout.counters (by simp [Layout.all])
  have htogether : (t.counters ++ [row]).Pairwise Filling.counters.Together :=
    hapart.keys.imp Filling.together_counters
  rw [← obstacle?_updated]
  refine goIn_addRow Filling.counters h.counters huntriggered trivial htogether ?_
  intro changed hrefills
  simpa [append] using h.refillCounters hrefills

/-- Places are added behind those that are there. -/
theorem addUsages (h : t.AreIn store) {rows : List UsageRow} (hrows : rows ≠ [])
    (hapart : (t.append { usages := rows }).AreApart) :
    (t.append { usages := rows }).GoIn
      (Layout.usages.addRows strays (rows.map UsageRow.values) store)
      (batchRefusals strays rows) := by
  have huntriggered := h.untriggered Layout.usages (by simp [Layout.all])
  have htogether : (t.usages ++ rows).Pairwise Filling.usages.Together :=
    hapart.positions.imp Filling.together_usages
  rw [batchRefusals]
  cases hobstacle : obstacle? strays (rows.map UsageRow.values) with
  | some error => exact addRows_of_obstacle Filling.usages h.usages huntriggered hrows hobstacle
  | none =>
    simp only
    split
    · rename_i hnone
      obtain ⟨row, hrow, hproject⟩ := List.any_eq_true.1 hnone
      refine addRows_of_lacks Filling.usages h.usages huntriggered hrows hobstacle ?_ htogether
      exact ⟨row, hrow, by simpa [Filling.usages] using hproject⟩
    · rename_i hall
      have hwhole : ∀ row ∈ rows, Filling.usages.IsWhole row := by
        intro row hrow
        by_contra hproject
        exact hall (List.any_eq_true.2 ⟨row, hrow, by simpa [Filling.usages] using hproject⟩)
      obtain ⟨changed, hrun, hrefills⟩ := addRows_eq_ok Filling.usages h.usages huntriggered hrows
        hobstacle hwhole htogether
      refine ⟨changed, hrun, ?_⟩
      simpa [append] using h.refillUsages hrefills

/-- Places are added in batches as they are at once. -/
theorem addBatches (h : t.AreIn store) {parts : List (List UsageRow)}
    (hparts : ∀ part ∈ parts, part ≠ [])
    (hapart : (t.append { usages := parts.flatten }).AreApart) :
    (t.append { usages := parts.flatten }).GoIn
      (parts.foldlM
        (fun store rows => Layout.usages.addRows strays (rows.map UsageRow.values) store) store)
      (parts.flatMap (batchRefusals strays)) := by
  induction parts generalizing t store with
  | nil => exact ⟨store, rfl, by simpa [append] using h⟩
  | cons part rest ih =>
    have hsplit : t.append { usages := (part :: rest).flatten } =
        (t.append { usages := part }).append { usages := rest.flatten } := by
      simp [append]
    rw [hsplit] at hapart ⊢
    rw [List.foldlM_cons, List.flatMap_cons]
    have hpart := hparts part List.mem_cons_self
    refine (h.addUsages hpart hapart.of_append).bind fun between hbetween => ?_
    exact ih hbetween (fun other hother => hparts other (List.mem_cons_of_mem part hother)) hapart

end AreIn

/-! ## Counters with their places -/

/-- The rows of counters with their places in the catalog. -/
def ofCounters (counters : List ((String × Counter) × Nat)) : Tables where
  counters := counters.map fun ((key, c), position) => counterRow position key c
  usages := counters.flatMap fun ((key, c), _) => usageRows key c

variable {t : Tables} {store : Store} {strays : Strays}

/-- A counter is added with its places. -/
theorem AreIn.addCounter (h : t.AreIn store) (entry : (String × Counter) × Nat)
    (hapart : (t.append (ofCounters [entry])).AreApart) :
    (t.append (ofCounters [entry])).GoIn (Layout.addCounter strays store entry)
      (counterRefusals strays entry) := by
  obtain ⟨⟨key, c⟩, position⟩ := entry
  have hflat : (batches batchSize (usageRows key c)).flatten = usageRows key c :=
    flatten_batches (by decide) _
  have hsplit : t.append (ofCounters [((key, c), position)]) =
      (t.append { counters := [counterRow position key c] }).append
        { usages := (batches batchSize (usageRows key c)).flatten } := by
    simp [append, ofCounters, hflat]
  rw [hsplit] at hapart ⊢
  exact (h.addCounterRow _ hapart.of_append).bind fun between hbetween =>
    hbetween.addBatches (fun _ hbatch => ne_nil_of_mem_batches _ hbatch) hapart

/-- Counters are added with their places, one after the other. -/
theorem AreIn.addCounters (h : t.AreIn store) {entries : List ((String × Counter) × Nat)}
    (hapart : (t.append (ofCounters entries)).AreApart) :
    (t.append (ofCounters entries)).GoIn (entries.foldlM (Layout.addCounter strays) store)
      (entries.flatMap (counterRefusals strays)) := by
  induction entries generalizing t store with
  | nil => exact ⟨store, rfl, by simpa [append, ofCounters] using h⟩
  | cons entry rest ih =>
    have hsplit : t.append (ofCounters (entry :: rest)) =
        (t.append (ofCounters [entry])).append (ofCounters rest) := by
      simp [append, ofCounters]
    rw [hsplit] at hapart ⊢
    rw [List.foldlM_cons, List.flatMap_cons]
    exact (h.addCounter entry hapart.of_append).bind fun between hbetween => ih hbetween hapart

end Tables

/-! ## Replacing -/

namespace Layout

/-- That the table is there as it is made, whatever rows it has, and that nothing else happens
where they change. -/
structure IsMadeIn (layout : Layout) (store : Store) : Prop where
  table : ∃ rows, store.table? layout.name = some ⟨layout.kept, .ok rows⟩
  untriggered : store.IsUntriggered layout.name

/-- A table that is put into a store is made in it. -/
theorem isMadeIn_putTable {layout : Layout} {store : Store} (h : store.IsUntriggered layout.name)
    (rows : Array Row) : layout.IsMadeIn (store.putTable ⟨layout.kept, .ok rows⟩) where
  table := by
    have hfound := store.table?_putTable ⟨layout.kept, .ok rows⟩
    rw [name_kept] at hfound
    exact ⟨rows, hfound⟩
  untriggered := h.of_refills (store.refills_putTable _ _)

/-- A table stays made where another one is put into the store. -/
theorem IsMadeIn.putTable {layout : Layout} {store : Store} (h : layout.IsMadeIn store)
    {shape : Shape} (hname : sameName shape.name layout.name = false) (rows : Array Row) :
    layout.IsMadeIn (store.putTable ⟨shape, .ok rows⟩) where
  table := by
    obtain ⟨found, hfound⟩ := h.table
    exact ⟨found, (store.table?_putTable_of_ne ⟨shape, .ok rows⟩ hname).trans hfound⟩
  untriggered := h.untriggered.of_refills (store.refills_putTable _ _)

/-- Tables with different names are emptied one after the other. -/
theorem deleteAll_eq_ok {layouts : List Layout}
    (hnames : layouts.Pairwise fun a b => sameName a.name b.name = false) {store : Store}
    (h : ∀ layout ∈ layouts, layout.IsMadeIn store) :
    ∃ emptied, layouts.foldlM (fun store layout => layout.deleteRows store) store = .ok emptied ∧
      (∀ layout ∈ layouts, emptied.table? layout.name = some ⟨layout.kept, .ok #[]⟩) ∧
      (∀ name, (∀ layout ∈ layouts, sameName layout.name name = false) →
        emptied.table? name = store.table? name) ∧
      emptied.triggers = store.triggers := by
  induction layouts generalizing store with
  | nil => exact ⟨store, rfl, by simp, fun _ _ => rfl, rfl⟩
  | cons layout rest ih =>
    obtain ⟨hfirst, hlater⟩ := List.pairwise_cons.1 hnames
    obtain ⟨⟨rows, hrows⟩, huntriggered⟩ := h layout List.mem_cons_self
    obtain ⟨between, hrun, hrefills⟩ := deleteRows_eq_ok hrows huntriggered
    have hothers := hrefills.others
    have htable := hrefills.table
    rw [name_kept] at hothers htable
    have hmade : ∀ other ∈ rest, other.IsMadeIn between := by
      intro other hother
      obtain ⟨⟨others, hfound⟩, hquiet⟩ := h other (List.mem_cons_of_mem layout hother)
      exact ⟨⟨others, (hothers _ (hfirst other hother)).trans hfound⟩, hquiet.of_refills hrefills⟩
    obtain ⟨emptied, hrest, hempty, hkept, htriggers⟩ := ih hlater hmade
    refine ⟨emptied, ?_, ?_, ?_, htriggers.trans hrefills.triggers⟩
    · rw [List.foldlM_cons, hrun]
      exact hrest
    · intro other hother
      rcases List.mem_cons.1 hother with rfl | hlast
      · have happart : ∀ later ∈ rest, sameName later.name other.name = false := by
          intro later hmem
          rw [sameName_comm]
          exact hfirst later hmem
        exact (hkept _ happart).trans htable
      · exact hempty other hlast
    · intro name hname
      have hbetween := hothers name (hname layout List.mem_cons_self)
      exact (hkept name fun other hother =>
        hname other (List.mem_cons_of_mem layout hother)).trans hbetween

/-- All tables are emptied. -/
theorem deleteAll_all {store : Store} (h : ∀ layout ∈ all, layout.IsMadeIn store) :
    ∃ emptied, all.foldlM (fun store layout => layout.deleteRows store) store = .ok emptied ∧
      Tables.AreIn {} emptied := by
  have hnames : all.Pairwise fun a b => sameName a.name b.name = false := by
    simp [all, names_differ]
  obtain ⟨emptied, hrun, hempty, -, htriggers⟩ := deleteAll_eq_ok hnames h
  refine ⟨emptied, hrun, hempty totals (by simp [all]), hempty counters (by simp [all]),
    hempty usages (by simp [all]), fun layout hlayout => ?_⟩
  rw [Store.IsUntriggered, htriggers]
  exact (h layout hlayout).untriggered

/-- Just the rows of a session are in the tables after it is saved, unless something keeps it out of
a database of our own: then the first of it is told. -/
theorem goIn_save {store : Store} (h : ∀ layout ∈ all, layout.IsMadeIn store) {s : Session}
    (hs : (Tables.ofSession s).AreApart) (strays : Strays) :
    (Tables.ofSession s).GoIn (save strays store s) (Tables.refusals strays s) := by
  have hsplit : Tables.ofSession s = (Tables.append {} { totals := [Tables.totalsRow s] }).append
      (Tables.ofCounters s.counters.zipIdx) := by
    have husages : (Tables.ofCounters s.counters.zipIdx).usages = (Tables.ofSession s).usages :=
      (Tables.usages_ofSession s).symm
    simpa [Tables.append, Tables.ofCounters, Tables.ofSession] using husages.symm
  rw [hsplit] at hs ⊢
  obtain ⟨emptied, hempty, hnone⟩ := deleteAll_all h
  rw [save, hempty]
  exact (hnone.addTotals (Tables.totalsRow s)).bind fun begun hbegun => hbegun.addCounters hs

end Layout

/-- That the tables of results are there as they are made, whatever rows they have. -/
def Database.IsInitialized : Database → Prop
  | .own _ => True
  | .foreign store => ∀ layout ∈ Layout.all, layout.IsMadeIn store

end FeatureCensus

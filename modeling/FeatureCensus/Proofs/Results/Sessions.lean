import FeatureCensus.Proofs.Analysis.Places
import FeatureCensus.Proofs.Results.Answers
import FeatureCensus.Proofs.Results.Refusals

/-!
# Sessions in a database

What a database holds after a session is saved that analyses have reached.  Its keys are those of
the catalog and its places are in named projects, so its rows do not exclude each other, and if
their numbers are small enough and their texts can be encoded all of them are stored.  A text that
cannot be encoded, such as the path of a file whose name is no text, keeps all of them out.

Main results:

- Theorem {lit}`Tables.areApart_ofSession`: the rows of a session do not exclude each other.
- Theorem {lit}`Tables.filter_usages`: the places of a key are those of its counter, in order.
- Theorem {lit}`Database.save_eq_ok`: a database holds the rows of the session that was saved.
- Theorem {lit}`Analyzer.Reaches.counters`: what the counters of a reached session are.
- Theorem {lit}`Database.save_of_reaches`: a database holds just the session that was saved, if its
  texts can be encoded.
- Theorem {lit}`Database.not_saves_strangeSession`: a session with the path of a file whose name is
  no text is not saved.
-/

namespace FeatureCensus

open Relational Text

/-! ## Rows of sessions -/

namespace Tables

/-- The rows of a session keep its keys. -/
theorem map_key_counters (s : Session) : (ofSession s).counters.map (·.key) = s.keys :=
  calc (ofSession s).counters.map (·.key)
    _ = (s.counters.zipIdx.map Prod.fst).map (·.1) := by
      simp only [ofSession, counterRow, List.map_map, Function.comp_def]
    _ = s.keys := by rw [List.zipIdx_map_fst, Session.keys]

theorem key_of_mem_usageRows {key : String} {c : Counter} {row : UsageRow}
    (h : row ∈ usageRows key c) : row.key = key := by
  obtain ⟨_, -, rfl⟩ := List.mem_map.1 h
  rfl

theorem pairwise_usageRows (key : String) (c : Counter) :
    (usageRows key c).Pairwise fun x y => x.position ≠ y.position := by
  rw [usageRows, List.pairwise_map, List.pairwise_iff_getElem]
  intro i j hi hj hij
  simp only [List.getElem_zipIdx]
  omega

/-- The rows of a session do not exclude each other. -/
theorem areApart_ofSession {s : Session} (hkeys : s.keys.Nodup) : (ofSession s).AreApart where
  keys := by
    rw [← map_key_counters s] at hkeys
    exact List.pairwise_map.1 hkeys
  positions := by
    refine List.pairwise_flatMap.2 ⟨fun entry _ => ?_, ?_⟩
    · exact (pairwise_usageRows entry.1 entry.2).imp Or.inr
    · refine (List.pairwise_map.1 hkeys).imp fun hne x hx y hy => Or.inl ?_
      rw [key_of_mem_usageRows hx, key_of_mem_usageRows hy]
      exact hne

/-- The places of a session that names their projects have projects. -/
theorem haveProjects_ofSession {s : Session} (h : s.IsNamed) : (ofSession s).HaveProjects := by
  intro row hrow
  obtain ⟨⟨key, c⟩, hentry, hmem⟩ := List.mem_flatMap.1 hrow
  obtain ⟨⟨place, position⟩, hplace, rfl⟩ := List.mem_map.1 hmem
  have htracked : place ∈ c.usages :=
    Array.mem_toList_iff.1 (List.fst_mem_of_mem_zipIdx hplace)
  have hproject := h _ hentry place htracked
  cases hname : place.project with
  | absent => exact absurd hname hproject
  | text | number => simp [PlaceName.stored?, hname]

/-! ## Places of one key -/

theorem filter_flatMap_eq_nil {entries : List (String × Counter)} {key : String}
    (h : key ∉ entries.map (·.1)) :
    (entries.flatMap fun (k, c) => usageRows k c).filter (fun row => row.key == key) = [] := by
  rw [List.filter_eq_nil_iff]
  intro row hrow heq
  obtain ⟨entry, hentry, hmem⟩ := List.mem_flatMap.1 hrow
  rw [key_of_mem_usageRows hmem] at heq
  exact h (eq_of_beq heq ▸ List.mem_map_of_mem hentry)

/-- Of the stored places those of a key are the places of its counter, in their order. -/
theorem filter_usages {s : Session} (hkeys : s.keys.Nodup) {key : String} {c : Counter}
    (hc : s.counter? key = some c) :
    (ofSession s).usages.filter (fun row => row.key == key) = usageRows key c := by
  obtain ⟨before, after, hsplit, -⟩ := List.lookup_eq_some_iff.1 hc
  rw [Session.keys, hsplit, List.map_append, List.map_cons] at hkeys
  have hnew := List.nodup_middle.1 hkeys
  rw [List.nodup_cons, List.mem_append, not_or] at hnew
  obtain ⟨⟨hbefore, hafter⟩, -⟩ := hnew
  have hown : (usageRows key c).filter (fun row => row.key == key) = usageRows key c := by
    rw [List.filter_eq_self]
    intro row hrow
    rw [key_of_mem_usageRows hrow, beq_self_eq_true]
  have hsplitted : (ofSession s).usages = (before.flatMap fun (k, c) => usageRows k c) ++
      (usageRows key c ++ after.flatMap fun (k, c) => usageRows k c) := by
    rw [ofSession, hsplit, List.flatMap_append, List.flatMap_cons]
  rw [hsplitted, List.filter_append, List.filter_append, filter_flatMap_eq_nil hbefore,
    filter_flatMap_eq_nil hafter, hown, List.nil_append, List.append_nil]

/-- The values that are stored of the places of a key, in their order. -/
theorem filter_listing {s : Session} (hkeys : s.keys.Nodup) {key : String} {c : Counter}
    (hc : s.counter? key = some c) :
    (ofSession s).listing.usages.filter (fun row => row.head? == some (.text key)) =
      c.usages.toList.zipIdx.map fun (place, position) =>
        [.text key, .integer position, textValue place.project.stored?,
          textValue place.path.stored?, .integer place.line] := by
  have hhead : (fun row : List Value => row.head? == some (.text key)) ∘ UsageRow.values =
      fun row => row.key == key := by
    funext row
    simp [UsageRow.values]
  rw [listing, List.filter_map, hhead, filter_usages hkeys hc]
  simp [usageRows, UsageRow.values, Function.comp_def]

/-- Stored places are of counters of the session. -/
theorem key_mem_keys {s : Session} {row : UsageRow} (h : row ∈ (ofSession s).usages) :
    row.key ∈ s.keys := by
  obtain ⟨entry, hentry, hmem⟩ := List.mem_flatMap.1 h
  rw [key_of_mem_usageRows hmem]
  exact List.mem_map_of_mem hentry

/-- There are as many stored places of a key as its counter tracks. -/
theorem countP_usages {s : Session} (hkeys : s.keys.Nodup) {key : String} {c : Counter}
    (hc : s.counter? key = some c) :
    (ofSession s).usages.countP (fun row => some row.key == some key) = c.usages.size := by
  have hsame : (fun row : UsageRow => some row.key == some key) = fun row => row.key == key := by
    funext row
    exact Option.some_beq_some
  rw [hsame, List.countP_eq_length_filter, filter_usages hkeys hc, length_usageRows]

/-- Of a key that the session does not have no places are stored. -/
theorem countP_usages_eq_zero {s : Session} {key : String} (h : key ∉ s.keys) :
    (ofSession s).usages.countP (fun row => some row.key == some key) = 0 := by
  rw [List.countP_eq_zero]
  intro row hrow heq
  have hkey : row.key = key := Option.some.inj (eq_of_beq heq)
  exact h (hkey ▸ key_mem_keys hrow)

theorem pairwise_position_counters (s : Session) :
    (ofSession s).counters.Pairwise fun x y => x.position ≤ y.position := by
  rw [ofSession, List.pairwise_map, List.pairwise_iff_getElem]
  intro i j hi hj hij
  simp only [List.getElem_zipIdx, counterRow]
  omega

end Tables

/-! ## Databases -/

namespace Database

/-- That queries find some rows and no others. -/
structure Holds (db : Database) (t : Tables) : Prop where
  featureCounts : db.featureCounts = (own t).featureCounts
  usageCount : ∀ key?, db.usageCount key? = (own t).usageCount key?
  dump : db.dump = .ok t.listing

/-- A store that a session goes into answers as a database of our own with its rows does. -/
theorem holds_foreign {store : Store} {s : Session} (hkeys : s.keys.Nodup)
    (h : (Tables.ofSession s).AreIn store) :
    (foreign store).IsInitialized ∧ (foreign store).Holds (Tables.ofSession s) := by
  refine ⟨fun layout hlayout => ⟨?_, h.untriggered layout hlayout⟩, ?_, ?_, ?_⟩
  · simp only [Layout.all, List.mem_cons, List.not_mem_nil, or_false] at hlayout
    rcases hlayout with rfl | rfl | rfl
    · exact ⟨_, h.counters⟩
    · exact ⟨_, h.usages⟩
    · exact ⟨_, h.totals⟩
  · exact featureCounts_foreign h (Tables.areApart_ofSession hkeys).keys
      (Tables.pairwise_position_counters s)
  · exact usageCount_foreign h
  · exact dump_foreign h (Tables.pairwise_position_counters s)

variable {db : Database} {s : Session} {strays : Strays}

/-- A database holds just the rows of a session after it is saved, whatever it held before, if
nothing keeps them out. -/
theorem save_eq_ok (hdb : db.IsInitialized) (hkeys : s.keys.Nodup)
    (h : Tables.refusals strays s = []) :
    ∃ saved, db.save strays s = .ok saved ∧ saved.IsInitialized ∧
      saved.Holds (Tables.ofSession s) := by
  cases db with
  | own before =>
    refine ⟨own (Tables.ofSession s), ?_, trivial, ⟨rfl, fun _ => rfl, rfl⟩⟩
    rw [save, h]
  | foreign store =>
    have hgoIn := Layout.goIn_save hdb (Tables.areApart_ofSession hkeys) strays
    rw [h] at hgoIn
    obtain ⟨saved, hsave, hsaved⟩ := hgoIn
    exact ⟨foreign saved, by rw [save, hsave]; rfl, holds_foreign hkeys hsaved⟩

/-- Whatever a database holds, the first of what keeps a session out is told. -/
theorem save_eq_error (hdb : db.IsInitialized) (hkeys : s.keys.Nodup) {error : DatabaseError}
    {others : List DatabaseError} (h : Tables.refusals strays s = error :: others) :
    db.save strays s = .error error := by
  cases db with
  | own before => rw [save, h]
  | foreign store =>
    have hgoIn := Layout.goIn_save hdb (Tables.areApart_ofSession hkeys) strays
    rw [h] at hgoIn
    change Layout.save strays store s = .error error at hgoIn
    rw [save, hgoIn]
    rfl

end Database

/-! ## Sessions that are reached -/

namespace Analyzer

/-- That a session is what calls that name their projects leave of a new one. -/
def Reaches (analyzer : Analyzer) (statsOnly : Bool) (s : Session) : Prop :=
  ∃ new calls, analyzer.newSession statsOnly = .ok new ∧ (∀ call ∈ calls, Call.IsNamed call) ∧
    s = (analyzer.runAll new calls).1

variable {analyzer : Analyzer} {statsOnly : Bool} {s : Session}

theorem Reaches.isNamed (h : analyzer.Reaches statsOnly s) : s.IsNamed := by
  obtain ⟨new, calls, hnew, hcalls, rfl⟩ := h
  refine analyzer.isNamed_runAll ?_ hcalls
  rw [newSession, Session.ofCatalog] at hnew
  split at hnew
  · obtain rfl := Except.ok.inj hnew
    exact Session.isNamed_ofSpecs _ _
  · cases hnew

/-- A session that is reached has the counters of the catalog, which track as declared. -/
theorem Reaches.counters (h : analyzer.Reaches statsOnly s) (hkeys : analyzer.catalog.keys.Nodup) :
    s.keys = analyzer.catalog.keys ∧
      ∀ spec ∈ analyzer.catalog, ∃ c, s.counter? spec.key = some c ∧
        c.usages.size = if spec.tracking.tracks statsOnly then c.count else 0 := by
  obtain ⟨new, calls, hnew, -, rfl⟩ := h
  obtain rfl := Except.ok.inj ((Session.ofCatalog_eq_ok hkeys statsOnly).symm.trans hnew)
  have hnewkeys := Session.keys_ofCatalog hnew
  obtain ⟨g, failures, hruns⟩ := analyzer.exists_gain_runAll hkeys calls
  rw [hruns _ hnewkeys]
  refine ⟨(Session.keys_gain _ g).trans hnewkeys, fun spec hspec => ?_⟩
  have htallies := Counter.tallies_incrementAll
    (Counter.Tallies.empty spec.label (spec.tracking.tracks statsOnly))
    (Entry.placesFor spec.key g.entries)
  refine ⟨_, by rw [Session.counter?_gain, Session.counter?_ofSpecs hkeys statsOnly hspec]; rfl, ?_⟩
  rw [← Array.length_toList, htallies.usages, htallies.count, Counter.tracks_incrementAll,
    Counter.empty]
  split <;> rfl

end Analyzer

namespace Database

/-- After a session is saved that analyses have reached and whose texts can be encoded, a database
holds just this session, whatever rows it held before: the counters of the catalog in its order, the
tracked places of each of them in their order, however many there are, and one row of totals.  It
can be saved to once more.  If a text of the session cannot be encoded, nothing is saved. -/
theorem save_of_reaches {analyzer : Analyzer} (hkeys : analyzer.catalog.keys.Nodup)
    {statsOnly : Bool} {s : Session} (hs : analyzer.Reaches statsOnly s)
    (hrange : (Tables.ofSession s).AreInRange) {db : Database} (hdb : db.IsInitialized)
    (strays : Strays) :
    ((Tables.ofSession s).AreEncodable strays →
      ∃ saved rows, db.save strays s = .ok saved ∧ saved.IsInitialized ∧ saved.dump = .ok rows ∧
        rows.totals = [[.integer s.repositories, .integer s.files, .integer s.lines]] ∧
        rows.counters = s.counters.zipIdx.map (fun ((key, c), position) =>
          [.integer position, .text key, .text c.label, .integer c.count,
            .integer c.projects.length]) ∧
        s.keys = analyzer.catalog.keys ∧
        saved.featureCounts = .ok (s.counters.map fun (key, c) => (some key, .integer c.count)) ∧
        (∀ row ∈ rows.usages, ∃ key ∈ analyzer.catalog.keys, row.head? = some (.text key)) ∧
        (∀ key ∉ analyzer.catalog.keys, saved.usageCount (some key) = .ok 0) ∧
        ∀ spec ∈ analyzer.catalog, ∃ c, s.counter? spec.key = some c ∧
          c.usages.size = (if spec.tracking.tracks statsOnly then c.count else 0) ∧
          saved.usageCount (some spec.key) = .ok c.usages.size ∧
          rows.usages.filter (fun row => row.head? == some (.text spec.key)) =
            c.usages.toList.zipIdx.map fun (place, position) =>
              [.text spec.key, .integer position, textValue place.project.stored?,
                textValue place.path.stored?, .integer place.line]) ∧
      (¬ (Tables.ofSession s).AreEncodable strays →
        ∃ run, db.save strays s = .error (.unencodable run)) := by
  obtain ⟨hsame, hcounters⟩ := hs.counters hkeys
  have hnodup : s.keys.Nodup := hsame ▸ hkeys
  have hprojects := Tables.haveProjects_ofSession hs.isNamed
  refine ⟨fun hencodable => ?_, fun hencodable => ?_⟩
  · have hnothing := Tables.refusals_eq_nil_iff.2 ⟨hrange, hencodable, hprojects⟩
    obtain ⟨saved, hsave, hsaved, hholds⟩ := save_eq_ok hdb hnodup hnothing
    refine ⟨saved, (Tables.ofSession s).listing, hsave, hsaved, hholds.dump, rfl, ?_, hsame, ?_, ?_,
      ?_, fun spec hspec => ?_⟩
    · simp [Tables.listing, Tables.ofSession, Tables.counterRow, CounterRow.values,
        Function.comp_def]
    · rw [hholds.featureCounts]
      exact congrArg Except.ok (map_zipIdx_counters s.counters 0)
    · intro row hrow
      obtain ⟨stored, hstored, rfl⟩ := List.mem_map.1 hrow
      exact ⟨stored.key, hsame ▸ Tables.key_mem_keys hstored, rfl⟩
    · intro key hkey
      rw [hholds.usageCount]
      exact congrArg Except.ok (Tables.countP_usages_eq_zero (hsame ▸ hkey))
    · obtain ⟨c, hc, hsize⟩ := hcounters spec hspec
      refine ⟨c, hc, hsize, ?_, Tables.filter_listing hnodup hc⟩
      rw [hholds.usageCount]
      exact congrArg Except.ok (Tables.countP_usages hnodup hc)
  · cases hrefusals : Tables.refusals strays s with
    | nil => exact absurd (Tables.refusals_eq_nil_iff.1 hrefusals).2.1 hencodable
    | cons error others =>
      have hmem : error ∈ Tables.refusals strays s := hrefusals ▸ List.mem_cons_self
      obtain ⟨run, rfl⟩ := Tables.exists_of_mem_refusals hrange hprojects hmem
      exact ⟨run, save_eq_error hdb hnodup hrefusals⟩

/-- A store with a table of its own. -/
def notedStore : Store where
  tables := [⟨{ name := "notes", columns := [] }, .ok #[]⟩]

/-- The store with rows of earlier sessions, one of which has a key and a position that come
again. -/
def formerStore : Store :=
  ((notedStore.putTable
    ⟨Layout.counters.kept, .ok #[⟨7, [.integer 7, Layout.updated, .integer 0, .text "former",
      .text "Former", .integer 5, .integer 1]⟩]⟩).putTable
    ⟨Layout.usages.kept, .ok #[⟨3, [.text "kept", .integer 0, .text "q", .null,
      .integer 9]⟩]⟩).putTable
    ⟨Layout.totals.kept, .ok #[⟨1, [.integer 1, Layout.updated, .integer 1, .integer 1,
      .integer 9]⟩, ⟨2, [.integer 2, Layout.updated, .integer 0, .integer 0, .integer 0]⟩]⟩

theorem isInitialized_formerStore : IsInitialized (foreign formerStore) := by
  have hnoted : ∀ name, notedStore.IsUntriggered name := fun _ _ htrigger => by cases htrigger
  have hput : ∀ (store : Store) name shape rows, store.IsUntriggered name →
      (store.putTable ⟨shape, .ok rows⟩).IsUntriggered name := fun store _ _ _ hstore =>
    hstore.of_refills (store.refills_putTable _ _)
  intro layout hlayout
  simp only [Layout.all, List.mem_cons, List.not_mem_nil, or_false] at hlayout
  rcases hlayout with rfl | rfl | rfl
  · have hmade := Layout.isMadeIn_putTable (hnoted Layout.counters.name)
    have husages := (sameName_comm _ _).trans Layout.names_differ.1
    have htotals := (sameName_comm _ _).trans Layout.names_differ.2.1
    exact ((hmade _).putTable husages _).putTable htotals _
  · have htotals := (sameName_comm _ _).trans Layout.names_differ.2.2
    exact (Layout.isMadeIn_putTable (hput _ _ _ _ (hnoted _)) _).putTable htotals _
  · exact Layout.isMadeIn_putTable (hput _ _ _ _ (hput _ _ _ _ (hnoted _))) _

/-- The session of a file that was counted a hundred times and once more. -/
def crowdedSession : Session :=
  (Analyzer.sampleAnalyzer.runAll (.ofSpecs Analyzer.sampleAnalyzer.catalog false)
    (List.replicate 101 (.file (.text "p") (Analysis.fileWithClass "4")))).1

/-- A character that stands for a stray byte. -/
def strayMark : Char := Char.ofNat 0x10DCE9

/-- More places than are saved at once take the place of earlier ones. -/
theorem save_of_reaches_crowdedSession :
    ∃ saved rows, (foreign formerStore).save [(strayMark, 0xE9)] crowdedSession = .ok saved ∧
      saved.dump = .ok rows ∧ rows.totals = [[.integer 0, .integer 101, .integer 202]] ∧
      saved.featureCounts = .ok [(some "kept", .integer 101), (some "shown", .integer 202),
        (some "bare", .integer 101)] ∧
      saved.usageCount (some "former") = .ok 0 ∧ saved.usageCount (some "kept") = .ok 101 ∧
      (rows.usages.filter fun row => row.head? == some (.text "kept")).length = 101 := by
  have hkeys : Analyzer.sampleAnalyzer.catalog.keys.Nodup := by decide
  have hreached : Analyzer.sampleAnalyzer.Reaches false crowdedSession := by
    refine ⟨_, _, Session.ofCatalog_eq_ok hkeys false, fun call hcall => ?_, rfl⟩
    rw [List.eq_of_mem_replicate hcall]
    exact PlaceName.noConfusion
  obtain ⟨saved, rows, hsave, -, hdump, htotals, -, -, hcounts, -, hothers, hplaces⟩ :=
    (save_of_reaches hkeys hreached (by decide +kernel) isInitialized_formerStore
      [(strayMark, 0xE9)]).1 (by decide +kernel)
  obtain ⟨c, hc, -, hcount, hrows⟩ := hplaces ⟨"kept", "Kept", .always⟩ (by decide)
  have hsize : c.usages.size = 101 := by
    have hevaluated := congrArg (Option.map (·.usages.size)) hc
    exact Option.some.inj (hevaluated.symm.trans (by decide +kernel))
  have hevaluated :
      (crowdedSession.counters.map fun (key, c) => (some key, Value.integer c.count)) =
        [(some "kept", .integer 101), (some "shown", .integer 202),
          (some "bare", .integer 101)] := by
    decide +kernel
  refine ⟨saved, rows, hsave, hdump, ?_, hevaluated ▸ hcounts, hothers "former" (by decide),
    hsize ▸ hcount, ?_⟩
  · rw [htotals]
    decide +kernel
  · rw [hrows, List.length_map, List.length_zipIdx, Array.length_toList, hsize]

/-- A project with a file whose name has a byte that belongs to no character. -/
def strangeProject : World where
  files := { nodes := [(workingDirectory, .directory), (workingDirectory ++ ["q"], .directory),
      (workingDirectory ++ ["q", "caf" ++ String.singleton strayMark ++ ".kt"],
        .file (.bytes [10]))]
             strays := [(strayMark, 0xE9)] }

/-- An analyzer of all files in the directory of a project. -/
def wideAnalyzer : Analyzer :=
  { Analyzer.sampleAnalyzer with pattern := "*.kt" }

/-- The session after that project is analyzed. -/
def strangeSession : Session :=
  (wideAnalyzer.runAll (.ofSpecs wideAnalyzer.catalog false) [.project strangeProject "q"]).1

/-- A session with the path of a file whose name is no text is not saved. -/
theorem not_saves_strangeSession :
    wideAnalyzer.catalog.keys.Nodup ∧ wideAnalyzer.Reaches false strangeSession ∧
      (Tables.ofSession strangeSession).AreInRange ∧
      (foreign formerStore).IsInitialized ∧
      (foreign formerStore).save strangeProject.files.strays strangeSession =
        .error (.unencodable ⟨0xE9, 3, 1⟩) := by
  have hkeys : wideAnalyzer.catalog.keys.Nodup := by decide
  have hrefusals : (Tables.refusals strangeProject.files.strays strangeSession).head? =
      some (.unencodable ⟨0xE9, 3, 1⟩) := by
    decide +kernel
  obtain ⟨others, hfirst⟩ := List.head?_eq_some_iff.1 hrefusals
  have hnodup : strangeSession.keys.Nodup := by decide +kernel
  refine ⟨hkeys, ⟨_, _, Session.ofCatalog_eq_ok hkeys false, fun call hcall => ?_, rfl⟩,
    by decide +kernel, isInitialized_formerStore,
    save_eq_error isInitialized_formerStore hnodup hfirst⟩
  rw [List.mem_singleton.1 hcall]
  exact trivial

end Database
end FeatureCensus

import FeatureCensus.Count.Catalog
import FeatureCensus.Count.Counter
import FeatureCensus.Count.Repeats

/-!
# Sessions

A session holds all counters of a census in catalog order, together with the numbers
of repositories, files and lines that were analyzed.

Main results:

- Theorem {lit}`Session.keys_ofCatalog`: a new session has the keys of its catalog.
- Theorem {lit}`Session.counter?_increment`: an increment changes the counter of its
  key and no other.
- Theorem {lit}`Session.keys_increment`: an increment keeps the keys.
-/

namespace FeatureCensus

/-- Why a catalog does not make a session. -/
inductive CatalogError where
  /-- These keys are declared more than once. -/
  | duplicateKeys (keys : List String)
  /-- What is written so is no tracking mode. -/
  | unknownTracking (written : String)
  /-- What is written so is no kind of elements. -/
  | unknownKind (written : String)
  /-- A declaration has fewer parts than it needs. -/
  | tooShort (needed found : Nat)
  deriving DecidableEq, Repr, Inhabited

/-- All counters of a census and the totals. -/
structure Session where
  counters : List (String × Counter)
  repositories : Int := 0
  files : Int := 0
  lines : Int := 0
  deriving DecidableEq, Repr, Inhabited

namespace Session

/-! ## Creation -/

/-- A session with an empty counter for each declaration. -/
def ofSpecs (catalog : Catalog) (statsOnly : Bool) : Session :=
  { counters := catalog.map fun spec =>
      (spec.key, Counter.empty spec.label (spec.tracking.tracks statsOnly)) }

/-- The keys that a catalog declares more than once. -/
def duplicateKeys (catalog : Catalog) : List String :=
  Repeats.repeats (fun a b => a == b) catalog.keys

/-- A new session, unless the catalog declares a key twice. -/
def ofCatalog (catalog : Catalog) (statsOnly : Bool) : Except CatalogError Session :=
  if (duplicateKeys catalog).isEmpty then .ok (ofSpecs catalog statsOnly)
  else .error (.duplicateKeys (duplicateKeys catalog))

/-- The keys of a session, in catalog order. -/
def keys (s : Session) : List String :=
  s.counters.map (·.1)

/-- A new session has the keys of its catalog. -/
theorem keys_ofCatalog {catalog : Catalog} {statsOnly : Bool} {s : Session}
    (h : ofCatalog catalog statsOnly = .ok s) : s.keys = catalog.keys := by
  unfold ofCatalog at h
  split at h
  · obtain rfl := Except.ok.inj h
    simp [keys, ofSpecs, Catalog.keys]
  · cases h

/-! ## Counters -/

/-- The counter of a key. -/
def counter? (s : Session) (key : String) : Option Counter :=
  s.counters.lookup key

/-- Changes the counter of a key, where there is one. -/
def updateCounter? (f : Counter → Counter) (key : String) :
    List (String × Counter) → Option (List (String × Counter))
  | [] => none
  | (k, c) :: rest =>
    if key == k then some ((k, f c) :: rest)
    else (updateCounter? f key rest).map ((k, c) :: ·)

/-- Adds an occurrence to the counter of a key, where there is one. -/
def increment? (s : Session) (key : String) (usage : Usage) : Option Session :=
  (updateCounter? (·.increment usage) key s.counters).map fun counters => { s with counters }

theorem map_fst_updateCounter? {f : Counter → Counter} {key : String}
    {counters updated : List (String × Counter)}
    (h : updateCounter? f key counters = some updated) :
    updated.map (·.1) = counters.map (·.1) := by
  induction counters generalizing updated with
  | nil => cases h
  | cons entry rest ih =>
    obtain ⟨k, c⟩ := entry
    rw [updateCounter?] at h
    split at h
    · obtain rfl := Option.some.inj h
      rfl
    · obtain ⟨more, hmore, rfl⟩ := Option.map_eq_some_iff.1 h
      simp [ih hmore]

theorem lookup_updateCounter? {f : Counter → Counter} {key : String}
    {counters updated : List (String × Counter)}
    (h : updateCounter? f key counters = some updated) (other : String) :
    updated.lookup other =
      if other = key then (counters.lookup other).map f else counters.lookup other := by
  induction counters generalizing updated with
  | nil => cases h
  | cons entry rest ih =>
    obtain ⟨k, c⟩ := entry
    rw [updateCounter?] at h
    split at h
    · rename_i hk
      obtain rfl := Option.some.inj h
      obtain rfl := eq_of_beq hk
      by_cases hother : other = key
      · simp [hother]
      · have hne : (other == key) = false := by simp [hother]
        simp [List.lookup_cons, hother, hne]
    · rename_i hk
      obtain ⟨more, hmore, rfl⟩ := Option.map_eq_some_iff.1 h
      rw [List.lookup_cons, List.lookup_cons, ih hmore]
      by_cases hother : other = k
      · subst hother
        have : ¬ other = key := fun heq => hk (by simp [heq])
        simp [this]
      · have hne : (other == k) = false := by simp [hother]
        simp [hne]

/-- An increment changes the counter of its key and no other. -/
theorem counter?_increment {s updated : Session} {key : String} {usage : Usage}
    (h : s.increment? key usage = some updated) (other : String) :
    updated.counter? other =
      if other = key then (s.counter? other).map (·.increment usage) else s.counter? other := by
  obtain ⟨counters, hcounters, rfl⟩ := Option.map_eq_some_iff.1 h
  exact lookup_updateCounter? hcounters other

/-- An increment keeps the keys. -/
theorem keys_increment {s updated : Session} {key : String} {usage : Usage}
    (h : s.increment? key usage = some updated) : updated.keys = s.keys := by
  obtain ⟨counters, hcounters, rfl⟩ := Option.map_eq_some_iff.1 h
  exact map_fst_updateCounter? hcounters

/-! ## Totals -/

/-- Adds to the totals. -/
def addTotals (s : Session) (repositories files lines : Int) : Session :=
  { s with
    repositories := s.repositories + repositories
    files := s.files + files
    lines := s.lines + lines }

end Session
end FeatureCensus

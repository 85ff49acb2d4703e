import FeatureCensus.Json.Scalar
import FeatureCensus.Proofs.Counting.Entries
import FeatureCensus.World.Failure

/-!
# Second occurrences

The items that a list repeats are those at the positions with exactly one same item before them.
The search keeps what it has seen and what it has reported.  Of both only the classes of sameness
matter: a class is seen from its first occurrence on and reported from its second one on.  So a
catalog is refused for the keys that its declarations share, each named once.

Main results:

- Theorem {lit}`Repeats.IsInStep.concat`: what is seen and reported stays in step with the items.
- Theorem {lit}`Repeats.repeats_eq_seconds`: the repeated items are the second occurrences.
- Theorem {lit}`Repeats.holds_repeats_iff`: a value is among them if it occurs at least twice.
- Theorem {lit}`Repeats.repeats_tell_seconds`: second occurrences of items, and of keys in catalogs.
-/

namespace FeatureCensus
namespace Repeats

variable {α : Type} {same : α → α → Bool} {items before seen reported : List α} {x y : α}

/-! ## Occurrences -/

/-- That sameness is an equivalence among some items. -/
structure IsEquivalenceOn (same : α → α → Bool) (items : List α) : Prop where
  refl : ∀ x ∈ items, same x x = true
  symm : ∀ x ∈ items, ∀ y ∈ items, same x y = true → same y x = true
  trans : ∀ x ∈ items, ∀ y ∈ items, ∀ z ∈ items,
    same x y = true → same y z = true → same x z = true

/-- How many items are the same as a given one. -/
def occurrences (same : α → α → Bool) (items : List α) (x : α) : Nat :=
  items.countP fun y => same y x

/-- The items at the positions that have exactly one same item before them, where some items stand
before the list. -/
def secondsAfter (same : α → α → Bool) (before items : List α) : List α :=
  ((List.finRange items.length).filter fun i : Fin items.length =>
    occurrences same (before ++ items.take i) items[i] == 1).map fun i : Fin items.length =>
      items[i]

/-- The items at the positions that have exactly one same item before them. -/
def seconds (same : α → α → Bool) (items : List α) : List α :=
  ((List.finRange items.length).filter fun i : Fin items.length =>
    occurrences same (items.take i) items[i] == 1).map fun i : Fin items.length => items[i]

@[simp]
theorem secondsAfter_nil : secondsAfter same [] items = seconds same items := rfl

@[simp]
theorem holds_cons : holds same (x :: items) y = (same x y || holds same items y) := rfl

theorem occurrences_concat :
    occurrences same (items ++ [x]) y = occurrences same items y + if same x y then 1 else 0 := by
  simp [occurrences, List.countP_append, List.countP_singleton]

/-- Of a list and the items before it the first item is a second occurrence or not, and then it is
one of the items before the others. -/
theorem secondsAfter_cons (x : α) (rest : List α) :
    secondsAfter same before (x :: rest) =
      (if occurrences same before x = 1 then [x] else []) ++
        secondsAfter same (before ++ [x]) rest := by
  have hrest : ((List.finRange rest.length).map Fin.succ).filter
      (fun i : Fin (x :: rest).length =>
        occurrences same (before ++ (x :: rest).take i) (x :: rest)[i] == 1) =
        ((List.finRange rest.length).filter fun i : Fin rest.length =>
          occurrences same (before ++ [x] ++ rest.take i) rest[i] == 1).map Fin.succ := by
    rw [List.filter_map]
    congr 2
    funext i
    simp
  have hpositions : List.finRange (x :: rest).length =
      0 :: (List.finRange rest.length).map Fin.succ := List.finRange_succ
  rw [secondsAfter, hpositions, List.filter_cons, hrest]
  by_cases hcount : occurrences same before x = 1
  · simp [hcount, secondsAfter, Function.comp_def]
  · simp [hcount, secondsAfter, Function.comp_def]

/-! ## Classes of sameness -/

section Classes

variable (h : IsEquivalenceOn same items)
include h

/-- Same items are the same as the same items. -/
theorem same_congr {z : α} (hz : z ∈ items) (hx : x ∈ items) (hy : y ∈ items)
    (hsame : same x y = true) : same z x = same z y := by
  rw [Bool.eq_iff_iff]
  constructor
  · intro hzx
    exact h.trans z hz x hx y hy hzx hsame
  · intro hzy
    exact h.trans z hz y hy x hx hzy (h.symm x hx y hy hsame)

theorem holds_congr {part : List α} (hpart : part ⊆ items) (hx : x ∈ items) (hy : y ∈ items)
    (hsame : same x y = true) : holds same part x = holds same part y := by
  unfold holds
  induction part with
  | nil => rfl
  | cons z rest ih =>
    obtain ⟨hz, hrest⟩ := List.cons_subset.1 hpart
    rw [List.any_cons, List.any_cons, same_congr h hz hx hy hsame, ih hrest]

theorem occurrences_congr {part : List α} (hpart : part ⊆ items) (hx : x ∈ items)
    (hy : y ∈ items) (hsame : same x y = true) :
    occurrences same part x = occurrences same part y := by
  refine List.countP_congr ?_
  intro z hz
  rw [same_congr h (hpart hz) hx hy hsame]

end Classes

/-! ## The search -/

/-- That what is seen and what is reported are in step with the items before: a value is seen if it
occurs among them, and reported if it occurs at least twice. -/
structure IsInStep (same : α → α → Bool) (items before seen reported : List α) : Prop where
  before_subset : before ⊆ items
  seen_subset : seen ⊆ items
  reported_subset : reported ⊆ items
  seen_iff : ∀ y ∈ items, holds same seen y = true ↔ 1 ≤ occurrences same before y
  reported_iff : ∀ y ∈ items, holds same reported y = true ↔ 2 ≤ occurrences same before y

/-- At the beginning nothing is seen. -/
theorem IsInStep.nil : IsInStep same items [] [] [] where
  before_subset := List.nil_subset items
  seen_subset := List.nil_subset items
  reported_subset := List.nil_subset items
  seen_iff y _ := by simp [holds, occurrences]
  reported_iff y _ := by simp [holds, occurrences]

/-- What is seen and reported stays in step if it is right for the next item and does not change
for any item that is not the same. -/
theorem IsInStep.concat (h : IsEquivalenceOn same items)
    (hstep : IsInStep same items before seen reported) (hx : x ∈ items)
    {seenThen reportedThen : List α} (hseenThen : seenThen ⊆ items)
    (hreportedThen : reportedThen ⊆ items)
    (hothers : ∀ y, same x y = false →
      holds same seenThen y = holds same seen y ∧ holds same reportedThen y = holds same reported y)
    (hseen : holds same seenThen x = true)
    (hreported : holds same reportedThen x = true ↔ 1 ≤ occurrences same before x) :
    IsInStep same items (before ++ [x]) seenThen reportedThen where
  before_subset := List.append_subset.2 ⟨hstep.before_subset, by simpa using hx⟩
  seen_subset := hseenThen
  reported_subset := hreportedThen
  seen_iff y hy := by
    rw [occurrences_concat]
    cases hsame : same x y with
    | false => simpa [(hothers y hsame).1] using hstep.seen_iff y hy
    | true => simp [← holds_congr h hseenThen hx hy hsame, hseen]
  reported_iff y hy := by
    rw [occurrences_concat]
    cases hsame : same x y with
    | false => simpa [(hothers y hsame).2] using hstep.reported_iff y hy
    | true =>
      rw [← holds_congr h hreportedThen hx hy hsame, hreported,
        occurrences_congr h hstep.before_subset hx hy hsame, if_pos rfl]
      omega

/-- What is left of a list gives its second occurrences, counted with the items before. -/
theorem repeatsAfter_eq (h : IsEquivalenceOn same items) {rest : List α} (hrest : rest ⊆ items)
    (hstep : IsInStep same items before seen reported) :
    repeatsAfter same seen reported rest = secondsAfter same before rest := by
  induction rest generalizing before seen reported with
  | nil => rfl
  | cons x rest ih =>
    obtain ⟨hx, hrest⟩ := List.cons_subset.1 hrest
    have hself := h.refl x hx
    have hseen := hstep.seen_iff x hx
    have hreported := hstep.reported_iff x hx
    rw [repeatsAfter, secondsAfter_cons]
    by_cases hold : holds same seen x = true
    · have hone := hseen.1 hold
      rw [if_pos hold]
      by_cases htold : holds same reported x = true
      · -- A third or later occurrence is passed by.
        have htwo := hreported.1 htold
        have hnext : IsInStep same items (before ++ [x]) seen reported :=
          hstep.concat h hx hstep.seen_subset hstep.reported_subset (fun _ _ => ⟨rfl, rfl⟩) hold
            (iff_of_true htold hone)
        rw [if_pos htold, if_neg (by omega), ih hrest hnext, List.nil_append]
      · -- A second occurrence is reported.
        have hcount : occurrences same before x = 1 := by
          rw [hreported] at htold
          omega
        have hnext : IsInStep same items (before ++ [x]) seen (x :: reported) := by
          refine hstep.concat h hx hstep.seen_subset
            (List.cons_subset.2 ⟨hx, hstep.reported_subset⟩) ?_ hold ?_
          · intro y hy
            simp [hy]
          · simp [hself, hone]
        rw [if_neg htold, if_pos hcount, ih hrest hnext, List.singleton_append]
    · -- A first occurrence is only remembered.
      have hcount : occurrences same before x = 0 := by
        rw [hseen] at hold
        omega
      have hnext : IsInStep same items (before ++ [x]) (x :: seen) reported := by
        refine hstep.concat h hx (List.cons_subset.2 ⟨hx, hstep.seen_subset⟩)
          hstep.reported_subset ?_ ?_ ?_
        · intro y hy
          simp [hy]
        · simp [hself]
        · rw [hreported, hcount]
          omega
      rw [if_neg hold, if_neg (by omega), ih hrest hnext, List.nil_append]

/-- The repeated items are the second occurrences, in order of position. -/
theorem repeats_eq_seconds (h : IsEquivalenceOn same items) :
    repeats same items = seconds same items := by
  rw [repeats, repeatsAfter_eq h (List.Subset.refl items) .nil, secondsAfter_nil]

/-! ## The values that are reported -/

/-- What has been reported is not reported again. -/
theorem not_holds_of_mem_repeatsAfter (hx : x ∈ repeatsAfter same seen reported items) :
    holds same reported x = false := by
  induction items generalizing seen reported with
  | nil => cases hx
  | cons first rest ih =>
    rw [repeatsAfter] at hx
    split at hx
    · split at hx
      · exact ih hx
      · rename_i hnew
        rcases List.mem_cons.1 hx with rfl | hlater
        · simpa using hnew
        · have hboth := ih hlater
          rw [holds_cons, Bool.or_eq_false_iff] at hboth
          exact hboth.2
    · exact ih hx

theorem pairwise_repeatsAfter :
    (repeatsAfter same seen reported items).Pairwise fun x y => same x y = false := by
  induction items generalizing seen reported with
  | nil => exact .nil
  | cons first rest ih =>
    rw [repeatsAfter]
    split
    · split
      · exact ih
      · refine .cons ?_ ih
        intro later hlater
        have hboth := not_holds_of_mem_repeatsAfter hlater
        rw [holds_cons, Bool.or_eq_false_iff] at hboth
        exact hboth.1
    · exact ih

/-- Second occurrences are items. -/
theorem mem_of_mem_seconds (hx : x ∈ seconds same items) : x ∈ items := by
  rw [seconds, List.mem_map] at hx
  obtain ⟨i, -, rfl⟩ := hx
  exact List.getElem_mem i.isLt

/-- Where many items pass a test, one of them has a given smaller number of them before it. -/
theorem exists_position_iff (test : α → Bool) (k : Nat) :
    (∃ i : Fin items.length, test items[i] = true ∧ (items.take i).countP test = k) ↔
      k < items.countP test := by
  induction items generalizing k with
  | nil => simp
  | cons x rest ih =>
    simp only [List.length_cons, Fin.exists_fin_succ, Fin.getElem_fin, Fin.val_zero,
      List.getElem_cons_zero, List.take_zero, List.countP_nil, Fin.val_succ,
      List.getElem_cons_succ, List.take_succ_cons, List.countP_cons]
    cases hx : test x with
    | false => simpa using ih k
    | true =>
      cases k with
      | zero => simp
      | succ k => simpa using ih k

/-- A value is among the repeated items if it occurs at least twice. -/
theorem holds_repeats_iff (h : IsEquivalenceOn same items) (hx : x ∈ items) :
    holds same (repeats same items) x = true ↔ 2 ≤ occurrences same items x := by
  have hposition : _ ↔ 1 < items.countP fun y => same y x := exists_position_iff _ 1
  rw [repeats_eq_seconds h, holds, seconds, List.any_map, List.any_filter, List.any_eq_true,
    occurrences, Nat.succ_le_iff, ← hposition]
  refine exists_congr fun i => ?_
  simp only [List.mem_finRange, true_and, Function.comp_apply, Bool.and_eq_true, beq_iff_eq]
  rw [and_comm]
  refine and_congr_right fun hsame => ?_
  -- What is the same as the item at the position is what is the same as the value.
  have hpart : items.take i ⊆ items := List.take_subset i items
  have hitem : items[i] ∈ items := List.getElem_mem i.isLt
  rw [occurrences_congr (x := items[i]) h hpart hitem hx hsame, occurrences]

end Repeats

/-! ## Catalogs -/

namespace Session

open Repeats

variable {catalog : Catalog}

/-- Equality of keys is an equivalence. -/
theorem isEquivalenceOn_keys (keys : List String) : IsEquivalenceOn (fun a b => a == b) keys where
  refl _ _ := by simp
  symm x _ y _ hsame := by
    rw [beq_iff_eq] at hsame ⊢
    exact hsame.symm
  trans x _ y _ z _ hfirst hsecond := by
    rw [beq_iff_eq] at hfirst hsecond
    simp [hfirst, hsecond]

/-- A key is a second occurrence if it occurs at least twice. -/
theorem mem_seconds_keys_iff {keys : List String} {key : String} :
    key ∈ seconds (fun a b => a == b) keys ↔ 2 ≤ keys.count key := by
  by_cases hkey : key ∈ keys
  · have hkeys := isEquivalenceOn_keys keys
    have hholds := holds_repeats_iff hkeys hkey
    rw [repeats_eq_seconds hkeys, holds, List.any_beq'] at hholds
    simpa [occurrences, List.count] using hholds
  · rw [List.count_eq_zero.2 hkey]
    constructor
    · intro hmem
      exact absurd (mem_of_mem_seconds hmem) hkey
    · intro hcount
      omega

/-- The declarations of a catalog share no key if the keys are all different. -/
theorem nodup_keys_iff :
    catalog.keys.Nodup ↔ catalog.Pairwise fun spec later => spec.key ≠ later.key := by
  rw [Catalog.keys, List.Nodup, List.pairwise_map]

/-- A catalog with shared keys is refused for the second occurrences of its keys. -/
theorem ofCatalog_of_shared (h : ¬ catalog.keys.Nodup) (statsOnly : Bool) :
    ofCatalog catalog statsOnly =
      .error (.duplicateKeys (seconds (fun a b => a == b) catalog.keys)) := by
  have hsome : ¬ (duplicateKeys catalog).isEmpty = true := by
    intro hnone
    have hmade : ofCatalog catalog statsOnly = .ok (ofSpecs catalog statsOnly) := by
      rw [ofCatalog, if_pos hnone]
    exact h (nodup_keys_of_ofCatalog hmade)
  rw [ofCatalog, if_neg hsome, duplicateKeys, repeats_eq_seconds (isEquivalenceOn_keys _)]

end Session

namespace Repeats

/-- The repeated items are those at the positions with exactly one same item before them; no two of
them are the same, and a value is among them if it occurs at least twice.  So a session has an empty
counter for each declaration of its catalog, unless two of them share a key: then the catalog is
refused with the keys that occur at least twice, each once, in the order of second occurrences. -/
theorem repeats_tell_seconds {α : Type} {same : α → α → Bool} {items : List α}
    (h : IsEquivalenceOn same items) :
    (repeats same items = seconds same items ∧
      (repeats same items).Pairwise (fun x y => same x y = false) ∧
      ∀ x ∈ items, (holds same (repeats same items) x = true ↔ 2 ≤ occurrences same items x)) ∧
    ∀ (catalog : Catalog) (statsOnly : Bool),
      ((catalog.Pairwise fun spec later => spec.key ≠ later.key) →
        Session.ofCatalog catalog statsOnly =
          .ok { counters := catalog.map fun spec =>
                  (spec.key, { label := spec.label, tracks := spec.tracking.tracks statsOnly,
                               count := 0, projects := [], usages := #[] })
                repositories := 0, files := 0, lines := 0 }) ∧
      (¬ (catalog.Pairwise fun spec later => spec.key ≠ later.key) →
        ∃ keys, Session.ofCatalog catalog statsOnly = .error (.duplicateKeys keys) ∧
          (CatalogError.duplicateKeys keys).message =
            "Duplicate feature counter keys: " ++ ", ".intercalate keys ∧
          keys = seconds (fun a b => a == b) catalog.keys ∧ keys.Nodup ∧
          ∀ key, key ∈ keys ↔ 2 ≤ catalog.keys.count key) := by
  refine ⟨⟨repeats_eq_seconds h, pairwise_repeatsAfter, fun x hx => holds_repeats_iff h hx⟩, ?_⟩
  intro catalog statsOnly
  constructor
  · intro hdifferent
    exact Session.ofCatalog_eq_ok (Session.nodup_keys_iff.2 hdifferent) statsOnly
  · intro hshared
    rw [← Session.nodup_keys_iff] at hshared
    have hkeys := Session.isEquivalenceOn_keys catalog.keys
    refine ⟨_, Session.ofCatalog_of_shared hshared statsOnly, rfl, rfl, ?_, ?_⟩
    · rw [← repeats_eq_seconds hkeys]
      exact pairwise_repeatsAfter.imp fun hne => ne_of_beq_false hne
    · intro key
      exact Session.mem_seconds_keys_iff

/-! ## A mixed list -/

/-- Scalars, some of them the same though they are written differently. -/
def mixedItems : List Json :=
  [.bool true, .text "a", .integer 1, .text "a", .bool true, .integer 1]

theorem isEquivalenceOn_mixedItems : IsEquivalenceOn Json.sameScalar mixedItems where
  refl := by decide
  symm := by decide
  trans := by decide

/-- Declarations with the keys a, b, b, a and b. -/
def sharingCatalog : Catalog :=
  [⟨"a", "A", .never⟩, ⟨"b", "B", .never⟩, ⟨"b", "C", .never⟩, ⟨"a", "D", .never⟩,
    ⟨"b", "E", .never⟩]

/-- One is reported for the truth value before it, later occurrences are passed by, and of two keys
the one that is repeated first is named first. -/
theorem repeats_tell_seconds_mixedItems :
    IsEquivalenceOn Json.sameScalar mixedItems ∧
      repeats Json.sameScalar mixedItems = seconds Json.sameScalar mixedItems ∧
      seconds Json.sameScalar mixedItems = [.integer 1, .text "a"] ∧
      Session.ofCatalog sharingCatalog false = .error (.duplicateKeys ["b", "a"]) := by
  have htell := repeats_tell_seconds isEquivalenceOn_mixedItems
  refine ⟨isEquivalenceOn_mixedItems, htell.1.1, rfl, ?_⟩
  have hshared : ¬ sharingCatalog.Pairwise fun spec later => spec.key ≠ later.key := by decide
  obtain ⟨keys, hrefused, -, hkeys, -⟩ := (htell.2 sharingCatalog false).2 hshared
  rw [hrefused, hkeys]
  rfl

end Repeats
end FeatureCensus

import FeatureCensus.Files.Path
import FeatureCensus.Proofs.Text.Numerals
import FeatureCensus.Text.Stray
import Mathlib.Data.List.Basic
import Mathlib.Data.List.Induction
import Mathlib.Data.List.TakeWhile

/-!
# Paths of names

A path that leads on from a directory through names is the path of the directory, with a slash at
its end, followed by the names with slashes between them.  It has the components of both, leads to
the place of the directory followed by the names, and is seen from the directory as the names
alone.

Main results:

- Theorem {lit}`Path.components_ofNames`: names are the components of their path.
- Theorem {lit}`Path.exists_trunk`: the components of a path that leads on from a directory.
- Theorem {lit}`Path.join_ofNames`: a path that leads on through names.
- Theorem {lit}`Path.relativeTo_of_resolve`: such a path seen from the directory.
- Theorem {lit}`Path.exists_trimmed`: a path is its trimmed form with slashes behind it.
-/

namespace FeatureCensus

open Text

namespace Path

/-! ## Names -/

/-- Whether a text is the name of an entry of a directory. -/
structure IsName (name : String) : Prop where
  ne_empty : name ≠ ""
  ne_self : name ≠ "."
  ne_parent : name ≠ ".."
  noSlash : '/' ∉ name.toList
  noNull : '\x00' ∉ name.toList

instance (name : String) : Decidable (IsName name) :=
  decidable_of_iff (name ≠ "" ∧ name ≠ "." ∧ name ≠ ".." ∧ '/' ∉ name.toList ∧
      '\x00' ∉ name.toList)
    ⟨fun ⟨hempty, hself, hparent, hslash, hnull⟩ => ⟨hempty, hself, hparent, hslash, hnull⟩,
      fun h => ⟨h.ne_empty, h.ne_self, h.ne_parent, h.noSlash, h.noNull⟩⟩

/-- The path through names, with slashes between them. -/
def ofNames (names : List String) : String :=
  "/".intercalate names

variable {names : List String}

@[simp]
theorem ofNames_nil : ofNames [] = "" := rfl

@[simp]
theorem ofNames_singleton (name : String) : ofNames [name] = name := String.intercalate_singleton

theorem ofNames_cons {rest : List String} (h : rest ≠ []) (name : String) :
    ofNames (name :: rest) = name ++ "/" ++ ofNames rest := by
  obtain ⟨next, more, rfl⟩ := List.exists_cons_of_ne_nil h
  exact String.intercalate_cons_cons

/-- A path through further names. -/
theorem ofNames_append {more : List String} (h : names ≠ []) (hmore : more ≠ []) :
    ofNames (names ++ more) = ofNames names ++ "/" ++ ofNames more := by
  induction names with
  | nil => exact absurd rfl h
  | cons name rest ih =>
    cases rest with
    | nil => rw [List.singleton_append, ofNames_cons hmore, ofNames_singleton]
    | cons next later =>
      rw [List.cons_append, ofNames_cons (by simp), ofNames_cons (by simp), ih (by simp)]
      simp only [String.append_assoc]

/-- A character of a path through names is a slash or one of a name. -/
theorem mem_ofNames {c : Char} (h : c ∈ (ofNames names).toList) :
    c = '/' ∨ ∃ name ∈ names, c ∈ name.toList := by
  induction names with
  | nil => simp at h
  | cons name rest ih =>
    by_cases hrest : rest = []
    · subst hrest
      rw [ofNames_singleton] at h
      exact .inr ⟨name, List.mem_cons_self, h⟩
    · rw [ofNames_cons hrest, String.toList_append, String.toList_append, List.mem_append,
        List.mem_append] at h
      rcases h with (h | h) | h
      · exact .inr ⟨name, List.mem_cons_self, h⟩
      · exact .inl (by simpa using h)
      · exact (ih h).imp_right fun ⟨other, hother, hc⟩ => ⟨other, List.mem_cons_of_mem _ hother, hc⟩

/-- The characters of a name are among those of a path through it. -/
theorem mem_ofNames_of_mem {name : String} {c : Char} (hname : name ∈ names)
    (hc : c ∈ name.toList) : c ∈ (ofNames names).toList := by
  induction names with
  | nil => cases hname
  | cons first rest ih =>
    by_cases hrest : rest = []
    · rw [hrest, List.mem_singleton] at hname
      rwa [hrest, ofNames_singleton, ← hname]
    · rw [ofNames_cons hrest, String.toList_append, String.toList_append, List.mem_append]
      rcases List.mem_cons.1 hname with rfl | hlater
      · exact .inl (List.mem_append_left _ hc)
      · exact .inr (ih hlater)

/-- No path through texts that are not empty and have no slashes is absolute. -/
theorem head?_ofNames_of_noSlash (h : ∀ name ∈ names, name ≠ "" ∧ '/' ∉ name.toList) :
    (ofNames names).toList.head? ≠ some '/' := by
  cases names with
  | nil => simp
  | cons name rest =>
    obtain ⟨hname, hslash⟩ := h name List.mem_cons_self
    obtain ⟨c, cs, hcs⟩ := List.exists_cons_of_ne_nil
      (fun hnil => hname (String.toList_eq_nil_iff.1 hnil))
    have hc : c ≠ '/' := by
      rintro rfl
      exact hslash (hcs ▸ List.mem_cons_self)
    by_cases hrest : rest = []
    · subst hrest
      simpa [hcs] using hc
    · simpa [ofNames_cons hrest, hcs] using hc

theorem head?_ofNames (h : ∀ name ∈ names, IsName name) :
    (ofNames names).toList.head? ≠ some '/' :=
  head?_ofNames_of_noSlash fun name hname => ⟨(h name hname).ne_empty, (h name hname).noSlash⟩

/-! ## Components -/

theorem components_ne_nil (path : String) : components path ≠ [] := by
  rw [components, Ne, List.map_eq_nil_iff]
  obtain ⟨field, more, hfields⟩ := exists_fields_eq_cons isSlash path.toList
  rw [hfields]
  exact List.cons_ne_nil field more

/-- A slash separates components. -/
theorem components_append_slash (before after : String) :
    components (before ++ "/" ++ after) = components before ++ components after := by
  have hslash : (before ++ "/" ++ after).toList = before.toList ++ '/' :: after.toList := by
    simp
  rw [components, hslash, fields_append_separator rfl, List.map_append]
  rfl

theorem components_of_noSlash {name : String} (h : '/' ∉ name.toList) :
    components name = [name] := by
  have hfields : fields isSlash name.toList = [name.toList] := by
    refine fields_eq_singleton fun c hc => ?_
    rw [isSlash, beq_eq_false_iff_ne]
    rintro rfl
    exact h hc
  rw [components, hfields, List.map_singleton, String.ofList_toList]

theorem noSlash_of_mem_components {path component : String} (h : component ∈ components path) :
    '/' ∉ component.toList := by
  obtain ⟨field, hfield, rfl⟩ := List.mem_map.1 h
  intro hslash
  rw [String.toList_ofList] at hslash
  cases not_mem_of_mem_fields hfield hslash

/-- Names are the components of their path. -/
theorem components_ofNames (hne : names ≠ []) (h : ∀ name ∈ names, '/' ∉ name.toList) :
    components (ofNames names) = names := by
  induction names with
  | nil => exact absurd rfl hne
  | cons name rest ih =>
    have hname := components_of_noSlash (h name List.mem_cons_self)
    by_cases hrest : rest = []
    · rw [hrest, ofNames_singleton, hname]
    · rw [ofNames_cons hrest, components_append_slash, hname,
        ih hrest fun other hother => h other (List.mem_cons_of_mem name hother)]
      rfl

/-- A path leads through its components. -/
theorem ofNames_components (path : String) : ofNames (components path) = path := by
  have hfields : ∀ cs : List Char, ofNames ((fields isSlash cs).map String.ofList) =
      String.ofList cs := by
    intro cs
    induction cs with
    | nil => rfl
    | cons c rest ih =>
      obtain ⟨field, more, hrest⟩ := exists_fields_eq_cons isSlash rest
      rw [hrest, List.map_cons] at ih
      by_cases hc : isSlash c
      · obtain rfl : c = '/' := eq_of_beq hc
        rw [fields_cons_of_pos hc, hrest, List.map_cons, List.map_cons, ofNames_cons (by simp), ih,
          ← String.toList_inj]
        simp
      · rw [fields_cons_of_neg (by simpa using hc) hrest, List.map_cons]
        by_cases hmore : more = []
        · subst hmore
          rw [List.map_nil, ofNames_singleton] at ih ⊢
          rw [← String.toList_inj] at ih ⊢
          simpa using ih
        · rw [ofNames_cons (by simpa using hmore)] at ih ⊢
          rw [← String.toList_inj] at ih ⊢
          simpa using ih
  rw [components, hfields, String.ofList_toList]

/-- The characters of a component are among those of the path. -/
theorem mem_of_mem_component {path component : String} (h : component ∈ components path) {c : Char}
    (hc : c ∈ component.toList) : c ∈ path.toList := by
  rw [← ofNames_components path]
  exact mem_ofNames_of_mem h hc

/-- Paths through different names are different. -/
theorem ofNames_injective {others : List String} (hne : names ≠ []) (hothers : others ≠ [])
    (h : ∀ name ∈ names, IsName name) (hother : ∀ name ∈ others, IsName name)
    (heq : ofNames names = ofNames others) : names = others := by
  rw [← components_ofNames hne fun name hname => (h name hname).noSlash, heq,
    components_ofNames hothers fun name hname => (hother name hname).noSlash]

/-! ## Leading on -/

/-- A path with a slash at its end. -/
def slashed (path : String) : String :=
  if path.toList.getLast? == some '/' then path else path ++ "/"

theorem slashed_of_getLast? {path : String} (h : path.toList.getLast? = some '/') :
    slashed path = path := by
  rw [slashed, if_pos (by simp [h])]

theorem slashed_of_ne {path : String} (h : path.toList.getLast? ≠ some '/') :
    slashed path = path ++ "/" := by
  rw [slashed, if_neg (by simp [h])]

theorem getLast?_slashed (path : String) : (slashed path).toList.getLast? = some '/' := by
  by_cases h : path.toList.getLast? = some '/'
  · rw [slashed_of_getLast? h, h]
  · rw [slashed_of_ne h]
    simp

theorem not_mem_slashed {c : Char} (hc : c ≠ '/') {path : String} (h : c ∉ path.toList) :
    c ∉ (slashed path).toList := by
  by_cases hlast : path.toList.getLast? = some '/'
  · rwa [slashed_of_getLast? hlast]
  · rw [slashed_of_ne hlast, String.toList_append, List.mem_append, not_or]
    exact ⟨h, by simpa using hc⟩

/-- A path that leads on from another one. -/
theorem join_eq {path rest : String} (hpath : path ≠ "") (hrest : rest.toList.head? ≠ some '/') :
    join path rest = slashed path ++ rest := by
  have hne : path.toList.isEmpty = false := by
    rw [List.isEmpty_eq_false_iff]
    exact fun hnil => hpath (String.toList_eq_nil_iff.1 hnil)
  rw [join, joinChars, if_neg (by simpa using hrest), hne, Bool.false_or, ← String.toList_inj]
  by_cases h : path.toList.getLast? = some '/'
  · simp [h, slashed_of_getLast? h]
  · simp [h, slashed_of_ne h]

/-- A path that leads on through names. -/
theorem join_ofNames {path : String} (hpath : path ≠ "") (h : ∀ name ∈ names, IsName name) :
    join path (ofNames names) = slashed path ++ ofNames names :=
  join_eq hpath (head?_ofNames h)

/-- A path that leads on has the components of a trunk before those that it leads on through.  The
trunk are those of the path itself, but for an empty one at the end. -/
theorem exists_trunk (path : String) :
    ∃ trunk, (components path = trunk ∨ components path = trunk ++ [""]) ∧
      ∀ rest, components (slashed path ++ rest) = trunk ++ components rest := by
  by_cases h : path.toList.getLast? = some '/'
  · obtain ⟨base, hbase⟩ := List.getLast?_eq_some_iff.1 h
    have hpath : path = String.ofList base ++ "/" := by
      rw [← String.toList_inj, hbase]
      simp
    refine ⟨components (String.ofList base), .inr ?_, fun rest => ?_⟩
    · have hempty := components_append_slash (String.ofList base) ""
      rwa [String.append_empty, ← hpath] at hempty
    · rw [slashed_of_getLast? h, hpath, components_append_slash]
  · refine ⟨components path, .inl rfl, fun rest => ?_⟩
    rw [slashed_of_ne h, components_append_slash]

/-- No path through names ends with a slash. -/
theorem getLast?_ofNames (hne : names ≠ []) (h : ∀ name ∈ names, IsName name) (before : String) :
    (before ++ ofNames names).toList.getLast? ≠ some '/' := by
  have hlast : ∃ c, (ofNames names).toList.getLast? = some c ∧ c ≠ '/' := by
    obtain ⟨init, last, rfl⟩ := (List.eq_nil_or_concat' names).resolve_left hne
    have hname := h last (by simp)
    obtain ⟨cs, c, hcs⟩ := (List.eq_nil_or_concat' last.toList).resolve_left
      fun hnil => hname.ne_empty (String.toList_eq_nil_iff.1 hnil)
    refine ⟨c, ?_, ?_⟩
    · by_cases hinit : init = []
      · rw [hinit, List.nil_append, ofNames_singleton, hcs, List.getLast?_concat]
      · rw [ofNames_append hinit (by simp), ofNames_singleton, String.toList_append, hcs,
          ← List.append_assoc, List.getLast?_concat]
    · rintro rfl
      exact hname.noSlash (by simp [hcs])
  obtain ⟨c, hc, hne⟩ := hlast
  rw [String.toList_append, List.getLast?_append, hc, Option.some_or]
  simpa using hne

theorem slashed_ne_empty (path : String) : slashed path ≠ "" := by
  intro h
  have hlast := getLast?_slashed path
  rw [h] at hlast
  cases hlast

theorem ofNames_ne_empty (hne : names ≠ []) (h : ∀ name ∈ names, IsName name) :
    ofNames names ≠ "" := by
  cases names with
  | nil => exact absurd rfl hne
  | cons name rest =>
    have hname := (h name List.mem_cons_self).ne_empty
    by_cases hrest : rest = []
    · rwa [hrest, ofNames_singleton]
    · rw [ofNames_cons hrest, Ne, String.append_eq_empty_iff, String.append_eq_empty_iff]
      exact fun hempty => hname hempty.1.1

theorem head?_of_isName {name : String} (h : IsName name) : name.toList.head? ≠ some '/' := by
  have hhead := head?_ofNames (List.forall_mem_singleton.2 h)
  rwa [ofNames_singleton] at hhead

/-- From where a path comes to through names, it leads on through further names. -/
theorem join_append_ofNames {name : String} (hne : names ≠ []) (h : ∀ name ∈ names, IsName name)
    (hname : IsName name) (before : String) :
    join (before ++ ofNames names) name = before ++ ofNames (names ++ [name]) := by
  have hpath : before ++ ofNames names ≠ "" := by
    rw [Ne, String.append_eq_empty_iff]
    exact fun hempty => ofNames_ne_empty hne h hempty.2
  rw [join_eq hpath (head?_of_isName hname), slashed_of_ne (getLast?_ofNames hne h _),
    ofNames_append hne (by simp), ofNames_singleton]
  simp only [String.append_assoc]

/-- A path that leads on through names leads on from where it comes to. -/
theorem join_join_ofNames {path name : String} (hpath : path ≠ "")
    (h : ∀ name ∈ names, IsName name) (hname : IsName name) :
    join (join path (ofNames names)) name = join path (ofNames (names ++ [name])) := by
  have hall : ∀ other ∈ names ++ [name], IsName other :=
    List.forall_mem_append.2 ⟨h, List.forall_mem_singleton.2 hname⟩
  rw [join_ofNames hpath h, join_ofNames hpath hall]
  by_cases hnames : names = []
  · rw [hnames, ofNames_nil, String.append_empty,
      join_eq (slashed_ne_empty path) (head?_of_isName hname),
      slashed_of_getLast? (getLast?_slashed path), List.nil_append, ofNames_singleton]
  · exact join_append_ofNames hnames h hname _

/-! ## Resolving -/

/-- A name leads from a place to its entry of that name. -/
theorem resolveName_of_isName {name : String} (h : IsName name) (place : Location) :
    resolveName place name = place ++ [name] := by
  rw [resolveName, if_neg (by simp [h.ne_empty, h.ne_self]), if_neg (by simp [h.ne_parent])]

theorem namesBetween_append (place : Location) (names : List String) :
    namesBetween place (place ++ names) = names := by
  induction place with
  | nil => cases names <;> rfl
  | cons name rest ih => rw [List.cons_append, namesBetween, if_pos (by simp), ih]

/-- Joined components are the path through them. -/
theorem foldl_join_eq {path : String} (hpath : path ≠ "") (hlast : path.toList.getLast? ≠ some '/')
    (h : ∀ name ∈ names, name ≠ "" ∧ '/' ∉ name.toList) :
    names.foldl join path = ofNames (path :: names) := by
  induction names generalizing path with
  | nil => rw [List.foldl_nil, ofNames_singleton]
  | cons next later ih =>
    obtain ⟨hnext, hslash⟩ := h next List.mem_cons_self
    obtain ⟨cs, c, hcs⟩ := (List.eq_nil_or_concat' next.toList).resolve_left
      fun hnil => hnext (String.toList_eq_nil_iff.1 hnil)
    have hhead : next.toList.head? ≠ some '/' :=
      fun hmem => hslash (List.mem_of_head? hmem)
    have hjoin : join path next = path ++ "/" ++ next := by
      rw [join_eq hpath hhead, slashed_of_ne hlast]
    have hend : (path ++ "/" ++ next).toList.getLast? ≠ some '/' := by
      rw [String.toList_append, hcs, ← List.append_assoc, List.getLast?_concat]
      rintro ⟨⟩
      exact hslash (by simp [hcs])
    rw [List.foldl_cons, hjoin,
      ih (by simp [String.append_eq_empty_iff]) hend fun other hother =>
        h other (List.mem_cons_of_mem next hother)]
    by_cases hlater : later = []
    · rw [hlater, ofNames_cons (List.cons_ne_nil next []), ofNames_singleton, ofNames_singleton]
    · rw [ofNames_cons hlater, ofNames_cons (by simp), ofNames_cons hlater]
      simp only [String.append_assoc]

/-- A path is seen from a directory as the path through the names between them. -/
theorem relativeTo_eq {start path : String}
    (hne : namesBetween (resolve start) (resolve path) ≠ [])
    (h : ∀ name ∈ namesBetween (resolve start) (resolve path), name ≠ "" ∧ '/' ∉ name.toList) :
    relativeTo start path = ofNames (namesBetween (resolve start) (resolve path)) := by
  obtain ⟨name, rest, hnames⟩ := List.exists_cons_of_ne_nil hne
  rw [hnames] at h
  obtain ⟨hname, hslash⟩ := h name List.mem_cons_self
  rw [relativeTo, hnames]
  exact foldl_join_eq hname (fun hlast => hslash (List.mem_of_getLast? hlast)) fun other hother =>
    h other (List.mem_cons_of_mem name hother)

/-- A path that leads on through names is seen from the directory as the path through the names. -/
theorem relativeTo_of_resolve {start path : String} (hne : names ≠ [])
    (h : ∀ name ∈ names, IsName name) (hpath : resolve path = resolve start ++ names) :
    relativeTo start path = ofNames names := by
  have hbetween : namesBetween (resolve start) (resolve path) = names := by
    rw [hpath, namesBetween_append]
  rw [relativeTo_eq (hbetween ▸ hne), hbetween]
  intro name hname
  rw [hbetween] at hname
  exact ⟨(h name hname).ne_empty, (h name hname).noSlash⟩

/-! ## Trimmed paths -/

theorem exists_eq_append_slashes (cs : List Char) :
    ∃ base k, cs = base ++ List.replicate k '/' ∧ base.getLast? ≠ some '/' := by
  induction cs using List.reverseRecOn with
  | nil => exact ⟨[], 0, rfl, by simp⟩
  | append_singleton init c ih =>
    by_cases hc : c = '/'
    · obtain ⟨base, k, rfl, hbase⟩ := ih
      refine ⟨base, k + 1, ?_, hbase⟩
      rw [hc, List.append_assoc, List.replicate_succ']
    · exact ⟨init ++ [c], 0, by simp, by simpa using hc⟩

theorem dropTrailingSlashes_append {base : List Char} (hne : base ≠ [])
    (hbase : base.getLast? ≠ some '/') (k : Nat) :
    dropTrailingSlashes (base ++ List.replicate k '/') = base := by
  obtain ⟨init, c, rfl⟩ := (List.eq_nil_or_concat' base).resolve_left hne
  have hc : isSlash c = false := by
    simpa [isSlash] using hbase
  have hnotall : (init ++ [c] ++ List.replicate k '/').all isSlash = false := by
    simp [hc]
  have hdrop : (List.replicate k '/').dropWhile isSlash = [] := by
    rw [List.dropWhile_eq_nil_iff]
    intro d hd
    rw [List.eq_of_mem_replicate hd]
    rfl
  rw [dropTrailingSlashes, hnotall, if_neg Bool.false_ne_true, List.reverse_append,
    List.reverse_replicate, List.dropWhile_append, hdrop]
  simp [hc]

theorem dropTrailingSlashes_replicate (k : Nat) :
    dropTrailingSlashes (List.replicate k '/') = List.replicate k '/' := by
  rw [dropTrailingSlashes, if_pos]
  rw [List.all_eq_true]
  intro c hc
  rw [List.eq_of_mem_replicate hc]
  rfl

theorem mem_of_mem_dropTrailingSlashes {cs : List Char} {c : Char}
    (h : c ∈ dropTrailingSlashes cs) : c ∈ cs := by
  rw [dropTrailingSlashes] at h
  split at h
  · exact h
  · exact List.mem_reverse.1 ((List.dropWhile_sublist isSlash).subset (List.mem_reverse.1 h))

/-- A path without the slashes at its end, unless it has nothing else. -/
def trimmed (path : String) : String :=
  String.ofList (dropTrailingSlashes (slashed path).toList)

/-- A path is its trimmed form with slashes behind it. -/
theorem exists_trimmed {path : String} (hpath : path ≠ "") :
    trimmed path ≠ "" ∧ ∃ k, path = trimmed path ++ String.ofList (List.replicate k '/') := by
  obtain ⟨base, k, hcs, hbase⟩ := exists_eq_append_slashes path.toList
  by_cases hne : base = []
  · -- There are only slashes, and at least one, so nothing is trimmed.
    rw [hne, List.nil_append] at hcs
    have hk : k ≠ 0 := by
      rintro rfl
      exact hpath (String.toList_eq_nil_iff.1 hcs)
    have hlast : path.toList.getLast? = some '/' := by
      rw [hcs, List.getLast?_replicate, if_neg hk]
    have htrimmed : trimmed path = path := by
      rw [trimmed, slashed_of_getLast? hlast, hcs, dropTrailingSlashes_replicate, ← hcs,
        String.ofList_toList]
    exact ⟨by rwa [htrimmed], 0, by rw [htrimmed]; simp⟩
  · have hslashed : ∃ m, (slashed path).toList = base ++ List.replicate m '/' := by
      by_cases hlast : path.toList.getLast? = some '/'
      · exact ⟨k, by rw [slashed_of_getLast? hlast, hcs]⟩
      · refine ⟨k + 1, ?_⟩
        rw [slashed_of_ne hlast, String.toList_append, hcs, List.append_assoc,
          List.replicate_succ']
        rfl
    obtain ⟨m, hm⟩ := hslashed
    have htrimmed : trimmed path = String.ofList base := by
      rw [trimmed, hm, dropTrailingSlashes_append hne hbase]
    rw [htrimmed]
    refine ⟨fun hempty => hne ?_, k, ?_⟩
    · simpa [← String.toList_inj] using hempty
    · rw [← String.ofList_append, ← hcs, String.ofList_toList]

/-- A path that leads on from a trimmed path is no longer than from the path itself. -/
theorem size_join_trimmed_le (strays : Strays) {path : String} (hpath : path ≠ "")
    (h : ∀ name ∈ names, IsName name) :
    strays.byteSize (join (trimmed path) (ofNames names)) ≤
      strays.byteSize (join path (ofNames names)) := by
  obtain ⟨htrimmed, k, hk⟩ := exists_trimmed hpath
  have hslash : ∀ other : String, strays.byteSize (slashed other) ≤ strays.byteSize other + 1 := by
    intro other
    by_cases hlast : other.toList.getLast? = some '/'
    · rw [slashed_of_getLast? hlast]
      omega
    · rw [slashed_of_ne hlast, Strays.byteSize_append, Strays.byteSize_slash]
  rw [join_ofNames htrimmed h, join_ofNames hpath h, Strays.byteSize_append,
    Strays.byteSize_append]
  refine Nat.add_le_add_right ?_ _
  by_cases hzero : k = 0
  · rw [hzero] at hk
    simp only [List.replicate_zero, String.ofList_nil, String.append_empty] at hk
    rw [← hk]
  · -- What is trimmed makes room for the slash.
    have hlast : path.toList.getLast? = some '/' := by
      rw [hk, String.toList_append, List.getLast?_append, String.toList_ofList,
        List.getLast?_replicate, if_neg hzero]
      rfl
    have hsize : 0 < strays.byteSize (String.ofList (List.replicate k '/')) := by
      rw [Nat.pos_iff_ne_zero, Ne, Strays.byteSize_eq_zero_iff, ← String.toList_eq_nil_iff]
      simpa using hzero
    have hsum := congrArg strays.byteSize hk
    rw [Strays.byteSize_append] at hsum
    have htrim := hslash (trimmed path)
    rw [slashed_of_getLast? hlast]
    omega

end Path
end FeatureCensus

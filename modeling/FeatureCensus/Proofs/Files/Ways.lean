import FeatureCensus.Proofs.Files.Paths

/-!
# Ways of paths

Empty components and dots lead nowhere, so that a path comes to where its plain components lead.
The plain components of the path above another one begin those of that one.  From a directory one
comes to a place through the names between them, some of which may lead up.

Main results:

- Theorem {lit}`Path.resolve_eq`: a path comes to where its plain components lead.
- Theorem {lit}`Path.plain_parent`: the plain components of the path above another one.
- Theorem {lit}`Path.resolve_join`: where a path comes to that leads on without leading up.
- Theorem {lit}`Path.resolve_join_relativeTo`: a path that is seen from a directory leads on from
  there to where it leads.
-/

namespace FeatureCensus

open Text

namespace Path

/-! ## Plain components -/

/-- Whether a component leads anywhere. -/
def isPlain (component : String) : Bool :=
  component != "" && component != "."

/-- The components of a path that lead anywhere. -/
def plain (path : String) : List String :=
  (components path).filter isPlain

/-- Whether a path never leads up. -/
def IsStraight (path : String) : Prop :=
  ".." ∉ components path

instance (path : String) : Decidable (IsStraight path) :=
  inferInstanceAs (Decidable (".." ∉ components path))

variable {path rest component : String} {cs : List Char} {place : Location} {names : List String}

theorem isStraight_iff : IsStraight path ↔ ".." ∉ plain path := by
  simp [IsStraight, plain, isPlain]

theorem resolveName_of_not_isPlain (h : isPlain component = false) :
    resolveName place component = place := by
  have hself : component = "" ∨ component = "." := by
    by_contra hneither
    rw [not_or] at hneither
    simp [isPlain, hneither] at h
  rw [resolveName, if_pos (by simpa using hself)]

theorem resolveName_of_isPlain (h : isPlain component = true) (hup : component ≠ "..") :
    resolveName place component = place ++ [component] := by
  rw [isPlain, Bool.and_eq_true, bne_iff_ne, bne_iff_ne] at h
  rw [resolveName, if_neg (by simp [h]), if_neg (by simpa using hup)]

theorem resolveFrom_filter (names : List String) (place : Location) :
    resolveFrom place (names.filter isPlain) = resolveFrom place names := by
  induction names generalizing place with
  | nil => rfl
  | cons name rest ih =>
    cases hname : isPlain name with
    | true =>
      rw [List.filter_cons_of_pos hname]
      exact ih _
    | false =>
      rw [List.filter_cons_of_neg (by simp [hname]), ih]
      exact congrArg (resolveFrom · rest) (resolveName_of_not_isPlain hname).symm

theorem resolveFrom_plain (h : ∀ name ∈ names, isPlain name = true) (hup : ".." ∉ names)
    (place : Location) : resolveFrom place names = place ++ names := by
  induction names generalizing place with
  | nil => rw [List.append_nil]; rfl
  | cons name rest ih =>
    rw [List.mem_cons, not_or] at hup
    have hname : resolveName place name = place ++ [name] :=
      resolveName_of_isPlain (h name List.mem_cons_self) fun heq => hup.1 heq.symm
    have hrest := ih (fun other hother => h other (List.mem_cons_of_mem name hother)) hup.2
    calc resolveFrom place (name :: rest) = resolveFrom (resolveName place name) rest := rfl
      _ = place ++ [name] ++ rest := by rw [hname, hrest]
      _ = place ++ name :: rest := by simp

/-- A path comes to where its plain components lead. -/
theorem resolve_eq (path : String) : resolve path = resolveFrom (origin path) (plain path) :=
  (resolveFrom_filter _ _).symm

/-! ## Slashes -/

theorem plain_append_slash (before after : List Char) :
    plain (String.ofList (before ++ '/' :: after)) =
      plain (String.ofList before) ++ plain (String.ofList after) := by
  have hslash : String.ofList (before ++ '/' :: after) =
      String.ofList before ++ "/" ++ String.ofList after := by
    rw [← String.toList_inj]
    simp
  rw [plain, hslash, components_append_slash, List.filter_append]
  rfl

theorem plain_append_replicate (cs : List Char) (k : Nat) :
    plain (String.ofList (cs ++ List.replicate k '/')) = plain (String.ofList cs) := by
  induction k generalizing cs with
  | zero => simp
  | succ k ih =>
    have hnone : plain (String.ofList (List.replicate k '/')) = [] := ih []
    rw [List.replicate_succ, plain_append_slash, hnone, List.append_nil]

/-- What slashes at the end are dropped from begins as before and has the same plain components. -/
theorem dropTrailingSlashes_same (cs : List Char) :
    (dropTrailingSlashes cs).head? = cs.head? ∧
      plain (String.ofList (dropTrailingSlashes cs)) = plain (String.ofList cs) := by
  obtain ⟨base, k, rfl, hbase⟩ := exists_eq_append_slashes cs
  by_cases hne : base = []
  · rw [hne, List.nil_append, dropTrailingSlashes_replicate]
    exact ⟨rfl, rfl⟩
  · rw [dropTrailingSlashes_append hne hbase, plain_append_replicate]
    obtain ⟨c, more, rfl⟩ := List.exists_cons_of_ne_nil hne
    exact ⟨rfl, rfl⟩

theorem origin_of_head? {other : String} (h : path.toList.head? = other.toList.head?) :
    origin path = origin other := by
  rw [origin, origin, isAbsolute, isAbsolute, h]

/-! ## Paths above -/

/-- The last component follows what stands before it, which ends with a slash, if it is there. -/
theorem exists_split (cs : List Char) :
    ∃ before, cs = before ++ (split cs).2 ∧ (split cs).1 = dropTrailingSlashes before ∧
      '/' ∉ (split cs).2 ∧ (before = [] ∨ ∃ init, before = init ++ ['/']) := by
  refine ⟨(cs.reverse.dropWhile (!isSlash ·)).reverse, ?_, rfl, ?_, ?_⟩
  · rw [split, ← List.reverse_append, List.takeWhile_append_dropWhile, List.reverse_reverse]
  · intro hslash
    have hno := List.mem_takeWhile_imp (List.mem_reverse.1 hslash)
    cases hno
  · cases hdrop : cs.reverse.dropWhile (!isSlash ·) with
    | nil => exact .inl rfl
    | cons c more =>
      have hc : isSlash c = true := by
        have hhead := List.head?_dropWhile_not (!isSlash ·) cs.reverse
        rw [hdrop] at hhead
        simpa using hhead
      obtain rfl : c = '/' := eq_of_beq hc
      exact .inr ⟨more.reverse, List.reverse_cons⟩

theorem plain_split (cs : List Char) :
    plain (String.ofList cs) =
      plain (String.ofList (split cs).1) ++ plain (String.ofList (split cs).2) := by
  obtain ⟨before, hcs, hfirst, -, hbefore⟩ := exists_split cs
  rw [hfirst, (dropTrailingSlashes_same before).2]
  rcases hbefore with rfl | ⟨init, rfl⟩
  · rw [List.nil_append] at hcs
    rw [← hcs]
    rfl
  · have hinit : plain (String.ofList (init ++ ['/'])) = plain (String.ofList init) :=
      plain_append_replicate init 1
    rw [hinit, ← plain_append_slash]
    exact congrArg (fun cs => plain (String.ofList cs)) (hcs.trans (List.append_cons _ _ _).symm)

theorem origin_split (cs : List Char) :
    origin (String.ofList (split cs).1) = origin (String.ofList cs) := by
  obtain ⟨before, hcs, hfirst, hlast, hbefore⟩ := exists_split cs
  have hhead : (split cs).1.head? = before.head? := by
    rw [hfirst]
    exact (dropTrailingSlashes_same before).1
  rcases hbefore with rfl | ⟨init, rfl⟩
  · rw [List.nil_append] at hcs
    have hrelative : isAbsolute (String.ofList cs) = false := by
      rw [isAbsolute, String.toList_ofList, beq_eq_false_iff_ne]
      intro hslash
      rw [hcs] at hslash
      exact hlast (List.mem_of_mem_head? hslash)
    rw [List.head?_nil, List.head?_eq_none_iff] at hhead
    rw [hhead, origin, origin, hrelative]
    rfl
  · refine origin_of_head? ?_
    rw [String.toList_ofList, String.toList_ofList, hhead]
    conv_rhs => rw [hcs]
    cases init <;> rfl

theorem plain_parent (cs : List Char) :
    plain (String.ofList (parentAndName cs).1) <+: plain (String.ofList cs) := by
  have hsplit : ∀ cs : List Char,
      plain (String.ofList (split cs).1) <+: plain (String.ofList cs) := fun cs =>
    ⟨_, (plain_split cs).symm⟩
  rw [parentAndName]
  split
  · exact (hsplit _).trans (hsplit cs)
  · exact hsplit cs

theorem origin_parent (cs : List Char) :
    origin (String.ofList (parentAndName cs).1) = origin (String.ofList cs) := by
  rw [parentAndName]
  split
  · rw [origin_split, origin_split]
  · exact origin_split cs

theorem getLast?_components (path : String) :
    (components path).getLast? = some (String.ofList (split path.toList).2) := by
  obtain ⟨before, hcs, -, hlast, hbefore⟩ := exists_split path.toList
  have hcomponent : components (String.ofList (split path.toList).2) =
      [String.ofList (split path.toList).2] :=
    components_of_noSlash (by rwa [String.toList_ofList])
  rcases hbefore with rfl | ⟨init, rfl⟩
  · rw [List.nil_append] at hcs
    rw [← hcs, String.ofList_toList] at hcomponent
    rw [hcomponent, ← hcs, String.ofList_toList]
    rfl
  · have hpath : path = String.ofList init ++ "/" ++ String.ofList (split path.toList).2 := by
      rw [← String.toList_inj]
      simpa using hcs
    conv_lhs => rw [hpath]
    rw [components_append_slash, hcomponent, List.getLast?_concat]

/-- A path whose last component is not empty has no slash at its end, and that component is its
name. -/
theorem parentAndName_of_components {init : List String} {last : String}
    (h : components path = init ++ [last]) (hlast : last ≠ "") :
    (parentAndName path.toList).2 = last.toList ∧
      dropTrailingSlashes path.toList = path.toList := by
  have hname := getLast?_components path
  rw [h, List.getLast?_concat] at hname
  obtain rfl := Option.some.inj hname
  have hne : (split path.toList).2 ≠ [] := by
    intro hnil
    rw [hnil] at hlast
    exact hlast rfl
  refine ⟨?_, ?_⟩
  · rw [parentAndName, if_neg (by simpa using hne), String.toList_ofList]
  · obtain ⟨before, hcs, -, hnoslash, -⟩ := exists_split path.toList
    have hend : path.toList.getLast? ≠ some '/' := by
      intro hslash
      rw [hcs, List.getLast?_append_of_ne_nil _ hne] at hslash
      exact hnoslash (List.mem_of_getLast? hslash)
    have hpath : path.toList ≠ [] := by
      rw [hcs]
      exact List.append_ne_nil_of_right_ne_nil _ hne
    simpa using dropTrailingSlashes_append hpath hend 0

/-! ## Leading on -/

theorem head?_ne_of_isAbsolute (h : isAbsolute rest = false) : rest.toList.head? ≠ some '/' := by
  rwa [isAbsolute, beq_eq_false_iff_ne] at h

/-- A path that leads on has its own components last, after plain ones of the path it leads on
from. -/
theorem exists_components_join (path : String) (h : isAbsolute rest = false) :
    ∃ trunk, components (join path rest) = trunk ++ components rest ∧
      trunk.filter isPlain = plain path := by
  by_cases hpath : path = ""
  · refine ⟨[], ?_, by rw [hpath]; rfl⟩
    have hhead : (rest.toList.head? == some '/') = false := h
    rw [hpath, join, joinChars, hhead, if_neg Bool.false_ne_true]
    simp
  · obtain ⟨trunk, htrunk, hcomponents⟩ := exists_trunk path
    refine ⟨trunk, ?_, ?_⟩
    · rw [join_eq hpath (head?_ne_of_isAbsolute h), hcomponents]
    · rcases htrunk with htrunk | htrunk
      · rw [plain, htrunk]
      · rw [plain, htrunk, List.filter_append]
        simp [isPlain]

/-- A path that leads on has the plain components of both. -/
theorem plain_join (path : String) (h : isAbsolute rest = false) :
    plain (join path rest) = plain path ++ plain rest := by
  obtain ⟨trunk, hcomponents, htrunk⟩ := exists_components_join path h
  rw [plain, hcomponents, List.filter_append, htrunk]
  rfl

theorem origin_join (path : String) (h : isAbsolute rest = false) :
    origin (join path rest) = origin path := by
  by_cases hpath : path.toList = []
  · rw [join, joinChars, hpath, if_neg (by simpa using head?_ne_of_isAbsolute h)]
    rw [List.isEmpty_nil, Bool.true_or, if_pos rfl, List.nil_append, String.ofList_toList, origin,
      h, String.toList_eq_nil_iff.1 hpath]
    rfl
  · refine origin_of_head? ?_
    obtain ⟨c, more, hcs⟩ := List.exists_cons_of_ne_nil hpath
    rw [join, joinChars, hcs, if_neg (by simpa using head?_ne_of_isAbsolute h),
      String.toList_ofList]
    split <;> rfl

/-- A path that leads on comes to where the components of what it leads on through lead from where
it would come to itself. -/
theorem resolve_join_eq (path : String) (hrest : isAbsolute rest = false) :
    resolve (join path rest) = resolveFrom (resolve path) (components rest) := by
  by_cases hpath : path = ""
  · have hjoin : join path rest = rest := by
      have hhead : (rest.toList.head? == some '/') = false := hrest
      rw [hpath, join, joinChars, hhead, if_neg Bool.false_ne_true]
      simp
    rw [hjoin, hpath, resolve, origin, hrest]
    rfl
  · obtain ⟨trunk, htrunk, hcomponents⟩ := exists_trunk path
    have hplace : resolve path = resolveFrom (origin path) trunk := by
      rcases htrunk with htrunk | htrunk
      · rw [resolve, htrunk]
      · rw [resolve, htrunk, resolveFrom_append]
        rfl
    rw [resolve, origin_join path hrest, join_eq hpath (head?_ne_of_isAbsolute hrest), hcomponents,
      resolveFrom_append, hplace]

/-- Where a path comes to that leads on without leading up. -/
theorem resolve_join (path : String) (hrest : isAbsolute rest = false) (h : IsStraight rest) :
    resolve (join path rest) = resolve path ++ plain rest := by
  have hnames : ∀ name ∈ plain rest, isPlain name = true :=
    fun name hname => (List.mem_filter.1 hname).2
  rw [resolve_join_eq path hrest, ← resolveFrom_filter]
  exact resolveFrom_plain hnames (isStraight_iff.1 h) _

/-! ## Paths seen from a directory -/

/-- As many steps up as there are names below a place lead back to it. -/
theorem resolveFrom_replicate_up (place names : Location) :
    resolveFrom (place ++ names) (List.replicate names.length "..") = place := by
  induction hlength : names.length generalizing names with
  | zero =>
    rw [List.length_eq_zero_iff.1 hlength, List.append_nil]
    rfl
  | succ k ih =>
    have hne : names ≠ [] := List.ne_nil_of_length_eq_add_one hlength
    have hstep : resolveName (place ++ names) ".." = place ++ names.dropLast := by
      rw [resolveName, if_neg (by decide), if_pos (by decide), List.dropLast_append_of_ne_nil hne]
    rw [List.replicate_succ, resolveFrom, List.foldl_cons, hstep]
    exact ih names.dropLast (by simp [hlength])

theorem resolveFrom_of_isName (h : ∀ name ∈ names, IsName name) (place : Location) :
    resolveFrom place names = place ++ names := by
  induction names generalizing place with
  | nil => rw [List.append_nil]; rfl
  | cons name rest ih =>
    rw [resolveFrom, List.foldl_cons, resolveName_of_isName (h name List.mem_cons_self)]
    exact (ih (fun other hother => h other (List.mem_cons_of_mem name hother)) _).trans (by simp)

/-- The names between two places lead from the one to the other. -/
theorem resolveFrom_namesBetween {start reached : Location} (h : ∀ name ∈ reached, IsName name)
    (before : Location) :
    resolveFrom (before ++ start) (namesBetween start reached) = before ++ reached := by
  induction start generalizing reached before with
  | nil =>
    have hdown : namesBetween [] reached = reached := by cases reached <;> rfl
    rw [hdown, List.append_nil, resolveFrom_of_isName h]
  | cons first rest ih =>
    have hup : ∀ down : List String, (∀ name ∈ down, IsName name) →
        resolveFrom (before ++ first :: rest) ((first :: rest).map (fun _ => "..") ++ down) =
          before ++ down := by
      intro down hdown
      rw [List.map_const', resolveFrom_append, resolveFrom_replicate_up,
        resolveFrom_of_isName hdown]
    cases reached with
    | nil => exact hup [] h
    | cons name later =>
      rw [namesBetween]
      split
      · rename_i hsame
        obtain rfl := eq_of_beq hsame
        have hrest := ih (fun other hother => h other (List.mem_cons_of_mem _ hother))
          (before ++ [first])
        rwa [List.append_assoc, List.append_assoc] at hrest
      · exact hup _ h

theorem mem_namesBetween {start reached : Location} {name : String}
    (h : name ∈ namesBetween start reached) : name = ".." ∨ name ∈ reached := by
  induction start generalizing reached with
  | nil => exact .inr (by cases reached <;> exact h)
  | cons first rest ih =>
    have hup : ∀ down : List String, name ∈ (first :: rest).map (fun _ => "..") ++ down →
        name = ".." ∨ name ∈ down := by
      intro down hmem
      rcases List.mem_append.1 hmem with hmem | hmem
      · obtain ⟨-, -, rfl⟩ := List.mem_map.1 hmem
        exact .inl rfl
      · exact .inr hmem
    cases reached with
    | nil => exact hup [] h
    | cons next later =>
      rw [namesBetween] at h
      split at h
      · exact (ih h).imp_right (List.mem_cons_of_mem next)
      · exact hup _ h

/-- Between places of names there are only texts that a path can lead through. -/
theorem isComponent_of_mem_namesBetween {start reached : Location}
    (h : ∀ name ∈ reached, IsName name) {name : String}
    (hname : name ∈ namesBetween start reached) :
    name ≠ "" ∧ '/' ∉ name.toList ∧ '\x00' ∉ name.toList := by
  rcases mem_namesBetween hname with rfl | hmem
  · decide
  · exact ⟨(h name hmem).ne_empty, (h name hmem).noSlash, (h name hmem).noNull⟩

/-- A path that is seen from a directory leads from there to where it leads, and is a relative path
without a character that no path can hold. -/
theorem components_relativeTo {path : String} (h : ∀ name ∈ resolve path, IsName name)
    (start : String) :
    resolveFrom (resolve start) (components (relativeTo start path)) = resolve path ∧
      isAbsolute (relativeTo start path) = false ∧ '\x00' ∉ (relativeTo start path).toList := by
  have hreached : resolveFrom (resolve start) (namesBetween (resolve start) (resolve path)) =
      resolve path := resolveFrom_namesBetween h []
  by_cases hne : namesBetween (resolve start) (resolve path) = []
  · have hself : relativeTo start path = "." := by rw [relativeTo, hne]
    rw [hne] at hreached
    rw [hself, ← hreached]
    exact ⟨rfl, by decide, by decide⟩
  · have hnames : ∀ name ∈ namesBetween (resolve start) (resolve path),
        name ≠ "" ∧ '/' ∉ name.toList := fun name hname =>
      ⟨(isComponent_of_mem_namesBetween h hname).1, (isComponent_of_mem_namesBetween h hname).2.1⟩
    rw [relativeTo_eq hne hnames]
    refine ⟨?_, ?_, fun hnull => ?_⟩
    · rw [components_ofNames hne fun name hname => (hnames name hname).2, hreached]
    · rw [isAbsolute, beq_eq_false_iff_ne]
      exact head?_ofNames_of_noSlash hnames
    · rcases mem_ofNames hnull with hslash | ⟨name, hname, hmem⟩
      · cases hslash
      · exact (isComponent_of_mem_namesBetween h hname).2.2 hmem

/-- A path that is seen from a directory leads on from there to where it leads. -/
theorem resolve_join_relativeTo {path : String} (h : ∀ name ∈ resolve path, IsName name)
    (start : String) : resolve (join start (relativeTo start path)) = resolve path := by
  obtain ⟨hresolve, habsolute, -⟩ := components_relativeTo h start
  rw [resolve_join_eq start habsolute, hresolve]

end Path
end FeatureCensus

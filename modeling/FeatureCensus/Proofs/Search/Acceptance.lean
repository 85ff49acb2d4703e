import FeatureCensus.Json.Scalar
import FeatureCensus.Proofs.Search.Totals
import FeatureCensus.World.Failure

/-!
# What is taken for a page

Which answers to a request are pages, and how the request fails for all others.  A page needs a
status that is no error, a total that is worth an integer, and items each of which tells its
name and its address; one item without them makes the whole page bad.  Every other answer is a
failure that names the page and the query, unless the fault is of a sort that the search does not
expect: an infinite total, a body that is nested too deep, or no answer for an error of such a sort
ends the search with a failure of its own.

Main results:

- Theorem {lit}`Page.totalOf_eq_ok_iff` and {lit}`Page.itemsOf_eq_ok_iff`: the totals and the
  items that are read.
- Theorem {lit}`Page.ofAnswer_eq_ok_iff`: the answers that are pages.
- Theorem {lit}`Page.ofAnswer_eq_unexpected_iff`: the faults that the search does not expect.
- Theorem {lit}`Page.searched_course`: a request ends with a page or as a failure of the search,
  unless its answer has such a fault.
- Theorem {lit}`Page.searched_infiniteAnswer`: an answer with an infinite total.
-/

namespace FeatureCensus

open Text

/-! ## Values -/

namespace Json

/-- The values that a value yields one after the other: the items of a list, the characters of a
text, and the names of an object, each of them once. -/
def yielded? : Json → Option (List Json)
  | .list items => some items
  | .text s => some (s.toList.map fun c => .text (String.singleton c))
  | .object fields => some ((fields.map (·.1)).eraseDups.map .text)
  | _ => none

/-- Whether a value is worth an integer: a number that is finite in computation is worth its
whole part, and a text the integer that is written in it. -/
def IsWorth (value : Json) (n : Int) : Prop :=
  (∃ numerator denominator, value.magnitude? = some (.finite numerator denominator) ∧
    n = numerator.tdiv denominator) ∨
  ∃ s, value = .text s ∧ parseInteger s = .ok n

/-- Whether a value is an infinite number in computation. -/
def IsInfinite (value : Json) : Prop :=
  ∃ negative, value.magnitude? = some (.infinite negative)

end Json

/-! ## Outcomes in parts -/

namespace PageFault

variable {α β : Type}

theorem bind_eq_ok_iff {x : Except PageFault α} {f : α → Except PageFault β} {b : β} :
    x >>= f = .ok b ↔ ∃ a, x = .ok a ∧ f a = .ok b := by
  cases x <;> simp [bind, Except.bind]

theorem mapM_eq_ok_iff {f : α → Except PageFault β} {as : List α} {bs : List β} :
    as.mapM f = .ok bs ↔ List.Forall₂ (fun b a => f a = .ok b) bs as := by
  induction as generalizing bs with
  | nil =>
    cases bs <;> simp [pure, Except.pure]
  | cons a rest ih =>
    rw [List.mapM_cons, bind_eq_ok_iff]
    cases bs with
    | nil =>
      simp only [List.forall₂_nil_left_iff, reduceCtorEq, iff_false, not_exists, not_and]
      intro b _ h
      obtain ⟨bs, -, h⟩ := bind_eq_ok_iff.mp h
      cases h
    | cons b bs =>
      rw [List.forall₂_cons]
      constructor
      · rintro ⟨first, hfirst, h⟩
        obtain ⟨others, hothers, h⟩ := bind_eq_ok_iff.mp h
        cases h
        exact ⟨hfirst, ih.mp hothers⟩
      · rintro ⟨hb, hbs⟩
        exact ⟨b, hb, bind_eq_ok_iff.mpr ⟨bs, ih.mpr hbs, rfl⟩⟩

/-- That an outcome is a fault which the search does not expect. -/
def IsUnexpected (x : Except PageFault α) (fault : PageFault) : Prop :=
  x = .error fault ∧ fault.sort.isExpected = false

@[simp]
theorem isUnexpected_ok_iff {a : α} {fault : PageFault} : IsUnexpected (.ok a) fault ↔ False := by
  simp [IsUnexpected]

@[simp]
theorem isUnexpected_error_iff {told fault : PageFault} :
    IsUnexpected (.error told : Except PageFault α) fault ↔
      fault = told ∧ told.sort.isExpected = false := by
  rw [IsUnexpected, Except.error.injEq, eq_comm]
  exact and_congr_right fun heq => by rw [heq]

theorem isUnexpected_bind_iff {x : Except PageFault α} {f : α → Except PageFault β}
    {fault : PageFault} :
    IsUnexpected (x >>= f) fault ↔
      IsUnexpected x fault ∨ ∃ a, x = .ok a ∧ IsUnexpected (f a) fault := by
  cases x <;> simp [IsUnexpected, bind, Except.bind]

/-- That an outcome is no fault but one that the search expects. -/
def IsTame (x : Except PageFault α) : Prop :=
  ∀ fault, ¬ IsUnexpected x fault

namespace IsTame

theorem ok (a : α) : IsTame (.ok a) := by
  simp [IsTame]

theorem error {fault : PageFault} (h : fault.sort.isExpected = true) :
    IsTame (.error fault : Except PageFault α) := by
  simp [IsTame, h]

theorem bind {x : Except PageFault α} {f : α → Except PageFault β} (hx : IsTame x)
    (hf : ∀ a, IsTame (f a)) : IsTame (x >>= f) := by
  intro fault h
  rcases isUnexpected_bind_iff.mp h with h | ⟨a, -, h⟩
  · exact hx fault h
  · exact hf a fault h

theorem mapM {f : α → Except PageFault β} (hf : ∀ a, IsTame (f a)) (as : List α) :
    IsTame (as.mapM f) := by
  induction as with
  | nil => exact ok []
  | cons a rest ih =>
    rw [List.mapM_cons]
    exact (hf a).bind fun b => ih.bind fun bs => ok (b :: bs)

/-- After a tame outcome only what follows can be unexpected. -/
theorem isUnexpected_bind_iff {x : Except PageFault α} {f : α → Except PageFault β}
    {fault : PageFault} (hx : IsTame x) :
    IsUnexpected (x >>= f) fault ↔ ∃ a, x = .ok a ∧ IsUnexpected (f a) fault := by
  rw [PageFault.isUnexpected_bind_iff, or_iff_right (hx fault)]

end IsTame

/-- What becomes of an outcome is a page if it is one. -/
theorem mapError_eq_ok_iff {x : Except PageFault α} {a : α} :
    x.mapError PageFailure.ofFault = .ok a ↔ x = .ok a := by
  cases x <;> simp [Except.mapError]

/-- The search leaves just those faults as they are that it does not expect. -/
theorem mapError_eq_unexpected_iff {x : Except PageFault α} {fault : PageFault} :
    x.mapError PageFailure.ofFault = .error (.unexpected fault) ↔ IsUnexpected x fault := by
  cases x with
  | ok a => simp [Except.mapError]
  | error told =>
    rw [isUnexpected_error_iff, Except.mapError, Except.error.injEq, PageFailure.ofFault]
    cases told.sort.isExpected <;> simp [eq_comm]

/-- An outcome that is neither a page nor left as it is tells its fault as one of the search. -/
theorem mapError_course (x : Except PageFault α) :
    (∃ a, x.mapError PageFailure.ofFault = .ok a) ∨
      (∃ fault, x.mapError PageFailure.ofFault = .error (.unexpected fault)) ∨
      ∃ fault, x.mapError PageFailure.ofFault = .error (.fault fault) := by
  cases x with
  | ok a => exact .inl ⟨a, rfl⟩
  | error fault =>
    have hmapped : (Except.error fault : Except PageFault α).mapError PageFailure.ofFault =
        .error (.ofFault fault) := rfl
    rw [hmapped, PageFailure.ofFault]
    split
    · exact .inr (.inr ⟨fault, rfl⟩)
    · exact .inr (.inl ⟨fault, rfl⟩)

end PageFault

/-! ## Parts of a page -/

/-- Whether an item tells the name and the address of a repository. -/
def Listed.IsToldBy (listed : Listed) (item : Json) : Prop :=
  item.field? "full_name" = some listed.fullName ∧
    item.field? "clone_url" = some listed.cloneUrl

namespace Page

open PageFault

theorem fieldOf_eq_ok_iff {name : String} {body value : Json} :
    fieldOf name body = .ok value ↔ body.field? name = some value := by
  cases body with
  | object fields =>
    rw [fieldOf]
    cases hfield : (Json.object fields).field? name <;> simp
  | _ => simp [fieldOf, Json.field?]

theorem isTame_fieldOf (name : String) (body : Json) : IsTame (fieldOf name body) := by
  cases body with
  | object fields =>
    rw [fieldOf]
    cases (Json.object fields).field? name with
    | none => exact .error rfl
    | some value => exact .ok value
  | _ => exact .error rfl

/-- The totals that are read, and their numbers. -/
theorem totalOf_eq_ok_iff {value : Json} {total : Int} :
    totalOf value = .ok total ↔ value.IsWorth total := by
  cases value with
  | decimal d =>
    rw [totalOf, Json.IsWorth, Json.magnitude?, Decimal.wholePart?]
    cases hfraction : d.nearestFraction? <;> simp [eq_comm]
  | text s =>
    rw [totalOf, Json.IsWorth]
    cases hparse : parseInteger s <;> simp [Json.magnitude?, hparse]
  | _ => simp [totalOf, Json.IsWorth, Json.magnitude?, eq_comm]

/-- Of the totals that are not read the search does not expect just the infinite ones. -/
theorem isUnexpected_totalOf_iff {value : Json} {fault : PageFault} :
    IsUnexpected (totalOf value) fault ↔ fault = .infiniteTotal ∧ value.IsInfinite := by
  cases value with
  | decimal d =>
    rw [totalOf, Json.IsInfinite, Json.magnitude?, Decimal.wholePart?]
    cases d.nearestFraction? <;> simp [PageFault.sort, ErrorSort.isExpected]
  | text s =>
    rw [totalOf, Json.IsInfinite]
    cases parseInteger s <;> simp [Json.magnitude?, PageFault.sort, ErrorSort.isExpected]
  | _ => simp [totalOf, Json.IsInfinite, Json.magnitude?, PageFault.sort, ErrorSort.isExpected]

theorem itemOf_eq_ok_iff {item : Json} {listed : Listed} :
    itemOf item = .ok listed ↔ listed.IsToldBy item := by
  obtain ⟨fullName, cloneUrl⟩ := listed
  simp only [itemOf, bind_eq_ok_iff, fieldOf_eq_ok_iff, Listed.IsToldBy]
  constructor
  · rintro ⟨name, hname, address, haddress, h⟩
    cases h
    exact ⟨hname, haddress⟩
  · rintro ⟨hname, haddress⟩
    exact ⟨fullName, hname, cloneUrl, haddress, rfl⟩

theorem isTame_itemOf (item : Json) : IsTame (itemOf item) :=
  (isTame_fieldOf "full_name" item).bind fun _ =>
    (isTame_fieldOf "clone_url" item).bind fun _ => .ok _

theorem not_isToldBy_text (listed : Listed) (s : String) : ¬ listed.IsToldBy (.text s) := by
  rintro ⟨h, -⟩
  cases h

theorem forall₂_isToldBy_texts {listed : List Listed} {texts : List String} :
    List.Forall₂ Listed.IsToldBy listed (texts.map .text) ↔ listed = [] ∧ texts = [] := by
  cases texts with
  | nil => simp
  | cons s rest =>
    cases listed with
    | nil => simp
    | cons first others => simp [not_isToldBy_text]

/-- The items that are read, and their repositories: each of the values that the list of items
yields tells one. -/
theorem itemsOf_eq_ok_iff {value : Json} {listed : List Listed} :
    itemsOf value = .ok listed ↔
      ∃ items, value.yielded? = some items ∧ List.Forall₂ Listed.IsToldBy listed items := by
  cases value with
  | list items => simp [itemsOf, Json.yielded?, mapM_eq_ok_iff, itemOf_eq_ok_iff]
  | text s =>
    have htexts : (s.toList.map fun c => Json.text (String.singleton c)) =
        (s.toList.map String.singleton).map .text := by simp
    simp only [itemsOf, Json.yielded?, htexts, Option.some.injEq, exists_eq_left',
      forall₂_isToldBy_texts]
    by_cases h : s = ""
    · subst h
      simp only [show "".isEmpty = true from rfl, if_true, Except.ok.injEq, String.toList_empty,
        List.map_nil, and_true]
      exact eq_comm
    · simp [h]
  | object fields =>
    simp only [itemsOf, Json.yielded?, Option.some.injEq, exists_eq_left',
      forall₂_isToldBy_texts]
    cases fields with
    | nil =>
      simp only [List.isEmpty_nil, if_true, Except.ok.injEq, List.map_nil, List.eraseDups_nil,
        and_true]
      exact eq_comm
    | cons field rest => simp [List.eraseDups_cons]
  | _ => simp [itemsOf, Json.yielded?]

theorem isTame_itemsOf (value : Json) : IsTame (itemsOf value) := by
  cases value with
  | list items => exact .mapM isTame_itemOf items
  | text s =>
    rw [itemsOf]
    split
    · exact .ok []
    · exact .error rfl
  | object fields =>
    rw [itemsOf]
    split
    · exact .ok []
    · exact .error rfl
  | _ => exact .error rfl

variable {reading : Json.Settings}

/-- Of the bodies that are not read the search does not expect just those that are nested too
deep. -/
theorem isUnexpected_valueOf_iff {body : String} {fault : PageFault} :
    IsUnexpected (valueOf reading body) fault ↔
      ∃ inList, fault = .tooDeep inList ∧ valueOf reading body = .error (.tooDeep inList) := by
  constructor
  · rintro ⟨hvalue, hunexpected⟩
    have hdeep : ∃ inList, fault = .tooDeep inList := by
      unfold valueOf at hvalue
      split at hvalue
      · cases hvalue
        cases hunexpected
      · split at hvalue <;> cases hvalue
        · cases hunexpected
        · cases hunexpected
        · exact ⟨_, rfl⟩
    obtain ⟨inList, rfl⟩ := hdeep
    exact ⟨inList, rfl, hvalue⟩
  · rintro ⟨inList, rfl, hvalue⟩
    exact ⟨hvalue, rfl⟩

/-- Where each item tells a repository, no item tells none. -/
theorem exists_isToldBy {listed : List Listed} {items : List Json}
    (h : List.Forall₂ Listed.IsToldBy listed items) {item : Json} (hitem : item ∈ items) :
    ∃ told : Listed, told.IsToldBy item := by
  induction h with
  | nil => cases hitem
  | cons hfirst _ ih =>
    obtain rfl | hlater := List.mem_cons.mp hitem
    · exact ⟨_, hfirst⟩
    · exact ih hlater

/-! ## Bodies -/

/-- Whether a value tells a page: it has a total that is worth the integer, and items each of
which tells a repository. -/
def IsToldBy (page : Page) (value : Json) : Prop :=
  (∃ count, value.field? "total_count" = some count ∧ count.IsWorth page.total) ∧
    ∃ list items, value.field? "items" = some list ∧ list.yielded? = some items ∧
      List.Forall₂ Listed.IsToldBy page.items items

/-- Whether a value has an infinite total. -/
def HasInfiniteTotal (value : Json) : Prop :=
  ∃ count, value.field? "total_count" = some count ∧ count.IsInfinite

theorem ofBody_eq_ok_iff {body : String} {page : Page} :
    ofBody reading body = .ok page ↔
      ∃ value, valueOf reading body = .ok value ∧ page.IsToldBy value := by
  obtain ⟨total, listed⟩ := page
  simp only [ofBody, bind_eq_ok_iff, fieldOf_eq_ok_iff, totalOf_eq_ok_iff, itemsOf_eq_ok_iff,
    IsToldBy]
  constructor
  · rintro ⟨value, hvalue, count, hcount, told, htold, list, hlist, read, ⟨items, hitems, hread⟩,
      h⟩
    cases h
    exact ⟨value, hvalue, ⟨count, hcount, htold⟩, list, items, hlist, hitems, hread⟩
  · rintro ⟨value, hvalue, ⟨count, hcount, htold⟩, list, items, hlist, hitems, hread⟩
    exact ⟨value, hvalue, count, hcount, total, htold, list, hlist, listed,
      ⟨items, hitems, hread⟩, rfl⟩

/-- The outcome of the items of a body, once its total has been read. -/
theorem isTame_itemsWith (value : Json) (total : Int) :
    IsTame (do
      let items ← itemsOf (← fieldOf "items" value)
      return Page.mk total items) :=
  (isTame_fieldOf "items" value).bind fun list =>
    (isTame_itemsOf list).bind fun items => IsTame.ok (Page.mk total items)

/-- A body is no page in a way that the search does not expect if it is nested too deep or has an
infinite total. -/
theorem isUnexpected_ofBody_iff {body : String} {fault : PageFault} :
    IsUnexpected (ofBody reading body) fault ↔
      (∃ inList, fault = .tooDeep inList ∧ valueOf reading body = .error (.tooDeep inList)) ∨
        fault = .infiniteTotal ∧ ∃ value, valueOf reading body = .ok value ∧
          HasInfiniteTotal value := by
  rw [ofBody, isUnexpected_bind_iff, isUnexpected_valueOf_iff]
  refine or_congr_right ?_
  rw [← exists_and_left]
  refine exists_congr fun value => ?_
  rw [and_left_comm]
  refine and_congr_right fun _ => ?_
  rw [(isTame_fieldOf "total_count" value).isUnexpected_bind_iff, HasInfiniteTotal,
    ← exists_and_left]
  refine exists_congr fun count => ?_
  rw [and_left_comm, fieldOf_eq_ok_iff]
  refine and_congr_right fun _ => ?_
  rw [isUnexpected_bind_iff, isUnexpected_totalOf_iff]
  refine or_iff_left ?_
  rintro ⟨total, -, hitems⟩
  exact isTame_itemsWith value total fault hitems

end Page

/-! ## Answers -/

namespace PageAnswer

/-- Whether an answer carries a value: its status is no error, and the value is written in its
body. -/
def Carries (reading : Json.Settings) (answer : PageAnswer) (value : Json) : Prop :=
  ∃ status reason body, answer = .response (some status) reason body ∧
    (status < 400 ∨ 600 ≤ status) ∧ Page.valueOf reading body = .ok value

/-- The faults of an answer that the search does not expect. -/
inductive Raises (reading : Json.Settings) : PageAnswer → PageFault → Prop
  /-- No answer arrives, for an error of another sort. -/
  | unreachable (sort : ErrorSort) (reason : String) (hsort : sort.isExpected = false) :
      Raises reading (.unreachable sort reason) (.unreachable sort reason)
  /-- The body is nested too deep. -/
  | tooDeep (status : Int) (reason body : String) (inList : Bool)
      (hstatus : status < 400 ∨ 600 ≤ status)
      (hbody : Page.valueOf reading body = .error (.tooDeep inList)) :
      Raises reading (.response (some status) reason body) (.tooDeep inList)
  /-- The total is infinite. -/
  | infiniteTotal (answer : PageAnswer) (value : Json) (hcarries : answer.Carries reading value)
      (htotal : Page.HasInfiniteTotal value) : Raises reading answer .infiniteTotal

variable {reading : Json.Settings} {answer : PageAnswer}

/-- An answer carries one value at most. -/
theorem eq_of_carries {value other : Json} (h : answer.Carries reading value)
    (hother : answer.Carries reading other) : value = other := by
  obtain ⟨status, reason, body, rfl, -, hvalue⟩ := h
  obtain ⟨_, _, _, heq, -, hvalue'⟩ := hother
  cases heq
  exact Except.ok.inj (hvalue.symm.trans hvalue')

theorem carries_response_iff {status? : Option Int} {reason body : String} {value : Json} :
    (response status? reason body).Carries reading value ↔
      ∃ status, status? = some status ∧ (status < 400 ∨ 600 ≤ status) ∧
        Page.valueOf reading body = .ok value := by
  constructor
  · rintro ⟨status, _, _, heq, hstatus, hvalue⟩
    cases heq
    exact ⟨status, rfl, hstatus, hvalue⟩
  · rintro ⟨status, rfl, hstatus, hvalue⟩
    exact ⟨status, reason, body, rfl, hstatus, hvalue⟩

end PageAnswer

namespace Page

open PageFault

variable {reading : Json.Settings} {address : String} {source : Source} {index : Nat}
  {answer : PageAnswer}

/-- The outcome of a response is that of its body if its status is no error, and else a fault that
the search expects. -/
theorem ofResponse_course (reading : Json.Settings) (address : String) (status? : Option Int)
    (reason body : String) :
    (∃ status, status? = some status ∧ (status < 400 ∨ 600 ≤ status) ∧
        ofResponse reading address status? reason body = ofBody reading body) ∨
      (∀ status, status? = some status → ¬ (status < 400 ∨ 600 ≤ status)) ∧
        ∃ fault : PageFault, fault.sort.isExpected = true ∧
          ofResponse reading address status? reason body = .error fault := by
  cases status? with
  | none =>
    refine .inr ⟨fun status heq => ?_, .wrongType, rfl, rfl⟩
    cases heq
  | some status =>
    cases hside : Status.errorSide? status with
    | none =>
      refine .inl ⟨status, rfl, (Status.errorSide?_eq_none_iff status).mp hside, ?_⟩
      simp only [ofResponse, hside]
    | some side =>
      refine .inr ⟨fun other heq hstatus => ?_, .badStatus status side reason address, rfl, ?_⟩
      · cases heq
        rw [(Status.errorSide?_eq_none_iff status).mpr hstatus] at hside
        cases hside
      · simp only [ofResponse, hside]

/-- The answers that are pages. -/
theorem ofAnswer_eq_ok_iff {page : Page} :
    ofAnswer source index answer = .ok page ↔
      ∃ value, answer.Carries source.reading value ∧ page.IsToldBy value := by
  cases answer with
  | unreachable sort reason =>
    refine iff_of_false (by simp [ofAnswer]) ?_
    rintro ⟨value, ⟨_, _, _, heq, -, -⟩, -⟩
    cases heq
  | interrupted =>
    refine iff_of_false (by simp [ofAnswer]) ?_
    rintro ⟨value, ⟨_, _, _, heq, -, -⟩, -⟩
    cases heq
  | response status? reason body =>
    rw [ofAnswer, mapError_eq_ok_iff]
    simp only [PageAnswer.carries_response_iff]
    rcases ofResponse_course source.reading (source.pageAddress index) status? reason body with
      ⟨status, rfl, hstatus, hbody⟩ | ⟨hbad, fault, -, hfault⟩
    · rw [hbody, ofBody_eq_ok_iff]
      simp only [Option.some.injEq, exists_eq_left', hstatus, true_and]
    · refine iff_of_false (by simp [hfault]) ?_
      rintro ⟨value, ⟨status, hsome, hstatus, -⟩, -⟩
      exact hbad status hsome hstatus

/-- The faults that the search leaves as they are. -/
theorem ofAnswer_eq_unexpected_iff {fault : PageFault} :
    ofAnswer source index answer = .error (.unexpected fault) ↔
      answer.Raises source.reading fault := by
  cases answer with
  | unreachable sort reason =>
    have hmapped : ofAnswer source index (.unreachable sort reason) =
        (Except.error (.unreachable sort reason) : Except PageFault Page).mapError .ofFault := rfl
    rw [hmapped, mapError_eq_unexpected_iff]
    constructor
    · rintro ⟨heq, hsort⟩
      cases heq
      exact .unreachable sort reason hsort
    · intro hraises
      cases hraises with
      | unreachable _ _ hsort => exact ⟨rfl, hsort⟩
      | infiniteTotal _ _ hcarries _ =>
        obtain ⟨_, _, _, heq, -, -⟩ := hcarries
        cases heq
  | interrupted =>
    refine iff_of_false (by simp [ofAnswer]) ?_
    rintro (_ | _ | ⟨_, _, ⟨_, _, _, heq, -, -⟩, -⟩)
    cases heq
  | response status? reason body =>
    rw [ofAnswer, mapError_eq_unexpected_iff]
    rcases ofResponse_course source.reading (source.pageAddress index) status? reason body with
      ⟨status, rfl, hstatus, hbody⟩ | ⟨hbad, told, hexpected, htold⟩
    · rw [hbody, isUnexpected_ofBody_iff]
      constructor
      · rintro (⟨inList, rfl, hvalue⟩ | ⟨rfl, value, hvalue, htotal⟩)
        · exact .tooDeep status reason body inList hstatus hvalue
        · exact .infiniteTotal _ value ⟨status, reason, body, rfl, hstatus, hvalue⟩ htotal
      · intro hraises
        cases hraises with
        | tooDeep _ _ _ inList _ hvalue => exact .inl ⟨inList, rfl, hvalue⟩
        | infiniteTotal _ value hcarries htotal =>
          obtain ⟨_, -, -, hvalue⟩ := PageAnswer.carries_response_iff.1 hcarries
          exact .inr ⟨rfl, value, hvalue, htotal⟩
    · refine iff_of_false ?_ fun hraises => ?_
      · rw [htold]
        exact IsTame.error hexpected fault
      · cases hraises with
        | tooDeep status _ _ _ hstatus _ => exact hbad status rfl hstatus
        | infiniteTotal _ _ hcarries _ =>
          obtain ⟨status, hsome, hstatus, -⟩ := PageAnswer.carries_response_iff.1 hcarries
          exact hbad status hsome hstatus

/-- An answer that is neither a page nor left as it is tells its fault as one of the search. -/
theorem ofAnswer_course (source : Source) (index : Nat) (hanswer : answer ≠ .interrupted) :
    (∃ page, ofAnswer source index answer = .ok page) ∨
      (∃ fault, ofAnswer source index answer = .error (.unexpected fault)) ∨
      ∃ fault, ofAnswer source index answer = .error (.fault fault) := by
  cases answer with
  | unreachable sort reason => exact mapError_course (.error (.unreachable sort reason))
  | interrupted => exact absurd rfl hanswer
  | response status? reason body => exact mapError_course _

/-! ## Requests -/

/-- How a request for the page of a number ends for the search, given its answer. -/
def searched (source : Source) (index : Nat) (answer : PageAnswer) : Except Failure Page :=
  (ofAnswer source index answer).mapError (Failure.ofPage source.queryText index)

theorem searched_eq_ok_iff {page : Page} :
    searched source index answer = .ok page ↔ ofAnswer source index answer = .ok page := by
  rw [searched]
  cases ofAnswer source index answer <;> simp [Except.mapError]

theorem searched_eq_unexpected_iff {fault : PageFault} :
    searched source index answer = .error (.unexpected fault) ↔
      ofAnswer source index answer = .error (.unexpected fault) := by
  rw [searched]
  cases ofAnswer source index answer with
  | ok page => simp [Except.mapError]
  | error failure => cases failure <;> simp [Except.mapError, Failure.ofPage]

/-- A request that ends with a page lets the search go on with the items of the page. -/
theorem stepsFrom_of_searched_eq_ok {page : Page} (h : searched source index answer = .ok page)
    (before : Nat) (rest : List PageAnswer) :
    ∃ later, Discovery.stepsFrom source index before (answer :: rest) =
      .request index :: (Discovery.finds page.total before page.items).map .found ++ later := by
  rw [Discovery.stepsFrom, searched_eq_ok_iff.mp h]
  exact ⟨_, rfl⟩

/-- A request that ends with a failure ends the search with this failure. -/
theorem pursue_of_searched_eq_error {σ : Type} {failure : Failure}
    (h : searched source index answer = .error failure) (visit : Found → Action σ Bool)
    (before : Nat) (rest : List PageAnswer) :
    Discovery.pursue source visit (Discovery.stepsFrom source index before (answer :: rest)) =
      (do Discovery.requestPage source index; throw failure : Action σ Unit) := by
  rw [searched] at h
  cases houtcome : ofAnswer source index answer with
  | ok page =>
    rw [houtcome] at h
    cases h
  | error told =>
    rw [houtcome] at h
    obtain rfl := Except.error.inj h
    rw [Discovery.steps_of_failure houtcome]
    rfl

/-- An item that tells no repository makes the whole page bad. -/
theorem ne_ok_of_item {value list item : Json} {items : List Json}
    (hcarries : answer.Carries source.reading value) (hlist : value.field? "items" = some list)
    (hitems : list.yielded? = some items) (hitem : item ∈ items)
    (hbad : ∀ listed : Listed, ¬ listed.IsToldBy item) (page : Page) :
    ofAnswer source index answer ≠ .ok page := by
  intro hok
  obtain ⟨told, htold, -, _, read, hfield, hyielded, hread⟩ := ofAnswer_eq_ok_iff.mp hok
  obtain rfl := PageAnswer.eq_of_carries hcarries htold
  obtain rfl := Option.some.inj (hlist.symm.trans hfield)
  obtain rfl := Option.some.inj (hitems.symm.trans hyielded)
  obtain ⟨listed, hlisted⟩ := exists_isToldBy hread hitem
  exact hbad listed hlisted

/-- A request that is answered in some way ends with a page if the answer tells one: its status
is no error, its total is worth an integer, and each item tells a repository.  One item that
tells none makes the whole page bad.  Of the other answers those that the search does not expect end
the request with their fault as it is, and all others are failures of the search that name the page
and the query.  A failure ends the search, which goes on with the items of a page. -/
theorem searched_course (source : Source) (index : Nat) (hanswer : answer ≠ .interrupted) :
    (∀ page, searched source index answer = .ok page ↔
        ∃ value, answer.Carries source.reading value ∧ page.IsToldBy value) ∧
      (∀ value list items item, answer.Carries source.reading value →
        value.field? "items" = some list → list.yielded? = some items → item ∈ items →
        (∀ listed : Listed, ¬ listed.IsToldBy item) →
        ∀ page, searched source index answer ≠ .ok page) ∧
      (∀ fault, searched source index answer = .error (.unexpected fault) ↔
        answer.Raises source.reading fault) ∧
      ((∀ fault, ¬ answer.Raises source.reading fault) →
        (∃ page, searched source index answer = .ok page) ∨
          ∃ fault, searched source index answer = .error (.page source.queryText index fault)) ∧
      (∀ page before rest, searched source index answer = .ok page →
        ∃ later, Discovery.stepsFrom source index before (answer :: rest) =
          .request index :: (Discovery.finds page.total before page.items).map .found ++ later) ∧
      ∀ failure before rest (visit : Found → Action Unit Bool),
        searched source index answer = .error failure →
        Discovery.pursue source visit (Discovery.stepsFrom source index before (answer :: rest)) =
          (do Discovery.requestPage source index; throw failure : Action Unit Unit) := by
  refine ⟨fun page => searched_eq_ok_iff.trans ofAnswer_eq_ok_iff, ?_,
    fun fault => searched_eq_unexpected_iff.trans ofAnswer_eq_unexpected_iff, fun hquiet => ?_,
    fun _ before rest hok => stepsFrom_of_searched_eq_ok hok before rest,
    fun _ before rest visit herror => pursue_of_searched_eq_error herror visit before rest⟩
  · intro value list items item hcarries hlist hitems hitem hbad page hok
    exact ne_ok_of_item hcarries hlist hitems hitem hbad page (searched_eq_ok_iff.mp hok)
  · rcases ofAnswer_course source index hanswer with
      ⟨page, hok⟩ | ⟨fault, hunexpected⟩ | ⟨fault, hfault⟩
    · exact .inl ⟨page, searched_eq_ok_iff.mpr hok⟩
    · exact absurd (ofAnswer_eq_unexpected_iff.mp hunexpected) (hquiet fault)
    · refine .inr ⟨fault, ?_⟩
      rw [searched, hfault]
      rfl

/-- An answer that lists one repository. -/
def oneItemAnswer : PageAnswer :=
  .response (some 200) "OK" (Discovery.bodyWith 1 ["n"])

/-- An answer that there is no page. -/
def missingAnswer : PageAnswer :=
  .response (some 404) "Not Found" ""

/-- An answer whose body is a list in a list in a list. -/
def nestedAnswer : PageAnswer :=
  .response (some 200) "OK" "[[[]]]"

/-- A source that reads no more than two lists in each other. -/
def shallowSource : Source where
  reading := { depth? := some 2 }

/-- The fault of an outcome. -/
def fault? {α : Type} : Except PageFault α → Option PageFault
  | .ok _ => none
  | .error fault => some fault

theorem eq_error_of_fault? {α : Type} {outcome : Except PageFault α} {fault : PageFault}
    (h : fault? outcome = some fault) : outcome = .error fault := by
  cases outcome with
  | ok a => cases h
  | error told => rw [Option.some.inj h]

theorem not_carries_missingAnswer (reading : Json.Settings) (value : Json) :
    ¬ missingAnswer.Carries reading value := by
  rintro ⟨status, reason, body, heq, hstatus, -⟩
  cases heq
  omega

theorem not_raises_missingAnswer (reading : Json.Settings) (fault : PageFault) :
    ¬ missingAnswer.Raises reading fault := by
  intro hraises
  cases hraises with
  | tooDeep _ _ _ _ hstatus _ => omega
  | infiniteTotal _ value hcarries _ => exact not_carries_missingAnswer reading value hcarries

/-- The page with one repository is taken for what its body tells, the answer that there is no page
for a failure of the search, and a body that is nested too deep for neither. -/
theorem searched_course_oneItem :
    oneItemAnswer ≠ .interrupted ∧ missingAnswer ≠ .interrupted ∧ nestedAnswer ≠ .interrupted ∧
      (∃ value, oneItemAnswer.Carries {} value ∧
        (Page.mk 1 (Discovery.listedBy ["n"])).IsToldBy value) ∧
      (∃ fault, searched {} 2 missingAnswer = .error (.page "language:kotlin" 2 fault)) ∧
      searched shallowSource 1 nestedAnswer = .error (.unexpected (.tooDeep true)) := by
  have hone : oneItemAnswer ≠ .interrupted := by simp [oneItemAnswer]
  have hmissing : missingAnswer ≠ .interrupted := by simp [missingAnswer]
  have hnested : nestedAnswer ≠ .interrupted := by simp [nestedAnswer]
  obtain ⟨hpage, -⟩ := searched_course {} 1 hone
  obtain ⟨hmissingPage, -, -, hfailure, -, -⟩ := searched_course {} 2 hmissing
  obtain ⟨-, -, hunexpected, -⟩ := searched_course shallowSource 1 hnested
  have hread : searched {} 1 oneItemAnswer = .ok ⟨1, Discovery.listedBy ["n"]⟩ :=
    searched_eq_ok_iff.mpr (Discovery.ofAnswer_bodyWith rfl (by decide +kernel) 1)
  have hdeep : fault? (valueOf shallowSource.reading "[[[]]]") = some (.tooDeep true) := by
    decide +kernel
  refine ⟨hone, hmissing, hnested, (hpage _).mp hread, ?_, (hunexpected _).mpr ?_⟩
  · obtain ⟨page, hok⟩ | hfault := hfailure (not_raises_missingAnswer _)
    · obtain ⟨value, hcarries, -⟩ := (hmissingPage page).mp hok
      exact absurd hcarries (not_carries_missingAnswer _ value)
    · exact hfault
  · exact .tooDeep 200 "OK" "[[[]]]" true (by decide) (eq_error_of_fault? hdeep)

/-- An answer with an infinite total and no items. -/
def infiniteAnswer : PageAnswer :=
  .response (some 200) "OK" "\x7b\"total_count\": Infinity, \"items\": []\x7d"

/-- With an infinite total a request ends neither with a page nor with a failure that names
one. -/
theorem searched_infiniteAnswer :
    infiniteAnswer ≠ .interrupted ∧ (∀ page, searched {} 1 infiniteAnswer ≠ .ok page) ∧
      ∀ query index fault, searched {} 1 infiniteAnswer ≠ .error (.page query index fault) := by
  have houtcome : searched {} 1 infiniteAnswer = .error (.unexpected .infiniteTotal) := by
    have hfault : fault? (ofResponse {} (Source.pageAddress {} 1) (some 200) "OK"
        "\x7b\"total_count\": Infinity, \"items\": []\x7d") = some .infiniteTotal := by
      decide +kernel
    rw [searched, infiniteAnswer, ofAnswer, eq_error_of_fault? hfault]
    rfl
  refine ⟨by simp [infiniteAnswer], fun page => ?_, fun query index fault => ?_⟩
  · rw [houtcome]
    simp
  · rw [houtcome]
    simp

end Page
end FeatureCensus

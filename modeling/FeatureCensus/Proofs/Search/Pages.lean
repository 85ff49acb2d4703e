import FeatureCensus.Proofs.World.Milestones
import FeatureCensus.Search.Pursuit

/-!
# Pages of a discovery

A discovery requests page after page until a request fails, a page is empty, or as many
repositories were found as the latest page says there are.  What it finds is on the pages up to
that one, in their order; each repository comes with its place among all of them and with the
total of its own page.

Main results:

- Theorem {lit}`Discovery.steps_append`: pages that do not end a discovery are followed by the
  next one.
- Theorem {lit}`Discovery.Outcomes.foundUpTo_succ`: the items of a page are counted on from those
  of earlier pages.
- Theorem {lit}`Discovery.pursue_steps`: what comes of the steps of a page.
- Theorem {lit}`Discovery.consume_pages`: what the consumption of a discovery comes to.
-/

namespace FeatureCensus
namespace Discovery

/-! ## Outcomes of requests -/

/-- What comes of the requests for pages, which are counted from one. -/
abbrev Outcomes := Nat → Except PageFailure Page

/-- What comes of the requests of a source that are answered by a sequence of answers. -/
def outcomes (source : Source) (answers : Nat → PageAnswer) : Outcomes := fun page =>
  Page.ofAnswer source page (answers page)

namespace Outcomes

variable (outcomes : Outcomes)

/-- The items of a page, of which there are none where the request for it fails. -/
def items (page : Nat) : List Listed :=
  match outcomes page with
  | .ok result => result.items
  | .error _ => []

/-- The number of items on the pages up to one. -/
def countUpTo : Nat → Nat
  | 0 => 0
  | page + 1 => countUpTo page + (outcomes.items (page + 1)).length

/-- Whether no page is requested after one: the request for it fails, it is empty, or there are
as many items up to it as it says there are in total. -/
def Ends (page : Nat) : Prop :=
  match outcomes page with
  | .ok result => result.items = [] ∨ result.total ≤ outcomes.countUpTo page
  | .error _ => True

instance (page : Nat) : Decidable (outcomes.Ends page) :=
  match h : outcomes page with
  | .ok result =>
    decidable_of_iff (result.items = [] ∨ result.total ≤ outcomes.countUpTo page) (by rw [Ends, h])
  | .error _ => isTrue (by rw [Ends, h]; trivial)

/-- Whether a page is the first one that ends a discovery. -/
structure IsLast (last : Nat) : Prop where
  pos : 0 < last
  ends : outcomes.Ends last
  not_ends : ∀ page, 0 < page → page < last → ¬ outcomes.Ends page

/-- What is found on a page: its items, counted on from those of earlier pages, with its
total. -/
def found (page : Nat) : List Found :=
  match outcomes page with
  | .ok result =>
    (result.items.zipIdx (outcomes.countUpTo (page - 1) + 1)).map fun (item, index) =>
      ⟨item, index, result.total⟩
  | .error _ => []

/-- The items of a page, each with the total of the page. -/
def offers (page : Nat) : List (Listed × Int) :=
  match outcomes page with
  | .ok result => result.items.map (·, result.total)
  | .error _ => []

/-- What is found on the pages up to one: all their items, counted from one. -/
def foundUpTo (page : Nat) : List Found :=
  (((List.range' 1 page).flatMap outcomes.offers).zipIdx 1).map fun ((item, total), index) =>
    ⟨item, index, total⟩

/-- The steps that a page takes: the request, and what comes of it. -/
def steps (page : Nat) : List Step :=
  .request page ::
    match outcomes page with
    | .ok _ => (outcomes.found page).map .found
    | .error failure => [.failed page failure]

/-- The steps that the pages up to one take. -/
def stepsUpTo (page : Nat) : List Step :=
  (List.range' 1 page).flatMap outcomes.steps

end Outcomes

/-! ## Steps -/

theorem finds_eq (total : Int) (before : Nat) (items : List Listed) :
    finds total before items =
      (items.zipIdx (before + 1)).map fun (item, index) => ⟨item, index, total⟩ := by
  induction items generalizing before with
  | nil => rfl
  | cons item rest ih => rw [finds, ih, List.zipIdx_cons, List.map_cons]

namespace Outcomes

variable {outcomes : Outcomes} {page : Nat} {result : Page}

theorem countUpTo_of_ok (h : outcomes (page + 1) = .ok result) :
    outcomes.countUpTo (page + 1) = outcomes.countUpTo page + result.items.length := by
  rw [countUpTo, items, h]

theorem found_of_ok (h : outcomes (page + 1) = .ok result) :
    outcomes.found (page + 1) = finds result.total (outcomes.countUpTo page) result.items := by
  rw [finds_eq, found, h, Nat.add_sub_cancel]

theorem ends_of_ok (h : outcomes page = .ok result) :
    outcomes.Ends page ↔ result.items = [] ∨ result.total ≤ outcomes.countUpTo page := by
  rw [Ends, h]

end Outcomes

variable (source : Source) (answers : Nat → PageAnswer)

/-- The discovery from the request for a page on takes the steps of that page first. -/
theorem stepsFrom_cons (page : Nat) (rest : List PageAnswer) :
    ∃ later,
      stepsFrom source (page + 1) ((outcomes source answers).countUpTo page)
          (answers (page + 1) :: rest) = (outcomes source answers).steps (page + 1) ++ later ∧
      ((outcomes source answers).Ends (page + 1) → later = []) ∧
      (¬ (outcomes source answers).Ends (page + 1) →
        later = stepsFrom source (page + 1 + 1)
          ((outcomes source answers).countUpTo (page + 1)) rest) := by
  have houtcome : Page.ofAnswer source (page + 1) (answers (page + 1)) =
      outcomes source answers (page + 1) := rfl
  rw [stepsFrom, houtcome, Outcomes.steps, Outcomes.Ends]
  cases h : outcomes source answers (page + 1) with
  | error failure => exact ⟨[], rfl, fun _ => rfl, fun hends => absurd trivial hends⟩
  | ok result =>
    simp only [Outcomes.countUpTo_of_ok h, Outcomes.found_of_ok h]
    refine ⟨_, rfl, fun hends => ?_, fun hends => ?_⟩
    · by_cases hempty : result.items = []
      · rw [if_pos (List.isEmpty_iff.2 hempty)]
      · rw [if_neg (by simpa using hempty),
          if_pos (by exact_mod_cast hends.resolve_left hempty)]
    · obtain ⟨hempty, htotal⟩ := not_or.1 hends
      rw [if_neg (by simpa using hempty), if_neg (by exact_mod_cast htotal)]

/-- Pages that do not end a discovery are followed by the next one. -/
theorem stepsFrom_append (page count : Nat) (rest : List PageAnswer)
    (h : ∀ next, page < next → next ≤ page + count → ¬ (outcomes source answers).Ends next) :
    stepsFrom source (page + 1) ((outcomes source answers).countUpTo page)
        ((List.range' (page + 1) count).map answers ++ rest) =
      (List.range' (page + 1) count).flatMap (outcomes source answers).steps ++
        stepsFrom source (page + count + 1)
          ((outcomes source answers).countUpTo (page + count)) rest := by
  induction count generalizing page with
  | zero => rfl
  | succ count ih =>
    obtain ⟨later, hsteps, -, hlater⟩ := stepsFrom_cons source answers page
      ((List.range' (page + 1 + 1) count).map answers ++ rest)
    have hnext : page + 1 + count = page + (count + 1) := by omega
    rw [List.range'_succ, List.map_cons, List.cons_append, hsteps,
      hlater (h (page + 1) (by omega) (by omega)), List.flatMap_cons, List.append_assoc,
      ih (page + 1) fun next hafter hupTo => h next (by omega) (by omega), hnext]

/-- The steps of a discovery whose first pages do not end it. -/
theorem steps_append (count : Nat) (rest : List PageAnswer)
    (h : ∀ page, 0 < page → page ≤ count → ¬ (outcomes source answers).Ends page) :
    steps source ((List.range' 1 count).map answers ++ rest) =
      (outcomes source answers).stepsUpTo count ++
        stepsFrom source (count + 1) ((outcomes source answers).countUpTo count) rest := by
  have happend := stepsFrom_append source answers 0 count rest fun page hpos hupTo =>
    h page hpos (by omega)
  simp only [Nat.zero_add] at happend
  exact happend

/-- Where none of the answered pages ends a discovery, it goes on to the next one, which is not
answered any more. -/
theorem steps_of_not_ends {count : Nat}
    (h : ∀ page, 0 < page → page ≤ count → ¬ (outcomes source answers).Ends page) :
    steps source ((List.range' 1 count).map answers) =
      (outcomes source answers).stepsUpTo count ++
        [.request (count + 1),
          .failed (count + 1) (.fault (.unreachable .request noMorePages))] := by
  rw [← List.append_nil ((List.range' 1 count).map answers), steps_append source answers _ _ h]
  rfl

/-- The steps of a discovery begin with those of the pages up to any one that it gets to.  There are
no others if that page ends it. -/
theorem exists_steps_eq_append {page count : Nat} (hpos : 0 < page) (hcount : page ≤ count)
    (h : ∀ earlier, 0 < earlier → earlier < page → ¬ (outcomes source answers).Ends earlier) :
    ∃ later, steps source ((List.range' 1 count).map answers) =
        (outcomes source answers).stepsUpTo page ++ later ∧
      ((outcomes source answers).Ends page → later = []) := by
  obtain ⟨before, rfl⟩ := Nat.exists_eq_add_one.2 hpos
  obtain ⟨more, rfl⟩ := Nat.exists_eq_add_of_le hcount
  have hsplit : List.range' 1 (before + 1 + more) =
      List.range' 1 before ++ (before + 1) :: List.range' (before + 1 + 1) more := by
    have hjoin := List.range'_append_1 (s := 1) (m := before) (n := 1 + more)
    rw [← Nat.add_assoc, Nat.add_comm 1 before, Nat.add_comm 1 more, List.range'_succ] at hjoin
    exact hjoin.symm
  obtain ⟨later, hlast, hlater, -⟩ := stepsFrom_cons source answers before
    ((List.range' (before + 1 + 1) more).map answers)
  refine ⟨later, ?_, hlater⟩
  rw [hsplit, List.map_append, List.map_cons, steps_append source answers before _
    fun next hpos hbefore => h next hpos (by omega), hlast, Outcomes.stepsUpTo, Outcomes.stepsUpTo,
    List.range'_1_concat, List.flatMap_append, List.flatMap_singleton, Nat.add_comm 1 before,
    List.append_assoc]

/-- A discovery takes the steps of the pages up to the last one. -/
theorem steps_of_isLast {last count : Nat} (h : (outcomes source answers).IsLast last)
    (hcount : last ≤ count) :
    steps source ((List.range' 1 count).map answers) =
      (outcomes source answers).stepsUpTo last := by
  obtain ⟨later, hsteps, hlater⟩ :=
    exists_steps_eq_append source answers h.pos hcount h.not_ends
  rw [hsteps, hlater h.ends, List.append_nil]

/-! ## What is found -/

namespace Outcomes

variable (outcomes : Outcomes)

@[simp]
theorem length_offers (page : Nat) :
    (outcomes.offers page).length = (outcomes.items page).length := by
  rw [offers, items]
  cases outcomes page with
  | ok result => exact List.length_map _
  | error failure => rfl

theorem length_flatMap_offers (page : Nat) :
    ((List.range' 1 page).flatMap outcomes.offers).length = outcomes.countUpTo page := by
  induction page with
  | zero => rfl
  | succ page ih =>
    rw [List.range'_1_concat, List.flatMap_append, List.flatMap_singleton, List.length_append, ih,
      length_offers, countUpTo, Nat.add_comm 1 page]

/-- The items of a page are counted on from those of earlier pages. -/
theorem foundUpTo_succ (page : Nat) :
    outcomes.foundUpTo (page + 1) = outcomes.foundUpTo page ++ outcomes.found (page + 1) := by
  have hlast : outcomes.found (page + 1) =
      ((outcomes.offers (page + 1)).zipIdx (1 + outcomes.countUpTo page)).map
        fun ((item, total), index) => ⟨item, index, total⟩ := by
    rw [found, offers, Nat.add_sub_cancel, Nat.add_comm 1]
    cases outcomes (page + 1) with
    | error failure => rfl
    | ok result =>
      simp only [List.zipIdx_map, List.map_map]
      rfl
  rw [foundUpTo, List.range'_1_concat, List.flatMap_append, List.flatMap_singleton,
    List.zipIdx_append, List.map_append, length_flatMap_offers, Nat.add_comm 1 page, hlast,
    foundUpTo]

theorem stepsUpTo_succ (page : Nat) :
    outcomes.stepsUpTo (page + 1) = outcomes.stepsUpTo page ++ outcomes.steps (page + 1) := by
  rw [stepsUpTo, List.range'_1_concat, List.flatMap_append, List.flatMap_singleton,
    Nat.add_comm 1 page, stepsUpTo]

/-- A page after which another one is requested could be had. -/
theorem exists_eq_ok {page : Nat} (h : ¬ outcomes.Ends page) :
    ∃ result, outcomes page = .ok result := by
  rw [Ends] at h
  cases hpage : outcomes page with
  | ok result => exact ⟨result, rfl⟩
  | error failure =>
    rw [hpage] at h
    exact absurd trivial h

end Outcomes

/-! ## Consumption -/

/-- Takes down a repository and wants more. -/
def collect (repository : Found) : Action (List Found) Bool := do
  Action.changeOwn (· ++ [repository])
  return true

/-- Takes down all repositories that a source discovers. -/
def consume (source : Source) : Action (List Found) Unit :=
  visitAll source collect

/-- The request for a page. -/
def requestOf (source : Source) (page : Nat) : Event :=
  .request source.credentials? source.query? page source.perPage?

/-- What comes of a part of a consumption: pages are requested, which uses up their answers, and
repositories are taken down.  Nothing else happens but messages. -/
structure Consumes (source : Source) (pages : List Nat) (repositories : List Found)
    (s t : Situation (List Found)) : Prop where
  requests : Situation.Adds (!·.isLog) (pages.map (requestOf source)) s t
  answers : t.world.answers = s.world.answers.drop pages.length
  own : t.own = s.own ++ repositories

namespace Consumes

variable {source : Source}

theorem trans {pages next : List Nat} {repositories more : List Found}
    {s t u : Situation (List Found)} (hst : Consumes source pages repositories s t)
    (htu : Consumes source next more t u) :
    Consumes source (pages ++ next) (repositories ++ more) s u where
  requests := by
    rw [List.map_append]
    exact hst.requests.trans htu.requests
  answers := by rw [htu.answers, hst.answers, List.drop_drop, List.length_append]
  own := by rw [htu.own, hst.own, List.append_assoc]

end Consumes

/-- A request uses up an answer. -/
theorem run_requestPage (page : Nat) (s : Situation (List Found)) :
    ∃ t, (requestPage source page).run s = .ok () t ∧ Consumes source [page] [] s t := by
  have hsaid := s.adds_record (!·.isLog) (.log .info ("Source \"" ++ Source.name ++
    "\" searching GitHub for repos (page " ++ toString page ++ ")"))
  have hrequested := hsaid.trans (Situation.adds_record (!·.isLog) _ (requestOf source page))
  exact ⟨_, rfl, ⟨hrequested, rfl, (List.append_nil _).symm⟩⟩

/-- What is found is taken down in its order. -/
theorem pursue_found (repositories : List Found) (rest : List Step)
    (s : Situation (List Found)) :
    (pursue source collect (repositories.map .found ++ rest)).run s =
      (pursue source collect rest).run { s with own := s.own ++ repositories } := by
  induction repositories generalizing s with
  | nil => simp
  | cons repository more ih =>
    rw [List.append_cons]
    exact ih { s with own := s.own ++ [repository] }

/-- The steps of a page are its request, and either its items are taken down or its failure
ends the consumption. -/
theorem pursue_steps (outcomes : Outcomes) (page : Nat) (rest : List Step)
    (s : Situation (List Found)) :
    ∃ t, Consumes source [page] (outcomes.found page) s t ∧
      (pursue source collect (outcomes.steps page ++ rest)).run s =
        match outcomes page with
        | .ok _ => (pursue source collect rest).run t
        | .error failure => .error (Failure.ofPage source.queryText page failure) t := by
  obtain ⟨t, hrequest, hrequested⟩ := run_requestPage source page s
  have hrun (later : List Step) : (pursue source collect (.request page :: later)).run s =
      (pursue source collect later).run t := by
    rw [pursue, EStateM.run_bind, hrequest]
  cases h : outcomes page with
  | error failure =>
    refine ⟨t, by simpa [Outcomes.found, h] using hrequested, ?_⟩
    rw [Outcomes.steps, h, List.cons_append, hrun]
    rfl
  | ok result =>
    have htaken : Consumes source [] (outcomes.found page) t
        { t with own := t.own ++ outcomes.found page } := ⟨t.adds_self _, rfl, rfl⟩
    refine ⟨_, hrequested.trans htaken, ?_⟩
    rw [Outcomes.steps, h, List.cons_append, hrun, pursue_found]

/-- Pages that can be had are consumed one after the other. -/
theorem pursue_stepsUpTo (outcomes : Outcomes) (count : Nat) (rest : List Step)
    (s : Situation (List Found))
    (h : ∀ page, 0 < page → page ≤ count → ∃ result, outcomes page = .ok result) :
    ∃ t, Consumes source (List.range' 1 count) (outcomes.foundUpTo count) s t ∧
      (pursue source collect (outcomes.stepsUpTo count ++ rest)).run s =
        (pursue source collect rest).run t := by
  induction count generalizing rest with
  | zero => exact ⟨s, ⟨s.adds_self _, rfl, (List.append_nil _).symm⟩, rfl⟩
  | succ count ih =>
    obtain ⟨t, hconsumes, hrun⟩ := ih (outcomes.steps (count + 1) ++ rest)
      fun page hpos hupTo => h page hpos (by omega)
    obtain ⟨result, hresult⟩ := h (count + 1) (by omega) (by omega)
    obtain ⟨u, hlast, hlastRun⟩ := pursue_steps source outcomes (count + 1) rest t
    rw [hresult] at hlastRun
    refine ⟨u, ?_, ?_⟩
    · rw [List.range'_1_concat, Nat.add_comm 1 count, outcomes.foundUpTo_succ]
      exact hconsumes.trans hlast
    · rw [outcomes.stepsUpTo_succ, List.append_assoc, hrun, hlastRun]

/-- The last page ends the consumption, as the failure that it is or without one. -/
theorem pursue_stepsUpTo_of_isLast {outcomes : Outcomes} {last : Nat} (h : outcomes.IsLast last)
    (s : Situation (List Found)) :
    ∃ t, Consumes source (List.range' 1 last) (outcomes.foundUpTo last) s t ∧
      (pursue source collect (outcomes.stepsUpTo last)).run s =
        match outcomes last with
        | .ok _ => .ok () t
        | .error failure => .error (Failure.ofPage source.queryText last failure) t := by
  obtain ⟨page, rfl⟩ := Nat.exists_eq_add_one.2 h.pos
  obtain ⟨t, hbefore, hrun⟩ := pursue_stepsUpTo source outcomes page
    (outcomes.steps (page + 1)) s fun earlier hpos hle =>
      outcomes.exists_eq_ok (h.not_ends earlier hpos (by omega))
  obtain ⟨u, hend, hendRun⟩ := pursue_steps source outcomes (page + 1) [] t
  refine ⟨u, ?_, ?_⟩
  · rw [List.range'_1_concat, Nat.add_comm 1 page, outcomes.foundUpTo_succ]
    exact hbefore.trans hend
  · rw [outcomes.stepsUpTo_succ, hrun, ← List.append_nil (outcomes.steps (page + 1)), hendRun]
    rfl

/-- Where no page ends the consumption, the next one is requested. -/
theorem pursue_stepsUpTo_of_not_ends {outcomes : Outcomes} {count : Nat}
    (h : ∀ page, 0 < page → page ≤ count → ¬ outcomes.Ends page) (failure : PageFailure)
    (s : Situation (List Found)) :
    ∃ t, Consumes source (List.range' 1 (count + 1)) (outcomes.foundUpTo count) s t ∧
      (pursue source collect (outcomes.stepsUpTo count ++
          [.request (count + 1), .failed (count + 1) failure])).run s =
        .error (Failure.ofPage source.queryText (count + 1) failure) t := by
  obtain ⟨t, hbefore, hrun⟩ := pursue_stepsUpTo source outcomes count
    [.request (count + 1), .failed (count + 1) failure] s
    fun page hpos hle => outcomes.exists_eq_ok (h page hpos hle)
  obtain ⟨u, hrequest, hrequested⟩ := run_requestPage source (count + 1) t
  refine ⟨u, ?_, ?_⟩
  · rw [List.range'_1_concat, Nat.add_comm 1 count, ← List.append_nil (outcomes.foundUpTo count)]
    exact hbefore.trans hrequested
  · rw [hrun, pursue, EStateM.run_bind, hrequest]
    rfl

/-- Consuming a discovery requests the pages up to the first one whose request fails, which is
empty or up to which there are as many items as it says there are in total, and no other; as long
as there is no such page, the next one is requested.  The items of these pages are found in their
order, counted from one and with the totals of their own pages, each before the next page is
requested.  A failure ends the consumption after what was found before it. -/
theorem consume_pages {source : Source} {answers : Nat → PageAnswer} {count : Nat}
    {s : Situation (List Found)} (h : s.world.answers = (List.range' 1 count).map answers) :
    let outcomes := outcomes source answers
    (∀ last ≤ count, outcomes.IsLast last →
      steps source s.world.answers = outcomes.stepsUpTo last ∧
      ∃ t, Consumes source (List.range' 1 last) (outcomes.foundUpTo last) s t ∧
        (consume source).run s =
          match outcomes last with
          | .ok _ => .ok () t
          | .error failure => .error (Failure.ofPage source.queryText last failure) t) ∧
    ((∀ page, 0 < page → page ≤ count → ¬ outcomes.Ends page) →
      let unanswered := PageFailure.fault (.unreachable .request noMorePages)
      steps source s.world.answers = outcomes.stepsUpTo count ++
        [.request (count + 1), .failed (count + 1) unanswered] ∧
      ∃ t, Consumes source (List.range' 1 (count + 1)) (outcomes.foundUpTo count) s t ∧
        (consume source).run s =
          .error (Failure.ofPage source.queryText (count + 1) unanswered) t) := by
  intro outcomes
  have hconsume : (consume source).run s =
      (pursue source collect (steps source s.world.answers)).run s := rfl
  refine ⟨fun last hupTo hlast => ?_, fun hgoesOn => ?_⟩
  · have hsteps := steps_of_isLast source answers hlast hupTo
    rw [← h] at hsteps
    rw [hconsume, hsteps]
    exact ⟨rfl, pursue_stepsUpTo_of_isLast source hlast s⟩
  · have hsteps := steps_of_not_ends source answers hgoesOn
    rw [← h] at hsteps
    rw [hconsume, hsteps]
    exact ⟨rfl, pursue_stepsUpTo_of_not_ends source hgoesOn _ s⟩

/-- Answers of which the first one is a page with one of nine repositories and the others do not
arrive. -/
def brokenOff : Nat → PageAnswer
  | 1 => .response (some 200) "OK" ("\x7b\"total_count\":9,\"items\":[" ++
      "\x7b\"full_name\":\"o/a\",\"clone_url\":\"a\"\x7d]\x7d")
  | _ => .unreachable .request "timeout"

/-- The repository of the first page is found before the second one fails, and the answer to a
request for a third one is left. -/
theorem consume_pages_brokenOff :
    let s : Situation (List Found) := ⟨{ answers := (List.range' 1 3).map brokenOff }, []⟩
    ∃ t, (consume {}).run s =
        .error (.page "language:kotlin" 2 (.unreachable .request "timeout")) t ∧
      Consumes {} [1, 2] ((outcomes {} brokenOff).foundUpTo 2) s t ∧
      t.own.map (fun repository => (repository.index, repository.total)) = [(1, 9)] := by
  intro s
  have hlast : (outcomes {} brokenOff).IsLast 2 := by
    refine ⟨by decide, trivial, fun page hpos hbefore => ?_⟩
    obtain rfl : page = 1 := by omega
    decide +kernel
  have hconsumed := @consume_pages {} brokenOff 3 s rfl
  obtain ⟨-, t, hconsumes, hrun⟩ := hconsumed.1 2 (by decide) hlast
  have hfound : ((outcomes {} brokenOff).foundUpTo 2).map
      (fun repository => (repository.index, repository.total)) = [(1, 9)] := by
    decide +kernel
  refine ⟨t, hrun, hconsumes, ?_⟩
  rw [hconsumes.own]
  exact hfound

end Discovery
end FeatureCensus

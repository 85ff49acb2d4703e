import FeatureCensus.Proofs.Search.Totals

/-!
# Visitors that stop a discovery

After each repository a visitor decides whether it wants more, from all that it has been handed so
far.  As long as it wants more, a discovery is the same for it as for one that wants everything.  At
its first refusal the discovery ends as if nothing came after that repository, so the next page is
not requested, and what would come of it makes no difference.

Main results:

- Theorem {lit}`Discovery.pursue_consult_of_accepts`: a visitor that refuses nothing gets
  everything.
- Theorem {lit}`Discovery.pursue_consult_of_refuses`: nothing comes after the first refusal.
- Theorem {lit}`Discovery.Outcomes.accepts_of_not_stopsAt`: a visitor that stops nowhere refuses
  nothing.
- Theorem {lit}`Discovery.process_pages`: what a discovery for a visitor comes to.
-/

namespace FeatureCensus
namespace Discovery

/-! ## Visitors -/

/-- Takes down a repository, and wants more if that follows from all that has been taken down. -/
def consult (wants : List Found → Bool) (repository : Found) : Action (List Found) Bool := do
  Action.changeOwn (· ++ [repository])
  return wants (← Action.own)

/-- Hands the repositories that a source discovers to such a visitor. -/
def process (source : Source) (wants : List Found → Bool) : Action (List Found) Unit :=
  visitAll source (consult wants)

theorem run_consult (wants : List Found → Bool) (repository : Found)
    (s : Situation (List Found)) :
    (consult wants repository).run s = .ok (wants (s.own ++ [repository]))
      { s with own := s.own ++ [repository] } := rfl

/-- Whether more is wanted after each of some repositories, which come after earlier ones. -/
def Accepts (wants : List Found → Bool) (before repositories : List Found) : Prop :=
  ∀ n, 0 < n → n ≤ repositories.length → wants (before ++ repositories.take n) = true

theorem accepts_cons {wants : List Found → Bool} {before rest : List Found} {repository : Found} :
    Accepts wants before (repository :: rest) ↔
      wants (before ++ [repository]) = true ∧ Accepts wants (before ++ [repository]) rest := by
  constructor
  · intro h
    refine ⟨h 1 Nat.one_pos (Nat.succ_le_succ (Nat.zero_le _)), fun n hpos hle => ?_⟩
    rw [List.append_assoc]
    exact h (n + 1) (Nat.succ_pos n) (Nat.succ_le_succ hle)
  · rintro ⟨hfirst, hrest⟩ n hpos hle
    obtain ⟨more, rfl⟩ := Nat.exists_eq_add_one.2 hpos
    rw [List.take_succ_cons, List.append_cons]
    cases more with
    | zero => simpa using hfirst
    | succ more => exact hrest (more + 1) (Nat.succ_pos more) (Nat.le_of_succ_le_succ hle)

/-! ## Steps -/

/-- The repository that a step finds. -/
def Step.found? : Step → Option Found
  | .found repository => some repository
  | .request _ | .failed _ _ => none

/-- The repositories that steps find. -/
def foundIn (steps : List Step) : List Found :=
  steps.filterMap Step.found?

theorem foundIn_append (steps later : List Step) :
    foundIn (steps ++ later) = foundIn steps ++ foundIn later :=
  List.filterMap_append

@[simp]
theorem foundIn_found (repository : Found) (rest : List Step) :
    foundIn (.found repository :: rest) = repository :: foundIn rest := rfl

@[simp]
theorem foundIn_request (page : Nat) (rest : List Step) :
    foundIn (.request page :: rest) = foundIn rest := rfl

@[simp]
theorem foundIn_failed (page : Nat) (failure : PageFailure) (rest : List Step) :
    foundIn (.failed page failure :: rest) = foundIn rest := rfl

@[simp]
theorem foundIn_map_found (repositories : List Found) :
    foundIn (repositories.map .found) = repositories := by
  rw [foundIn, List.filterMap_map]
  exact List.filterMap_some

variable {source : Source} {wants : List Found → Bool} {s : Situation (List Found)}

/-- A request is the same for all visitors. -/
theorem pursue_request_congr {visit other : Found → Action (List Found) Bool} (page : Nat)
    {rest more : List Step}
    (h : ∀ t : Situation (List Found), t.own = s.own →
      (pursue source visit rest).run t = (pursue source other more).run t) :
    (pursue source visit (.request page :: rest)).run s =
      (pursue source other (.request page :: more)).run s := by
  obtain ⟨t, hrequest, hrequested⟩ := run_requestPage source page s
  rw [pursue, pursue, EStateM.run_bind, EStateM.run_bind, hrequest]
  exact h t (by rw [hrequested.own, List.append_nil])

/-- A visitor that wants more after a repository gets it as one that wants everything does. -/
theorem pursue_consult_found {repository : Found} (h : wants (s.own ++ [repository]) = true)
    (rest : List Step) :
    (pursue source (consult wants) (.found repository :: rest)).run s =
      (pursue source (consult wants) rest).run { s with own := s.own ++ [repository] } := by
  rw [pursue, EStateM.run_bind, run_consult, h]
  rfl

/-- A visitor that refuses nothing gets everything. -/
theorem pursue_consult_of_accepts (steps : List Step) (h : Accepts wants s.own (foundIn steps)) :
    (pursue source (consult wants) steps).run s = (pursue source collect steps).run s := by
  induction steps generalizing s with
  | nil => rfl
  | cons step rest ih =>
    cases step with
    | failed page failure => rfl
    | request page =>
      exact pursue_request_congr page fun t ht => ih (by rw [ht]; exact h)
    | found repository =>
      obtain ⟨hfirst, hrest⟩ := accepts_cons.1 h
      rw [pursue_consult_found hfirst, ih hrest]
      rfl

/-- Nothing comes after the first repository after which no more is wanted. -/
theorem pursue_consult_of_refuses (steps rest : List Step) {repository : Found}
    (h : Accepts wants s.own (foundIn steps))
    (hrefused : wants (s.own ++ foundIn steps ++ [repository]) = false) :
    (pursue source (consult wants) (steps ++ .found repository :: rest)).run s =
      (pursue source collect (steps ++ [.found repository])).run s := by
  induction steps generalizing s with
  | nil =>
    rw [foundIn, List.filterMap_nil, List.append_nil] at hrefused
    rw [List.nil_append, pursue, EStateM.run_bind, run_consult, hrefused]
    rfl
  | cons step others ih =>
    cases step with
    | failed page failure => rfl
    | request page =>
      exact pursue_request_congr page fun t ht =>
        ih (by rw [ht]; exact h) (by rw [ht]; exact hrefused)
    | found first =>
      obtain ⟨hfirst, hothers⟩ := accepts_cons.1 h
      rw [foundIn_found, List.append_cons s.own] at hrefused
      rw [List.cons_append, pursue_consult_found hfirst, ih hothers hrefused]
      rfl

/-! ## Places of repositories -/

namespace Outcomes

variable (outcomes : Outcomes)

theorem length_foundUpTo (page : Nat) :
    (outcomes.foundUpTo page).length = outcomes.countUpTo page := by
  rw [foundUpTo, List.length_map, List.length_zipIdx, length_flatMap_offers]

theorem length_found (page : Nat) :
    (outcomes.found page).length = (outcomes.items page).length := by
  rw [found, items]
  cases outcomes page with
  | ok result => rw [List.length_map, List.length_zipIdx]
  | error failure => rfl

theorem foundIn_steps (page : Nat) : foundIn (outcomes.steps page) = outcomes.found page := by
  rw [steps, found, foundIn_request]
  cases outcomes page with
  | ok result => exact foundIn_map_found _
  | error failure => rfl

theorem foundIn_stepsUpTo (page : Nat) :
    foundIn (outcomes.stepsUpTo page) = outcomes.foundUpTo page := by
  induction page with
  | zero => rfl
  | succ page ih => rw [stepsUpTo_succ, foundIn_append, ih, foundIn_steps, foundUpTo_succ]

/-- What is found on earlier pages comes first. -/
theorem foundUpTo_prefix {page last : Nat} (h : page ≤ last) :
    outcomes.foundUpTo page <+: outcomes.foundUpTo last := by
  obtain ⟨more, rfl⟩ := Nat.exists_eq_add_of_le h
  clear h
  induction more with
  | zero => exact List.prefix_rfl
  | succ more ih =>
    rw [← Nat.add_assoc, foundUpTo_succ]
    exact ih.trans (List.prefix_append _ _)

theorem take_foundUpTo {page last n : Nat} (h : page ≤ last) (hn : n ≤ outcomes.countUpTo page) :
    (outcomes.foundUpTo last).take n = (outcomes.foundUpTo page).take n := by
  obtain ⟨rest, hrest⟩ := outcomes.foundUpTo_prefix h
  rw [← hrest, List.take_append_of_le_length (by rwa [length_foundUpTo])]

/-- Each repository that is found up to a page stands on one of these pages. -/
theorem exists_page {last n : Nat} (hpos : 0 < n) (hn : n ≤ outcomes.countUpTo last) :
    ∃ page, 0 < page ∧ page ≤ last ∧ outcomes.countUpTo (page - 1) < n ∧
      n ≤ outcomes.countUpTo page := by
  induction last with
  | zero => exact absurd hn (Nat.not_le.2 hpos)
  | succ last ih =>
    by_cases hearlier : n ≤ outcomes.countUpTo last
    · obtain ⟨page, hpage, hle, hafter, hupTo⟩ := ih hearlier
      exact ⟨page, hpage, Nat.le_succ_of_le hle, hafter, hupTo⟩
    · exact ⟨last + 1, Nat.succ_pos last, Nat.le_refl _, Nat.not_le.1 hearlier, hn⟩

/-- Whether a visitor first refuses more after the repository of a number, which stands on a page
that the discovery gets to. -/
structure StopsAt (wants : List Found → Bool) (page number : Nat) : Prop where
  reached : ∀ earlier, 0 < earlier → earlier < page → ¬ outcomes.Ends earlier
  after : outcomes.countUpTo (page - 1) < number
  upTo : number ≤ outcomes.countUpTo page
  wanted : ∀ earlier, 0 < earlier → earlier < number →
    wants ((outcomes.foundUpTo page).take earlier) = true
  refused : wants ((outcomes.foundUpTo page).take number) = false

/-- A visitor that stops nowhere refuses nothing of what is found up to a page. -/
theorem accepts_of_not_stopsAt {last : Nat}
    (hreached : ∀ earlier, 0 < earlier → earlier < last → ¬ outcomes.Ends earlier)
    (h : ∀ page ≤ last, ∀ number, ¬ outcomes.StopsAt wants page number) :
    Accepts wants [] (outcomes.foundUpTo last) := by
  intro number
  induction number using Nat.strongRecOn with
  | ind number ih =>
    intro hpos hle
    rw [List.nil_append, ← Bool.not_eq_false]
    intro hrefused
    rw [length_foundUpTo] at hle
    obtain ⟨page, -, hpage, hafter, hupTo⟩ := outcomes.exists_page hpos hle
    refine h page hpage number ⟨fun earlier hearlier hlt => hreached earlier hearlier (by omega),
      hafter, hupTo, fun earlier hearlier hlt => ?_, ?_⟩
    · have haccepted := ih earlier hlt hearlier (by rw [length_foundUpTo]; omega)
      rwa [List.nil_append, outcomes.take_foundUpTo hpage (by omega)] at haccepted
    · rwa [outcomes.take_foundUpTo hpage hupTo] at hrefused

/-- Where a visitor stops, the page can be had, and its items up to that place come after those of
the earlier pages. -/
theorem StopsAt.exists_found {outcomes : Outcomes} {page number : Nat}
    (h : outcomes.StopsAt wants (page + 1) number) :
    ∃ before repository later, outcomes.found (page + 1) = before ++ repository :: later ∧
      outcomes.steps (page + 1) =
        .request (page + 1) :: (outcomes.found (page + 1)).map .found ∧
      (outcomes.foundUpTo (page + 1)).take number =
        outcomes.foundUpTo page ++ before ++ [repository] := by
  have hafter : outcomes.countUpTo page < number := h.after
  have hupTo : number ≤ outcomes.countUpTo page + (outcomes.items (page + 1)).length := h.upTo
  obtain ⟨place, rfl⟩ := Nat.exists_eq_add_of_lt hafter
  have hplace : place < (outcomes.found (page + 1)).length := by
    rw [length_found]
    omega
  refine ⟨(outcomes.found (page + 1)).take place, (outcomes.found (page + 1))[place],
    (outcomes.found (page + 1)).drop (place + 1), ?_, ?_, ?_⟩
  · rw [List.getElem_cons_drop, List.take_append_drop]
  · cases hpage : outcomes (page + 1) with
    | ok result => rw [steps, hpage]
    | error failure =>
      rw [found, hpage] at hplace
      exact absurd hplace (Nat.not_lt_zero place)
  · rw [foundUpTo_succ, List.take_append, length_foundUpTo,
      List.take_of_length_le (by rw [length_foundUpTo]; omega), List.append_assoc,
      List.take_append_getElem hplace]
    congr 2
    omega

/-- Before it stops a visitor refuses nothing. -/
theorem StopsAt.accepts {outcomes : Outcomes} {page number : Nat} {before : List Found}
    {repository : Found} (h : outcomes.StopsAt wants page number)
    (htake : (outcomes.foundUpTo page).take number = before ++ [repository]) :
    Accepts wants [] before := by
  have hnumber : number = before.length + 1 := by
    have hlength := congrArg List.length htake
    rw [List.length_take, length_foundUpTo, Nat.min_eq_left h.upTo] at hlength
    exact hlength.trans List.length_append
  intro n hpos hle
  have hwanted := h.wanted n hpos (by omega)
  rw [← Nat.min_eq_left (show n ≤ number by omega), ← List.take_take, htake,
    List.take_append_of_le_length hle] at hwanted
  exact hwanted

end Outcomes

/-! ## Discoveries -/

/-- The pages up to one and a part of the next one are consumed one after the other. -/
theorem pursue_part (source : Source) (outcomes : Outcomes) (page : Nat) (part : List Found)
    (s : Situation (List Found))
    (h : ∀ earlier, 0 < earlier → earlier ≤ page → ∃ result, outcomes earlier = .ok result) :
    ∃ t, (pursue source collect
        (outcomes.stepsUpTo page ++ .request (page + 1) :: part.map .found)).run s = .ok () t ∧
      Consumes source (List.range' 1 (page + 1)) (outcomes.foundUpTo page ++ part) s t := by
  obtain ⟨t, hbefore, hrun⟩ := pursue_stepsUpTo source outcomes page
    (.request (page + 1) :: part.map .found) s h
  obtain ⟨u, hrequest, hrequested⟩ := run_requestPage source (page + 1) t
  have htaken : Consumes source [] part u { u with own := u.own ++ part } :=
    ⟨u.adds_self _, rfl, rfl⟩
  refine ⟨{ u with own := u.own ++ part }, ?_, ?_⟩
  · have htake := pursue_found source part [] u
    rw [List.append_nil] at htake
    rw [hrun, pursue, EStateM.run_bind, hrequest]
    exact htake
  · rw [List.range'_1_concat, Nat.add_comm 1 page]
    exact hbefore.trans (hrequested.trans htaken)

/-- Where a visitor stops, the discovery has requested the pages up to that one and ends without a
failure. -/
theorem run_process_of_stopsAt {answers : Nat → PageAnswer} {count page number : Nat}
    (h : (outcomes source answers).StopsAt wants page number) (hcount : page ≤ count)
    (hanswers : s.world.answers = (List.range' 1 count).map answers) (hown : s.own = []) :
    ∃ t, (process source wants).run s = .ok () t ∧
      Consumes source (List.range' 1 page)
        (((outcomes source answers).foundUpTo page).take number) s t := by
  have hpos : 0 < page := by
    refine Nat.pos_of_ne_zero ?_
    rintro rfl
    exact Nat.not_lt.2 h.upTo h.after
  obtain ⟨earlier, rfl⟩ := Nat.exists_eq_add_one.2 hpos
  obtain ⟨later, hsteps, -⟩ := exists_steps_eq_append source answers hpos hcount h.reached
  obtain ⟨before, repository, others, hfound, hpage, htake⟩ := h.exists_found
  let steps := (outcomes source answers).stepsUpTo earlier ++
    .request (earlier + 1) :: before.map .found
  have hprocess : (process source wants).run s = (pursue source (consult wants)
      (steps ++ .found repository :: (others.map .found ++ later))).run s := by
    have hlook : (process source wants).run s = (pursue source (consult wants)
        (Discovery.steps source s.world.answers)).run s := rfl
    rw [hlook, hanswers, hsteps, Outcomes.stepsUpTo_succ, hpage, hfound]
    simp [steps]
  have hbefore : foundIn steps = (outcomes source answers).foundUpTo earlier ++ before := by
    rw [foundIn_append, Outcomes.foundIn_stepsUpTo, foundIn_request, foundIn_map_found]
  have haccepts : Accepts wants s.own (foundIn steps) := by
    rw [hown, hbefore]
    exact h.accepts htake
  have hrefused : wants (s.own ++ foundIn steps ++ [repository]) = false := by
    rw [hown, hbefore, List.nil_append, ← htake]
    exact h.refused
  obtain ⟨t, hrun, hconsumes⟩ := pursue_part source (outcomes source answers) earlier
    (before ++ [repository]) s fun page hpage hle =>
      (outcomes source answers).exists_eq_ok (h.reached page hpage (by omega))
  refine ⟨t, ?_, ?_⟩
  · rw [hprocess, pursue_consult_of_refuses steps _ haccepts hrefused, ← hrun]
    simp [steps]
  · rw [htake, List.append_assoc]
    exact hconsumes

/-- A discovery for a visitor that decides after each repository, from all that it has been handed,
whether it wants more.  Where it first wants no more, the pages up to that one have been requested
and no other, what was found up to there has been handed over, and the discovery ends without a
failure, whatever would come of the next page.  If it always wants more, everything that is found on
the pages up to the last one is handed over, and a failure of that page ends the discovery. -/
theorem process_pages {source : Source} {answers : Nat → PageAnswer} {count : Nat}
    (wants : List Found → Bool) {s : Situation (List Found)}
    (h : s.world.answers = (List.range' 1 count).map answers) (hown : s.own = []) :
    let outcomes := outcomes source answers
    (∀ page ≤ count, ∀ number, outcomes.StopsAt wants page number →
      ∃ t, (process source wants).run s = .ok () t ∧
        Consumes source (List.range' 1 page) ((outcomes.foundUpTo page).take number) s t) ∧
    ((∀ page ≤ count, ∀ number, ¬ outcomes.StopsAt wants page number) →
      (∀ last ≤ count, outcomes.IsLast last →
        ∃ t, Consumes source (List.range' 1 last) (outcomes.foundUpTo last) s t ∧
          (process source wants).run s =
            match outcomes last with
            | .ok _ => .ok () t
            | .error failure => .error (Failure.ofPage source.queryText last failure) t) ∧
      ((∀ page, 0 < page → page ≤ count → ¬ outcomes.Ends page) →
        ∃ t, Consumes source (List.range' 1 (count + 1)) (outcomes.foundUpTo count) s t ∧
          (process source wants).run s =
            .error (Failure.ofPage source.queryText (count + 1)
              (.fault (.unreachable .request noMorePages))) t)) := by
  intro outcomes
  have hprocess : (process source wants).run s =
      (pursue source (consult wants) (steps source s.world.answers)).run s := rfl
  refine ⟨fun page hpage number hstops => run_process_of_stopsAt hstops hpage h hown,
    fun hnever => ⟨fun last hlast hisLast => ?_, fun hgoesOn => ?_⟩⟩
  · have haccepts := outcomes.accepts_of_not_stopsAt hisLast.not_ends
      fun page hle => hnever page (Nat.le_trans hle hlast)
    rw [hprocess, h, steps_of_isLast source answers hisLast hlast, pursue_consult_of_accepts]
    · exact pursue_stepsUpTo_of_isLast source hisLast s
    · rwa [hown, Outcomes.foundIn_stepsUpTo]
  · have haccepts : Accepts wants [] (outcomes.foundUpTo count) :=
      outcomes.accepts_of_not_stopsAt
        (fun earlier hpos hlt => hgoesOn earlier hpos (by omega)) hnever
    rw [hprocess, h, steps_of_not_ends source answers hgoesOn, pursue_consult_of_accepts]
    · exact pursue_stepsUpTo_of_not_ends source hgoesOn _ s
    · rw [hown, foundIn_append, Outcomes.foundIn_stepsUpTo, foundIn_request, foundIn_failed]
      simpa [foundIn] using haccepts

/-- Answers of which two are pages with two of nine repositories each, and the others do not
arrive. -/
def fourThenNone : Nat → PageAnswer
  | 1 => .response (some 200) "OK" (bodyWith 9 ["a", "b"])
  | 2 => .response (some 200) "OK" (bodyWith 9 ["c", "d"])
  | _ => .unreachable .request "timeout"

theorem isPageOf_first :
    isPageOf 9 ["a", "b"] (Page.ofBody {} (bodyWith 9 ["a", "b"])) = true := by
  decide +kernel

theorem isPageOf_second :
    isPageOf 9 ["c", "d"] (Page.ofBody {} (bodyWith 9 ["c", "d"])) = true := by
  decide +kernel

/-- A visitor that wants no more after the last repository of the second page does not see that the
third one fails. -/
theorem process_pages_fourThenNone :
    let s : Situation (List Found) := ⟨{ answers := (List.range' 1 3).map fourThenNone }, []⟩
    ∃ t, (process {} fun heard => heard.length < 4).run s = .ok () t ∧
      Consumes {} [1, 2] (((outcomes {} fourThenNone).foundUpTo 2).take 4) s t ∧
      t.own.map (fun repository => (textsOf repository.listed, repository.index)) =
        [(some ("o/a", "a"), 1), (some ("o/b", "b"), 2), (some ("o/c", "c"), 3),
          (some ("o/d", "d"), 4)] := by
  intro s
  have hfirst : outcomes {} fourThenNone 1 = .ok ⟨9, listedBy ["a", "b"]⟩ :=
    ofAnswer_bodyWith rfl isPageOf_first _
  have hsecond : outcomes {} fourThenNone 2 = .ok ⟨9, listedBy ["c", "d"]⟩ :=
    ofAnswer_bodyWith rfl isPageOf_second _
  have hone : (outcomes {} fourThenNone).countUpTo 1 = 2 := Outcomes.countUpTo_of_ok hfirst
  have htwo : (outcomes {} fourThenNone).countUpTo 2 = 4 := by
    rw [Outcomes.countUpTo_of_ok hsecond, hone]
    rfl
  have hstops : (outcomes {} fourThenNone).StopsAt (fun heard => heard.length < 4) 2 4 := by
    refine ⟨fun page hpos hbefore => ?_, ?_, Nat.le_of_eq htwo.symm, fun n hpos hlt => ?_, ?_⟩
    · obtain rfl : page = 1 := by omega
      rw [Outcomes.ends_of_ok hfirst, hone]
      simp [listedBy]
    · rw [hone]
      decide
    · rw [List.length_take, Outcomes.length_foundUpTo, htwo]
      exact decide_eq_true (by omega)
    · rw [List.length_take, Outcomes.length_foundUpTo, htwo]
      rfl
  have hprocessed := @process_pages {} fourThenNone 3 (fun heard => heard.length < 4) s rfl rfl
  obtain ⟨t, hrun, hconsumes⟩ := hprocessed.1 2 (by decide) 4 hstops
  refine ⟨t, hrun, hconsumes, ?_⟩
  have hfound : (outcomes {} fourThenNone).foundUpTo 2 =
      finds 9 0 (listedBy ["a", "b"]) ++ finds 9 2 (listedBy ["c", "d"]) := by
    rw [Outcomes.foundUpTo_succ _ 1, Outcomes.foundUpTo_succ _ 0, Outcomes.found_of_ok hfirst,
      Outcomes.found_of_ok hsecond, hone]
    rfl
  rw [hconsumes.own, hfound]
  rfl

end Discovery
end FeatureCensus

import FeatureCensus.Proofs.Corpus.Copies
import FeatureCensus.Proofs.Corpus.Histories

/-!
# Handing over copies

While the steps of a discovery are taken, the copies of the discovered repositories are handed over
to a visitor, each in a situation of its own.  A discovered repository comes to nothing else: either
nothing is handed over, or all that is done after the copy is provided is up to the visitor.  So
what happens is what the visitor makes happen, besides requests, messages and version control.

Main results:

- Theorem {lit}`Corpus.handle_cases`: a discovered repository is handed over or comes to nothing.
- Theorem {lit}`Discovery.respects_pursue`: what each step leads to, all steps lead to.
- Theorem {lit}`Corpus.leads_pursue`: what each visit leads to, all of them lead to together.
-/

namespace FeatureCensus

variable {σ : Type}

/-! ## Asides -/

/-- Whether between two situations there is no turning point and nothing of one's own changes. -/
structure Situation.IsAside (s t : Situation σ) : Prop where
  own : t.own = s.own
  uneventful : s.IsUneventful t

instance : IsPreorder (Situation σ) Situation.IsAside where
  refl s := ⟨rfl, s.adds_self _⟩
  trans _ _ _ hst htu := ⟨htu.own.trans hst.own, hst.uneventful.trans htu.uneventful⟩

theorem Situation.isAside_record (s : Situation σ) {event : Event} (h : event.isTurn = false) :
    s.IsAside { s with world := s.world.record event } :=
  ⟨rfl, s.isUneventful_record h⟩

/-- What is sealed and no turning point is an aside, successful or not. -/
theorem Action.IsSealed.isAside {α : Type} {x : Action σ α} (h : x.IsSealed IsRoutine) :
    x.Respects Situation.IsAside := by
  intro s
  obtain ⟨⟨result, basis, events⟩, hevents, hrun⟩ := h s.basis
  have haside : s.IsAside (s.after basis events) := by
    refine ⟨rfl, events, s.events_after basis events, List.filter_eq_nil_iff.2 ?_⟩
    intro event hevent
    rw [hevents event hevent]
    exact Bool.false_ne_true
  rw [hrun s rfl]
  cases result with
  | ok a => exact haside
  | error failure => exact haside

theorem Action.respects_endOf {α : Type} {related : Situation σ → Situation σ → Prop}
    {x : Action σ α} (h : x.Respects related) (s : Situation σ) :
    related s (.endOf (x.run s)) := by
  have hs := h s
  cases hrun : x.run s <;> rw [hrun] at hs <;> exact hs

/-! ## Steps of a discovery -/

namespace Discovery

/-- The repositories that steps of a discovery find, as far as they have usable names. -/
def repos (steps : List Step) : List Repo :=
  steps.filterMap fun step => match step with
    | .found found => Repo.ofListed? found.listed
    | _ => none

theorem repos_found (found : Found) (rest : List Step) :
    repos (.found found :: rest) = (Repo.ofListed? found.listed).toList ++ repos rest := by
  rw [repos, List.filterMap_cons]
  dsimp only
  cases Repo.ofListed? found.listed <;> rfl

/-- Requesting a page is an aside. -/
theorem isAside_requestPage (source : Source) (page : Nat) :
    Action.Respects Situation.IsAside (requestPage source page : Action σ Unit) := by
  intro s
  let asked : Event := .request source.credentials? source.query? page source.perPage?
  let noted : Situation σ := { s with world := s.world.record (.log .info ("Source \"" ++
    Source.name ++ "\" searching GitHub for repos (page " ++ toString page ++ ")")) }
  have hnoted : s.IsAside noted := s.isAside_record (Event.isTurn_of_take (by simp))
  have hasked : noted.IsAside { noted with world := noted.world.record asked } :=
    noted.isAside_record rfl
  have hboth := trans_of Situation.IsAside hnoted hasked
  exact ⟨hboth.own, hboth.uneventful⟩

/-- What requests and the handling of discovered repositories lead to, all steps of a discovery
lead to. -/
theorem respects_pursue {related : Situation σ → Situation σ → Prop}
    [IsPreorder (Situation σ) related] {source : Source} {visit : Found → Action σ Bool}
    (hrequest : ∀ page, Action.Respects related (requestPage source page)) (steps : List Step)
    (hvisit : ∀ found, .found found ∈ steps → Action.Respects related (visit found)) :
    Action.Respects related (pursue source visit steps) := by
  induction steps with
  | nil => exact .pure ()
  | cons step rest ih =>
    have hrest := ih fun found hfound => hvisit found (List.mem_cons_of_mem _ hfound)
    cases step with
    | request page => exact .bind (hrequest page) fun _ => hrest
    | failed page failure => exact .throw _
    | found found =>
      refine .bind (hvisit found List.mem_cons_self) fun goOn => ?_
      cases goOn with
      | true => exact hrest
      | false => exact .pure ()

end Discovery

/-! ## Handing over -/

/-- A copy that is handed over, and the situation then. -/
structure Handover (σ : Type) where
  path : String
  situation : Situation σ

namespace Corpus

/-- The handing over of the copy of a discovered repository, if it comes to that. -/
def handover? (corpus : Corpus) (localOnly : Bool) (found : Found) (s : Situation σ) :
    Option (Handover σ) :=
  match Repo.ofListed? found.listed with
  | none => none
  | some repo =>
    match (corpus.provide localOnly repo).run (announcing found repo s) with
    | .ok true t => some ⟨corpus.pathTo repo, t⟩
    | _ => none

/-- The copies that are handed over while the steps of a discovery are taken. -/
def handovers (corpus : Corpus) (source : Source) (localOnly : Bool)
    (visit : String → Action σ Bool) : List Discovery.Step → Situation σ → List (Handover σ)
  | [], _ => []
  | .request page :: rest, s =>
    handovers corpus source localOnly visit rest
      (.endOf ((Discovery.requestPage source page).run s))
  | .failed _ _ :: _, _ => []
  | .found found :: rest, s =>
    (corpus.handover? localOnly found s).toList ++
      match (corpus.handle localOnly visit found).run s with
      | .ok true t => handovers corpus source localOnly visit rest t
      | _ => []

variable {corpus : Corpus} {source : Source} {localOnly : Bool} {visit : String → Action σ Bool}
  {found : Found} {s : Situation σ}

theorem isAside_conclude_false (corpus : Corpus) (repo : Repo) (visit : String → Action σ Bool) :
    Action.Respects Situation.IsAside (corpus.conclude repo visit false) := by
  intro s
  rw [conclude, if_neg Bool.false_ne_true]
  cases corpus.continueOnFailure with
  | true => exact s.isAside_record (Event.isTurn_of_take (by simp))
  | false => exact s.isAside_record (Event.isTurn_of_take (by simp))

/-- A discovered repository comes to nothing, or its copy is handed over and everything else is up
to the visitor. -/
theorem handle_cases (corpus : Corpus) (localOnly : Bool) (visit : String → Action σ Bool)
    (found : Found) (s : Situation σ) :
    (corpus.handover? localOnly found s = none ∧
        s.IsAside (.endOf ((corpus.handle localOnly visit found).run s))) ∨
      ∃ handover, corpus.handover? localOnly found s = some handover ∧
        s.IsAside handover.situation ∧
        (corpus.handle localOnly visit found).run s =
          (visit handover.path).run handover.situation := by
  cases hrepo : Repo.ofListed? found.listed with
  | none =>
    have hhandle : (corpus.handle localOnly visit found).run s = .error .wrongType s := by
      rw [handle, hrepo]
      rfl
    exact .inl ⟨by rw [handover?, hrepo], by rw [hhandle]; exact refl_of _ s⟩
  | some repo =>
    have hannounced : s.IsAside (announcing found repo s) :=
      s.isAside_record (Event.isTurn_of_take (by simp))
    have hprovided := Action.respects_endOf
      (isRoutine_provide corpus localOnly repo).isAside (announcing found repo s)
    have hhandle : (corpus.handle localOnly visit found).run s = (do
        corpus.conclude repo visit (← corpus.provide localOnly repo) : Action σ Bool).run
          (announcing found repo s) := by
      rw [handle, hrepo]
      rfl
    rw [EStateM.run_bind] at hhandle
    cases hprovide : (corpus.provide localOnly repo).run (announcing found repo s) with
    | error failure t =>
      rw [hprovide] at hhandle hprovided
      refine .inl ⟨by rw [handover?, hrepo]; simp only [hprovide], ?_⟩
      rw [hhandle]
      exact trans_of Situation.IsAside hannounced hprovided
    | ok available t =>
      rw [hprovide] at hhandle hprovided
      have hbefore : s.IsAside t := trans_of Situation.IsAside hannounced hprovided
      cases available with
      | false =>
        refine .inl ⟨by rw [handover?, hrepo]; simp only [hprovide], ?_⟩
        rw [hhandle]
        exact trans_of Situation.IsAside hbefore
          (Action.respects_endOf (isAside_conclude_false corpus repo visit) t)
      | true =>
        refine .inr ⟨⟨corpus.pathTo repo, t⟩, by rw [handover?, hrepo]; simp only [hprovide],
          hbefore, ?_⟩
        exact hhandle

/-! ## All steps -/

/-- What a visit leads to, all steps of a discovery lead to with all copies that are handed over, if
asides lead to nothing and what is led to adds up. -/
theorem leads_pursue {leads : List (Handover σ) → Situation σ → Situation σ → Prop}
    (haside : ∀ {s t}, s.IsAside t → leads [] s t)
    (htrans : ∀ {before later s t u}, leads before s t → leads later t u →
      leads (before ++ later) s u)
    (hvisit : ∀ handover : Handover σ, leads [handover] handover.situation
      (.endOf ((visit handover.path).run handover.situation)))
    (steps : List Discovery.Step) (s : Situation σ) :
    leads (corpus.handovers source localOnly visit steps s) s
      (.endOf ((Discovery.pursue source (corpus.handle localOnly visit) steps).run s)) := by
  induction steps generalizing s with
  | nil => exact haside (refl_of _ s)
  | cons step rest ih =>
    cases step with
    | failed page failure => exact haside (refl_of _ s)
    | request page =>
      exact htrans (haside (Action.respects_endOf (Discovery.isAside_requestPage source page) s))
        (ih _)
    | found found =>
      rw [handovers, Discovery.pursue, EStateM.run_bind]
      have hfirst : leads (corpus.handover? localOnly found s).toList s
          (.endOf ((corpus.handle localOnly visit found).run s)) := by
        rcases corpus.handle_cases localOnly visit found s with
          ⟨hnone, hnothing⟩ | ⟨handover, hsome, hbefore, hhandle⟩
        · rw [hnone]
          exact haside hnothing
        · rw [hsome, hhandle, Option.toList_some]
          exact htrans (haside hbefore) (hvisit handover)
      cases hhandle : (corpus.handle localOnly visit found).run s with
      | error failure t =>
        rw [hhandle] at hfirst
        exact htrans hfirst (haside (refl_of _ t))
      | ok goOn t =>
        rw [hhandle] at hfirst
        cases goOn with
        | false => exact htrans hfirst (haside (refl_of _ t))
        | true => exact htrans hfirst (ih t)

end Corpus
end FeatureCensus

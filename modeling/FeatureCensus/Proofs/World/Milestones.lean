import FeatureCensus.Proofs.World.Sealed
import Mathlib.Order.Defs.Unbundled

/-!
# Milestones

What matters in the record of a census: requests for pages, runs of version control, pauses and
the beginnings of analyses.  All other messages and the progress display are no milestones, so
that an action which brings about nothing else is quiet.

Main results:

- Theorem {lit}`Event.analyzed?_analysis`: the analyzed project is told by the message.
- Theorem {lit}`Event.analyzed?_of_head`: a message that begins differently tells none.
- Theorem {lit}`Action.Respects.bind`: what each part of an action leads to, all of it leads to.
-/

namespace FeatureCensus

variable {σ α β : Type}

/-! ## Events -/

namespace Event

/-- What is said when the analysis of a project begins. -/
def analysisNote : String := "Analyzing repository "

/-- The analysis of a project begins. -/
def analysis (path : String) : Event :=
  .log .info (analysisNote ++ path)

/-- The project whose analysis begins. -/
def analyzed? : Event → Option String
  | log .info message =>
    if analysisNote.toList.isPrefixOf message.toList then
      some (String.ofList (message.toList.drop analysisNote.toList.length))
    else none
  | _ => none

/-- Whether a page is requested, version control runs or there is a pause. -/
def isOutward : Event → Bool
  | request .. | git .. | pause _ => true
  | _ => false

/-- Whether an event matters. -/
def isMilestone (event : Event) : Bool :=
  event.isOutward || event.analyzed?.isSome

/-- The project is told by the message. -/
@[simp]
theorem analyzed?_analysis (path : String) : (analysis path).analyzed? = some path := by
  simp [analysis, analyzed?]

/-- A message that begins differently tells no project. -/
theorem analyzed?_of_head {level : Level} {message : String}
    (h : message.toList.head? ≠ some 'A') : (log level message).analyzed? = none := by
  cases level with
  | error => rfl
  | info =>
    have hprefix : analysisNote.toList.isPrefixOf message.toList = false := by
      cases hchars : message.toList with
      | nil => rfl
      | cons c rest =>
        have hne : 'A' ≠ c := by
          rintro rfl
          exact h (by rw [hchars, List.head?_cons])
        have hc : ('A' == c) = false := beq_false_of_ne hne
        have hnote : analysisNote.toList = 'A' :: "nalyzing repository ".toList := by
          simp [analysisNote]
        rw [hnote, List.isPrefixOf_cons_cons, hc, Bool.false_and]
    simp [analyzed?, hprefix]

@[simp]
theorem isMilestone_analysis (path : String) : (analysis path).isMilestone = true := by
  simp [isMilestone]

/-- A message that begins differently is no milestone. -/
theorem isMilestone_of_head {level : Level} {message : String}
    (h : message.toList.head? ≠ some 'A') : (log level message).isMilestone = false := by
  rw [isMilestone, analyzed?_of_head h]
  rfl

/-- The analyzed projects are those of the milestones. -/
theorem filterMap_analyzed?_filter (events : List Event) :
    (events.filter (·.isMilestone)).filterMap analyzed? = events.filterMap analyzed? := by
  have hsame : ∀ event : Event,
      (if event.isMilestone then event.analyzed? else none) = event.analyzed? := by
    intro event
    cases hanalyzed : event.analyzed? with
    | none => simp
    | some path => simp [isMilestone, hanalyzed]
  rw [List.filterMap_filter]
  simp only [hsame]

theorem isMilestone_of_isOutward {event : Event} (h : event.isOutward = true) :
    event.isMilestone = true := by
  rw [isMilestone, h, Bool.true_or]

end Event

/-! ## What has happened -/

namespace Situation

/-- That these are the events of a kind between two situations. -/
def Adds (kind : Event → Bool) (events : List Event) (s t : Situation σ) : Prop :=
  ∃ all, t.world.events.toList = s.world.events.toList ++ all ∧ all.filter kind = events

theorem adds_self (kind : Event → Bool) (s : Situation σ) : Adds kind [] s s :=
  ⟨[], by simp, rfl⟩

theorem adds_record (kind : Event → Bool) (s : Situation σ) (event : Event) :
    Adds kind ([event].filter kind) s { s with world := s.world.record event } :=
  ⟨[event], by simp, rfl⟩

theorem Adds.trans {kind : Event → Bool} {before later : List Event} {s t u : Situation σ}
    (hst : Adds kind before s t) (htu : Adds kind later t u) :
    Adds kind (before ++ later) s u := by
  obtain ⟨early, hearly, hbefore⟩ := hst
  obtain ⟨late, hlate, hlater⟩ := htu
  refine ⟨early ++ late, by rw [hlate, hearly, List.append_assoc], ?_⟩
  rw [List.filter_append, hbefore, hlater]

/-- That these are the milestones between two situations. -/
def Passes (milestones : List Event) (s t : Situation σ) : Prop :=
  ∃ events, t.world.events.toList = s.world.events.toList ++ events ∧
    events.filter (·.isMilestone) = milestones

/-- That since an earlier situation there were no milestones. -/
def IsQuietSince (t s : Situation σ) : Prop :=
  Passes [] s t

theorem isQuietSince_self (s : Situation σ) : s.IsQuietSince s :=
  ⟨[], by simp, rfl⟩

theorem isQuietSince_record (s : Situation σ) {event : Event} (h : event.isMilestone = false) :
    IsQuietSince { s with world := s.world.record event } s :=
  ⟨[event], by simp, by simpa using h⟩

theorem passes_record (s : Situation σ) {event : Event} (h : event.isMilestone = true) :
    Passes [event] s { s with world := s.world.record event } :=
  ⟨[event], by simp, by simp [h]⟩

theorem Passes.trans {before later : List Event} {s t u : Situation σ} (hst : Passes before s t)
    (htu : Passes later t u) : Passes (before ++ later) s u :=
  Adds.trans hst htu

theorem IsQuietSince.trans {s t u : Situation σ} (htu : u.IsQuietSince t)
    (hst : t.IsQuietSince s) : u.IsQuietSince s :=
  Passes.trans hst htu

/-- The milestones are those of what has happened since. -/
theorem Passes.eventsSince_eq {milestones : List Event} {s t : Situation σ}
    (h : Passes milestones s t) :
    t.world.events.toList = s.world.events.toList ++ t.eventsSince s ∧
      (t.eventsSince s).filter (·.isMilestone) = milestones := by
  obtain ⟨events, hevents, hmilestones⟩ := h
  have hsince : t.eventsSince s = events := by
    rw [eventsSince, hevents, ← Array.length_toList, List.drop_left]
  rw [hsince]
  exact ⟨hevents, hmilestones⟩

end Situation

/-! ## What actions lead to -/

namespace Action

/-- Whether an action, successful or not, leads from any situation to a related one. -/
def Respects (related : Situation σ → Situation σ → Prop) (x : Action σ α) : Prop :=
  ∀ s, match x.run s with
    | .ok _ t => related s t
    | .error _ t => related s t

namespace Respects

variable {related : Situation σ → Situation σ → Prop} [IsPreorder (Situation σ) related]

omit [IsPreorder (Situation σ) related] in
theorem of_run_eq_ok {x : Action σ α} (h : Respects related x) {s t : Situation σ} {a : α}
    (hrun : x.run s = .ok a t) : related s t := by
  have hs := h s
  rwa [hrun] at hs

omit [IsPreorder (Situation σ) related] in
theorem mono {other : Situation σ → Situation σ → Prop} {x : Action σ α}
    (h : Respects related x) (hother : ∀ s t, related s t → other s t) : Respects other x := by
  intro s
  have hs := h s
  cases hrun : x.run s <;> rw [hrun] at hs <;> exact hother _ _ hs

theorem pure (a : α) : Respects related (Pure.pure a : Action σ α) :=
  fun s => refl_of related s

theorem throw (e : Failure) : Respects related (MonadExcept.throw e : Action σ α) :=
  fun s => refl_of related s

theorem ofExcept {ε : Type} (failure : ε → Failure) (result : Except ε α) :
    Respects related (Action.ofExcept failure result : Action σ α) := by
  cases result with
  | ok a => exact pure a
  | error e => exact throw (failure e)

/-- What the parts of an action lead to one after the other, all of it leads to. -/
theorem bind {x : Action σ α} {f : α → Action σ β} (hx : Respects related x)
    (hf : ∀ a, Respects related (f a)) : Respects related (x >>= f) := by
  intro s
  have hfirst := hx s
  simp only [EStateM.run, Bind.bind, EStateM.bind] at hfirst ⊢
  cases hrun : x s with
  | error e t => simpa [hrun] using hfirst
  | ok a t =>
    have hnext := hf a t
    simp only [EStateM.run] at hnext
    simp only [hrun] at hfirst ⊢
    cases hlast : f a t <;> simp only [hlast] at hnext ⊢ <;>
      exact trans_of related hfirst hnext

omit [IsPreorder (Situation σ) related] in
/-- A look at the world leads nowhere else. -/
theorem look {next : World → Action σ α} (h : ∀ w, Respects related (next w)) :
    Respects related (world >>= next) :=
  fun s => h s.world s

end Respects
end Action
end FeatureCensus

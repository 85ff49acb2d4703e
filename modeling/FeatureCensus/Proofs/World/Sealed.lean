import FeatureCensus.World.Action

/-!
# Sealed actions

Many actions depend on nothing but the files and the coming outcomes of version control, and
leave alone everything but these and the record of what has happened.  What such an action does
is found out from any situation with the same files and outcomes.

Main results:

- Theorem {lit}`Action.run_bind_eq_ok`: an action with parts succeeds where its parts do.
- Theorem {lit}`Action.IsSealed.bind`: an action with sealed parts is sealed.
- Theorem {lit}`Action.IsSealed.of_run_eq_ok`: a sealed action does the same from any situation
  with the same files and coming outcomes.
-/

namespace FeatureCensus

variable {σ α β : Type}

/-! ## Situations -/

/-- The files, the outcomes of coming runs of version control, and whether these take any
arguments. -/
structure Basis where
  files : FileTree Content
  script : GitScript
  anyArguments : Bool

namespace Situation

/-- What sealed actions depend on. -/
def basis (s : Situation σ) : Basis :=
  ⟨s.world.files, s.world.script, s.world.anyArguments⟩

/-- The situation after some events that have left behind other files and outcomes. -/
def after (s : Situation σ) (basis : Basis) (events : List Event) : Situation σ :=
  { s with world := { s.world with
      files := basis.files
      script := basis.script
      anyArguments := basis.anyArguments
      events := s.world.events ++ events.toArray } }

/-- What has happened since an earlier situation. -/
def eventsSince (t s : Situation σ) : List Event :=
  t.world.events.toList.drop s.world.events.size

theorem after_nil (s : Situation σ) : s.after s.basis [] = s := by
  simp [after, basis]

theorem after_after (s : Situation σ) (first second : Basis) (before later : List Event) :
    (s.after first before).after second later = s.after second (before ++ later) := by
  simp [after]

@[simp]
theorem eventsSince_after (s : Situation σ) (basis : Basis) (events : List Event) :
    (s.after basis events).eventsSince s = events := by
  simp [after, eventsSince]

theorem events_after (s : Situation σ) (basis : Basis) (events : List Event) :
    (s.after basis events).world.events.toList = s.world.events.toList ++ events := by
  simp [after]

end Situation

/-! ## Results of actions -/

namespace Action

theorem run_bind_of_ok {x : Action σ α} {s t : Situation σ} {a : α} (h : x.run s = .ok a t)
    (f : α → Action σ β) : (x >>= f).run s = (f a).run t := by
  rw [EStateM.run_bind, h]

theorem run_log_bind (level : Level) (message : String) (next : Action σ α) (s : Situation σ) :
    (do log level message; next : Action σ α).run s =
      next.run { s with world := s.world.record (.log level message) } := rfl

theorem run_world_bind (next : World → Action σ α) (s : Situation σ) :
    (do next (← world) : Action σ α).run s = (next s.world).run s := rfl

theorem run_changeOwn_bind (f : σ → σ) (next : Action σ α) (s : Situation σ) :
    (do changeOwn f; next : Action σ α).run s = next.run { s with own := f s.own } := rfl

theorem run_changeFiles (change : FileTree.Change Content α) (s : Situation σ) :
    (changeFiles change).run s = match change.run s.world.files with
      | .ok a files => .ok a { s with world := { s.world with files } }
      | .error e files => .error (.file e) { s with world := { s.world with files } } := rfl

/-- An action with two parts succeeds where both do, one after the other. -/
theorem run_bind_eq_ok {x : Action σ α} {f : α → Action σ β} {s t : Situation σ} {b : β} :
    (x >>= f).run s = .ok b t ↔ ∃ a u, x.run s = .ok a u ∧ (f a).run u = .ok b t := by
  simp only [EStateM.run, bind, EStateM.bind]
  cases x s with
  | ok a u =>
    constructor
    · intro h
      exact ⟨a, u, rfl, h⟩
    · rintro ⟨_, _, hsame, h⟩
      cases hsame
      exact h
  | error e u => simp

/-- Where an action fails its handler goes on from what it has left behind. -/
theorem run_tryCatch (x : Action σ α) (handler : Failure → Action σ α) (s : Situation σ) :
    (tryCatch x handler : Action σ α).run s = match x.run s with
      | .ok a t => .ok a t
      | .error e t => (handler e).run t := by
  change EStateM.tryCatch x handler s = _
  unfold EStateM.tryCatch EStateM.run
  cases x s <;> rfl

theorem run_seqRight_eq_ok {x : Action σ α} {y : Action σ β} {s t : Situation σ} {b : β} :
    (x *> y).run s = .ok b t ↔ ∃ a u, x.run s = .ok a u ∧ y.run u = .ok b t := by
  have hbind : (x *> y).run s = (x >>= fun _ => y).run s := rfl
  rw [hbind, run_bind_eq_ok]

theorem run_finallyDo (x : Action σ α) (last : Action σ Unit) (s : Situation σ) :
    (finallyDo x last).run s = match x.run s with
      | .ok a u => (last *> pure a).run u
      | .error e u => (last *> throw e).run u := rfl

/-- An action with an end succeeds where both do. -/
theorem run_finallyDo_eq_ok {x : Action σ α} {last : Action σ Unit} {s t : Situation σ} {a : α}
    (h : (finallyDo x last).run s = .ok a t) :
    ∃ u, x.run s = .ok a u ∧ last.run u = .ok () t := by
  rw [run_finallyDo] at h
  split at h
  · rename_i b u hrun
    obtain ⟨_, v, hlast, hpure⟩ := run_seqRight_eq_ok.1 h
    cases hpure
    exact ⟨u, hrun, hlast⟩
  · obtain ⟨_, v, -, hthrow⟩ := run_seqRight_eq_ok.1 h
    cases hthrow

end Action

/-! ## Deeds -/

/-- What an action comes to: its result, the files and outcomes that it leaves behind, and what
happens meanwhile. -/
structure Deed (α : Type) where
  result : Except Failure α
  basis : Basis
  events : List Event

/-- The end of an action in a situation. -/
def Deed.endIn (deed : Deed α) (s : Situation σ) : EStateM.Result Failure (Situation σ) α :=
  match deed.result with
  | .ok a => .ok a (s.after deed.basis deed.events)
  | .error e => .error e (s.after deed.basis deed.events)

namespace Action

/-- Whether what an action comes to follows from the files and the coming outcomes, all events
being of some class. -/
def IsSealed (allowed : Event → Prop) (x : Action σ α) : Prop :=
  ∀ basis, ∃ deed : Deed α, (∀ event ∈ deed.events, allowed event) ∧
    ∀ s : Situation σ, s.basis = basis → x.run s = deed.endIn s

namespace IsSealed

variable {allowed : Event → Prop}

theorem pure (a : α) : IsSealed allowed (Pure.pure a : Action σ α) := by
  refine fun basis => ⟨⟨.ok a, basis, []⟩, by simp, ?_⟩
  rintro s rfl
  rw [Deed.endIn, Situation.after_nil]
  rfl

theorem throw (e : Failure) : IsSealed allowed (MonadExcept.throw e : Action σ α) := by
  refine fun basis => ⟨⟨.error e, basis, []⟩, by simp, ?_⟩
  rintro s rfl
  rw [Deed.endIn, Situation.after_nil]
  rfl

theorem record {event : Event} (h : allowed event) :
    IsSealed allowed (Action.record event : Action σ Unit) := by
  refine fun basis => ⟨⟨.ok (), basis, [event]⟩, by simpa using h, ?_⟩
  rintro s rfl
  rw [run_record, Deed.endIn]
  simp [Situation.after, Situation.basis, World.record]

theorem mono {other : Event → Prop} {x : Action σ α} (h : IsSealed allowed x)
    (hother : ∀ event, allowed event → other event) : IsSealed other x := by
  intro basis
  obtain ⟨deed, hevents, hrun⟩ := h basis
  exact ⟨deed, fun event hevent => hother event (hevents event hevent), hrun⟩

theorem bind {x : Action σ α} {f : α → Action σ β} (hx : IsSealed allowed x)
    (hf : ∀ a, IsSealed allowed (f a)) : IsSealed allowed (x >>= f) := by
  intro basis
  obtain ⟨⟨result, between, before⟩, hbefore, hfirst⟩ := hx basis
  cases result with
  | error e =>
    refine ⟨⟨.error e, between, before⟩, hbefore, fun s hs => ?_⟩
    exact run_bind_error (hfirst s hs) f
  | ok a =>
    obtain ⟨⟨result, last, later⟩, hlater, hsecond⟩ := hf a between
    refine ⟨⟨result, last, before ++ later⟩, ?_, fun s hs => ?_⟩
    · intro event hevent
      exact (List.mem_append.1 hevent).elim (hbefore event) (hlater event)
    · have hrun := hfirst s hs
      have hnext := hsecond (s.after between before) rfl
      simp only [EStateM.run, Deed.endIn] at hrun hnext
      simp only [EStateM.run, Bind.bind, EStateM.bind, hrun, hnext, Deed.endIn,
        Situation.after_after]

/-- Where a sealed action fails, another one may go on. -/
theorem tryCatch {x : Action σ α} {handler : Failure → Action σ α} (hx : IsSealed allowed x)
    (hhandler : ∀ e, IsSealed allowed (handler e)) :
    IsSealed allowed (MonadExcept.tryCatch x handler : Action σ α) := by
  intro basis
  obtain ⟨⟨result, between, before⟩, hbefore, hfirst⟩ := hx basis
  cases result with
  | ok a =>
    refine ⟨⟨.ok a, between, before⟩, hbefore, fun s hs => ?_⟩
    rw [run_tryCatch, hfirst s hs]
    rfl
  | error e =>
    obtain ⟨⟨result, last, later⟩, hlater, hsecond⟩ := hhandler e between
    refine ⟨⟨result, last, before ++ later⟩, ?_, fun s hs => ?_⟩
    · intro event hevent
      exact (List.mem_append.1 hevent).elim (hbefore event) (hlater event)
    · have hnext := hsecond (s.after between before) rfl
      rw [run_tryCatch, hfirst s hs]
      simp only [Deed.endIn] at hnext ⊢
      simp only [hnext, Situation.after_after]

theorem changeFiles (change : FileTree.Change Content α) :
    IsSealed allowed (Action.changeFiles change : Action σ α) := by
  rintro ⟨files, script, anyArguments⟩
  cases hchange : change files with
  | ok a changed =>
    refine ⟨⟨.ok a, ⟨changed, script, anyArguments⟩, []⟩, by simp, ?_⟩
    rintro s hs
    obtain ⟨rfl, rfl, rfl⟩ := Basis.mk.inj hs
    simp [EStateM.run, Action.changeFiles, hchange, Deed.endIn, Situation.after]
  | error e changed =>
    refine ⟨⟨.error (.file e), ⟨changed, script, anyArguments⟩, []⟩, by simp, ?_⟩
    rintro s hs
    obtain ⟨rfl, rfl, rfl⟩ := Basis.mk.inj hs
    simp [EStateM.run, Action.changeFiles, hchange, Deed.endIn, Situation.after]

/-- A look at the world that uses nothing but the files and what arguments are taken. -/
theorem look {next : World → Action σ α} (h : ∀ w, IsSealed allowed (next w))
    (hsame : ∀ w v : World, w.files = v.files → w.anyArguments = v.anyArguments →
      next w = next v) :
    IsSealed allowed (world >>= next) := by
  intro basis
  obtain ⟨deed, hevents, hrun⟩ :=
    h { files := basis.files, anyArguments := basis.anyArguments } basis
  refine ⟨deed, hevents, ?_⟩
  rintro s rfl
  change (next s.world).run s = deed.endIn s
  rw [← hsame { files := s.basis.files, anyArguments := s.basis.anyArguments } s.world rfl rfl]
  exact hrun s rfl

theorem drawOutcome (command : String) :
    IsSealed allowed (Action.drawOutcome command : Action σ GitOutcome) := by
  intro basis
  have hdrawn : ∃ outcome script, ∀ w : World, w.script = basis.script →
      w.drawOutcome command = (outcome, { w with script }) := by
    unfold World.drawOutcome
    cases hlookup : basis.script.lookup command with
    | none =>
      refine ⟨{}, basis.script, fun w hw => ?_⟩
      simp only [hw, hlookup]
      rw [← hw]
    | some outcomes => exact ⟨_, _, fun w hw => by simp only [hw, hlookup]; rfl⟩
  obtain ⟨outcome, script, hdrawn⟩ := hdrawn
  refine ⟨⟨.ok outcome, ⟨basis.files, script, basis.anyArguments⟩, []⟩, by simp, ?_⟩
  rintro s rfl
  simp [EStateM.run, Action.drawOutcome, hdrawn s.world rfl, Deed.endIn, Situation.after,
    Situation.basis]

/-- A sealed action that succeeds comes to the same from any situation with the same files and
coming outcomes, and changes nothing of one's own. -/
theorem of_run_eq_ok {x : Action σ α} (h : IsSealed allowed x) {s t : Situation σ} {a : α}
    (hrun : x.run s = .ok a t) :
    ∃ basis events, (∀ event ∈ events, allowed event) ∧ t = s.after basis events ∧
      ∀ u : Situation σ, u.basis = s.basis → x.run u = .ok a (u.after basis events) := by
  obtain ⟨⟨result, basis, events⟩, hevents, hdeed⟩ := h s.basis
  have hsame := hdeed s rfl
  cases result with
  | error e =>
    rw [hrun] at hsame
    cases hsame
  | ok b =>
    rw [hrun] at hsame
    simp only [Deed.endIn, EStateM.Result.ok.injEq] at hsame
    obtain ⟨rfl, rfl⟩ := hsame
    exact ⟨basis, events, hevents, rfl, fun u hu => hdeed u hu⟩

end IsSealed
end Action
end FeatureCensus

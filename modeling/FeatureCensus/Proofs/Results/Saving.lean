import FeatureCensus.Proofs.World.Turns
import FeatureCensus.Results.Saving

/-!
# Saving is quiet

Saving results changes files and says so once, before anything else is done, but it brings about no
milestone and changes nothing of one's own.

Main results:

- Theorem {lit}`Saving.isSilent_saveToNamed`: nothing happens while a session is saved.
- Theorem {lit}`Saving.isIdle_save`: saving is idle.
- Theorem {lit}`Saving.adds_save`: saving is announced once.
-/

namespace FeatureCensus

variable {σ : Type}

/-! ## Silent actions -/

/-- Whether from one situation to a later one nothing happens and nothing of one's own changes. -/
structure IsSilent (s t : Situation σ) : Prop where
  own : t.own = s.own
  events : t.world.events = s.world.events

instance : IsPreorder (Situation σ) IsSilent where
  refl _ := ⟨rfl, rfl⟩
  trans _ _ _ hst htu := ⟨htu.own.trans hst.own, htu.events.trans hst.events⟩

/-- A change of the world that is no event is silent. -/
theorem isSilent_changeWorld {f : World → World} (h : ∀ w, (f w).events = w.events) :
    Action.Respects IsSilent (Action.changeWorld f : Action σ Unit) :=
  fun s => ⟨rfl, h s.world⟩

/-- What saving leaves alone from one situation to a later one. -/
structure IsIdle (s t : Situation σ) : Prop where
  own : t.own = s.own
  quiet : t.IsQuietSince s

instance : IsPreorder (Situation σ) IsIdle where
  refl s := ⟨rfl, s.isQuietSince_self⟩
  trans _ _ _ hst htu := ⟨htu.own.trans hst.own, htu.quiet.trans hst.quiet⟩

/-- A message that begins differently is idle. -/
theorem isIdle_log {level : Level} {message : String} (h : message.toList.head? ≠ some 'A') :
    Action.Respects IsIdle (Action.log level message : Action σ Unit) := fun s =>
  ⟨rfl, s.isQuietSince_record (Event.isMilestone_of_head h)⟩

theorem IsSilent.isIdle {s t : Situation σ} (h : IsSilent s t) : IsIdle s t :=
  ⟨h.own, [], by rw [h.events, List.append_nil], rfl⟩

namespace Saving

/-! ## Opening -/

theorem isSilent_put (place : Location) (content : Content) :
    Action.Respects IsSilent (put place content : Action σ Unit) :=
  isSilent_changeWorld fun _ => rfl

theorem isSilent_remove (place : Location) :
    Action.Respects IsSilent (remove place : Action σ Unit) :=
  isSilent_changeWorld fun _ => rfl

theorem isSilent_settle (address : Address) (place : Location) (content : Content) :
    Action.Respects IsSilent (settle address place content : Action σ Unit) := by
  unfold settle
  split
  · exact .pure ()
  · refine .bind (.look fun w => ?_) fun _ => .look fun w => ?_
    · split
      · exact .pure ()
      · split
        · exact .pure ()
        · exact .throw _
      · split
        · exact isSilent_remove _
        · split
          · exact .pure ()
          · exact .throw _
    · split
      · exact .pure ()
      · exact .throw _
      · split
        · exact isSilent_remove _
        · split
          · exact isSilent_put _ _
          · exact .bind (isSilent_remove _) fun _ => isSilent_remove _

theorem isSilent_openFile (address : Address) (place : Location) (content : Content) :
    Action.Respects IsSilent (openFile address place content : Action σ OpenDatabase) :=
  .bind (isSilent_settle _ _ _) fun _ => .bind (.ofExcept _ _) fun _ => .pure _

theorem isSilent_openAt (address : Address) (place : Location) :
    Action.Respects IsSilent (openAt address place : Action σ OpenDatabase) := by
  refine .look fun w => ?_
  dsimp only
  cases w.files.node? place with
  | none =>
    simp only
    split
    · exact .bind (isSilent_put _ _) fun _ => isSilent_openFile _ _ _
    · exact .throw _
  | some node =>
    cases node with
    | directory | unlisted | locked | unreadable => exact .throw _
    | file content => exact isSilent_openFile _ _ _

theorem isSilent_openNamed (name : String) :
    Action.Respects IsSilent (openNamed name : Action σ OpenDatabase) := by
  unfold openNamed
  split
  · exact .throw _
  · refine .bind (.ofExcept _ _) fun address => ?_
    unfold openAddress
    split
    · exact .pure _
    · refine .look fun w => .bind (.ofExcept _ _) fun place => ?_
      split
      · exact isSilent_openAt _ _
      · exact .throw _

/-! ## Changing -/

theorem isSilent_beginChange (opened : OpenDatabase) :
    Action.Respects IsSilent (beginChange opened : Action σ Unit) := by
  unfold beginChange
  split
  · exact .throw _
  · split
    · exact .pure ()
    · refine .look fun w => ?_
      dsimp only
      split
      · exact .throw _
      · exact isSilent_remove _

theorem isSilent_store (opened : OpenDatabase) (db : Database) :
    Action.Respects IsSilent (store opened db : Action σ OpenDatabase) := by
  unfold store
  split
  · exact .pure _
  · exact .bind (isSilent_put _ _) fun _ => .pure _

theorem isSilent_prepareBy (opened : OpenDatabase) (steps : List Database.Step) :
    Action.Respects IsSilent (prepareBy opened steps : Action σ OpenDatabase) := by
  induction steps generalizing opened with
  | nil => exact .pure _
  | cons step rest ih =>
    rw [prepareBy]
    refine .bind (.ofExcept _ _) fun changed? => ?_
    split
    · exact ih opened
    · exact .bind (isSilent_beginChange _) fun _ => .bind (.ofExcept _ _) fun _ =>
        .bind (isSilent_store _ _) fun _ => ih _

theorem isSilent_saveToNamed (name : String) (session : Session) :
    Action.Respects IsSilent (saveToNamed name session : Action σ Unit) := by
  unfold saveToNamed
  split
  · exact .throw _
  · exact .bind (isSilent_openNamed _) fun _ => .bind (isSilent_prepareBy _ _) fun _ =>
      .bind (.ofExcept _ _) fun _ => .bind (isSilent_beginChange _) fun _ => .look fun _ =>
        .bind (.ofExcept _ _) fun _ => .bind (isSilent_store _ _) fun _ => .pure ()

/-- Saving is idle. -/
theorem isIdle_save (destination : Destination) (session : Session) :
    Action.Respects IsIdle (save destination session : Action σ Unit) := by
  have hannounced : ∀ name, (announcement name).toList.head? ≠ some 'A' := by
    intro name
    unfold announcement
    simp
  cases destination with
  | nowhere => exact .pure ()
  | unnamed => exact .bind (isIdle_log (hannounced _)) fun _ => .throw _
  | database name =>
    rw [save]
    exact .bind (isIdle_log (hannounced name)) fun _ =>
      (isSilent_saveToNamed name session).mono fun _ _ => IsSilent.isIdle

/-! ## Announcements -/

/-- What is said while results are saved to a destination. -/
def announcements : Destination → List Event
  | .nowhere => []
  | .unnamed => [.log .info (announcement "[]")]
  | .database name => [.log .info (announcement name)]

theorem analyzed?_announcements (destination : Destination) :
    (announcements destination).filterMap Event.analyzed? = [] := by
  have hnone : ∀ name, (Event.log .info (announcement name)).analyzed? = none := by
    intro name
    refine Event.analyzed?_of_take ?_
    unfold announcement
    simp
  cases destination with
  | nowhere => rfl
  | unnamed => rw [announcements, List.filterMap_cons, hnone, List.filterMap_nil]
  | database name => rw [announcements, List.filterMap_cons, hnone, List.filterMap_nil]

/-- While results are saved nothing happens but that it is announced. -/
theorem adds_save (destination : Destination) (session : Session) :
    Action.Respects (Situation.Adds (fun _ => true) (announcements destination))
      (save destination session : Action σ Unit) := by
  intro s
  cases destination with
  | nowhere => exact s.adds_self _
  | unnamed => exact s.adds_record _ _
  | database name =>
    have hsilent := isSilent_saveToNamed name session
      { s with world := s.world.record (.log .info (announcement name)) }
    have hrun : (save (.database name) session).run s = (saveToNamed name session).run
        { s with world := s.world.record (.log .info (announcement name)) } := rfl
    rw [hrun]
    cases hsave : (saveToNamed name session).run
        { s with world := s.world.record (.log .info (announcement name)) } <;>
      rw [hsave] at hsilent <;>
      exact ⟨[.log .info (announcement name)], by rw [hsilent.events]; simp, rfl⟩

end Saving
end FeatureCensus

import FeatureCensus.Proofs.World.Milestones

/-!
# Turning points

The turning points of a run: its progress display is opened, advanced or closed, an interruption is
logged, the analysis of a project begins, or saving is announced.  All other messages begin
differently, and neither requests nor version control nor pauses are turning points.

Main results:

- Theorem {lit}`Event.isTurn_of_take`: a message that begins differently is no turning point.
- Theorem {lit}`Situation.Adds.restrict`: events of one kind are found among those of a wider one.
-/

namespace FeatureCensus

variable {σ : Type}

/-! ## Events -/

namespace Event

/-- What is said before results are saved. -/
def savingNote : String := "Saving results to "

/-- What is said of an interruption. -/
def interruptionNote : String := "Interrupted"

/-- An interruption is logged. -/
def interruption : Event :=
  .log .info interruptionNote

/-- Whether the progress display changes. -/
def isProgress : Event → Bool
  | progressOpened .. | progressAdvanced | progressClosed => true
  | _ => false

/-- Whether an interruption is logged. -/
def isInterruption : Event → Bool
  | log .info message => message == interruptionNote
  | _ => false

/-- Whether it is announced that results are saved. -/
def isAnnouncement : Event → Bool
  | log .info message => savingNote.toList.isPrefixOf message.toList
  | _ => false

/-- Whether an event is a turning point. -/
def isTurn (event : Event) : Bool :=
  event.isProgress || event.isInterruption || event.isAnnouncement || event.analyzed?.isSome

/-- The first two characters of the messages that are turning points. -/
def turnHeads : List (List Char) :=
  [['A', 'n'], ['I', 'n'], ['S', 'a']]

@[simp]
theorem mem_turnHeads {head : List Char} :
    head ∈ turnHeads ↔ head = ['A', 'n'] ∨ head = ['I', 'n'] ∨ head = ['S', 'a'] := by
  simp [turnHeads]

theorem take_of_isPrefixOf {note message : String} {n : Nat} (hn : n ≤ note.toList.length)
    (h : note.toList.isPrefixOf message.toList = true) :
    message.toList.take n = note.toList.take n := by
  obtain ⟨rest, hrest⟩ := List.isPrefixOf_iff_prefix.1 h
  rw [← hrest, List.take_append_of_le_length hn]

theorem isInterruption_of_take {level : Level} {message : String}
    (h : message.toList.take 2 ≠ ['I', 'n']) : (log level message).isInterruption = false := by
  cases level with
  | error => rfl
  | info =>
    refine beq_false_of_ne ?_
    rintro rfl
    exact h (by decide)

theorem isAnnouncement_of_take {level : Level} {message : String}
    (h : message.toList.take 2 ≠ ['S', 'a']) : (log level message).isAnnouncement = false := by
  cases level with
  | error => rfl
  | info =>
    refine Bool.eq_false_iff.2 fun hprefix => h ?_
    rw [take_of_isPrefixOf (by decide) hprefix]
    decide

theorem analyzed?_of_take {level : Level} {message : String}
    (h : message.toList.take 2 ≠ ['A', 'n']) : (log level message).analyzed? = none := by
  cases level with
  | error => rfl
  | info =>
    refine if_neg fun hprefix => h ?_
    rw [take_of_isPrefixOf (by decide) hprefix]
    decide

/-- A message that begins differently is no turning point. -/
theorem isTurn_of_take {level : Level} {message : String}
    (h : message.toList.take 2 ∉ turnHeads) : (log level message).isTurn = false := by
  simp only [mem_turnHeads, not_or] at h
  rw [isTurn, isInterruption_of_take h.2.1, isAnnouncement_of_take h.2.2, analyzed?_of_take h.1]
  rfl

/-- What is said of a private repository is not yet its analysis. -/
theorem isTurn_private (path : String) :
    (log .info ("Analyzing private repository " ++ path)).isTurn = false := by
  have hanalysis : (log .info ("Analyzing private repository " ++ path)).analyzed? = none := by
    simp [analyzed?, analysisNote]
  rw [isTurn, isInterruption_of_take (by simp), isAnnouncement_of_take (by simp), hanalysis]
  rfl

theorem analyzed?_of_isTurn {event : Event} (h : event.isTurn = false) :
    event.analyzed? = none := by
  simp only [isTurn, Bool.or_eq_false_iff] at h
  exact Option.not_isSome_iff_eq_none.1 (by simp [h.2])

/-! ## Kinds of turning points -/

theorem isTurn_of_isProgress {event : Event} (h : event.isProgress = true) :
    event.isTurn = true := by
  simp [isTurn, h]

theorem isTurn_of_isInterruption {event : Event} (h : event.isInterruption = true) :
    event.isTurn = true := by
  simp [isTurn, h]

theorem isTurn_of_isAnnouncement {event : Event} (h : event.isAnnouncement = true) :
    event.isTurn = true := by
  simp [isTurn, h]

/-- The analysis of a project is a turning point, and of no other kind. -/
@[simp]
theorem isTurn_analysis (path : String) : (analysis path).isTurn = true := by
  simp [isTurn]

@[simp]
theorem isProgress_analysis (path : String) : (analysis path).isProgress = false := rfl

@[simp]
theorem isInterruption_analysis (path : String) : (analysis path).isInterruption = false :=
  isInterruption_of_take (by simp [analysisNote])

@[simp]
theorem isAnnouncement_analysis (path : String) : (analysis path).isAnnouncement = false :=
  isAnnouncement_of_take (by simp [analysisNote])

/-- The analyzed projects are those of the turning points. -/
theorem filterMap_analyzed?_filter_isTurn (events : List Event) :
    (events.filter (·.isTurn)).filterMap analyzed? = events.filterMap analyzed? := by
  have hsame : ∀ event : Event,
      (if event.isTurn then event.analyzed? else none) = event.analyzed? := by
    intro event
    cases hturn : event.isTurn with
    | false => rw [analyzed?_of_isTurn hturn]; rfl
    | true => rfl
  rw [List.filterMap_filter]
  simp only [hsame]

end Event

/-! ## What has happened -/

namespace Situation

/-- Whether there is no turning point between two situations. -/
def IsUneventful (s t : Situation σ) : Prop :=
  Adds Event.isTurn [] s t

instance : IsPreorder (Situation σ) IsUneventful where
  refl s := adds_self _ s
  trans _ _ _ hst htu := hst.trans htu

theorem isUneventful_record (s : Situation σ) {event : Event} (h : event.isTurn = false) :
    s.IsUneventful { s with world := s.world.record event } :=
  ⟨[event], by simp, by simp [h]⟩

theorem adds_isTurn_record (s : Situation σ) {event : Event} (h : event.isTurn = true) :
    Adds Event.isTurn [event] s { s with world := s.world.record event } :=
  ⟨[event], by simp, by simp [h]⟩

/-- The events of one kind are found among those of a wider one. -/
theorem Adds.restrict {kind other : Event → Bool} {events : List Event} {s t : Situation σ}
    (h : Adds kind events s t) (hkind : ∀ event, other event = true → kind event = true) :
    Adds other (events.filter other) s t := by
  obtain ⟨all, hall, rfl⟩ := h
  refine ⟨all, hall, ?_⟩
  rw [List.filter_filter]
  refine List.filter_congr fun event _ => ?_
  cases hsame : other event with
  | false => rfl
  | true => rw [hkind event hsame, Bool.true_and]

end Situation

/-- A message that begins differently is uneventful. -/
theorem isUneventful_log {level : Level} {message : String}
    (h : message.toList.take 2 ∉ Event.turnHeads) :
    Action.Respects Situation.IsUneventful (Action.log level message : Action σ Unit) :=
  fun s => s.isUneventful_record (Event.isTurn_of_take h)

end FeatureCensus

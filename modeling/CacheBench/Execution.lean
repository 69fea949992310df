import Mathlib.Data.List.Basic
import Mathlib.Data.List.Induction
import Mathlib.Tactic.Common

namespace CacheBench.Execution

/-!
# Finite runs and their histories

Runs of an arbitrary labelled transition system, kept with the list of events
so far, latest event last.  `Since` is the past-time operator of the same name:
some event of the history holds and every later one keeps it.
-/

universe u v

/-- A finite run from a start state, with its history. -/
inductive Run
    {State : Type u}
    {Event : Type v}
    (step : State → Event → State → Prop)
    (start : State) :
    List Event → State → Prop where
  | nil :
      Run step start [] start
  | snoc
      {history : List Event}
      {event : Event}
      {middle final : State}
      (earlier : Run step start history middle)
      (last : step middle event final) :
      Run step start (history ++ [event]) final

namespace Run

variable {State : Type u} {Event : Type v}
variable {step : State → Event → State → Prop}
variable {start : State}

/--
The invariant rule.  What holds at the start and is kept by every allowed step
holds after every run of allowed events.
-/
theorem invariant
    (Invariant : State → Prop)
    {Allowed : Event → Prop}
    (initially : Invariant start)
    (preserved :
      ∀ {state event next},
        Invariant state → Allowed event → step state event next →
          Invariant next)
    {history : List Event}
    {final : State}
    (run : Run step start history final)
    (allowed : ∀ event ∈ history, Allowed event) :
    Invariant final := by
  induction run with
  | nil =>
      exact initially
  | snoc earlier last inductionHypothesis =>
      apply preserved (inductionHypothesis ?_) (allowed _ (by simp)) last
      intro event member
      exact allowed event (by simp [member])

/--
The invariant rule for events.  What every allowed step from a state of the
invariant makes true of its event holds of all events of the run.
-/
theorem forall_event
    (Invariant : State → Prop)
    (Good : Event → Prop)
    {Allowed : Event → Prop}
    (initially : Invariant start)
    (preserved :
      ∀ {state event next},
        Invariant state → Allowed event → step state event next →
          Invariant next)
    (good :
      ∀ {state event next},
        Invariant state → Allowed event → step state event next →
          Good event)
    {history : List Event}
    {final : State}
    (run : Run step start history final)
    (allowed : ∀ event ∈ history, Allowed event) :
    ∀ event ∈ history, Good event := by
  induction run with
  | nil =>
      intro event member
      cases member
  | snoc earlier last inductionHypothesis =>
      have allowedEarlier := fun event member =>
        allowed event (List.mem_append_left _ member)
      intro event member
      rcases List.mem_append.mp member with isEarlier | isLast
      · exact inductionHypothesis allowedEarlier event isEarlier
      · rw [List.mem_singleton.mp isLast]
        exact good
          (earlier.invariant Invariant initially preserved allowedEarlier)
          (allowed _ (by simp)) last

/-- The last event of a run is a step from the state before it. -/
theorem exists_last
    {history : List Event}
    {event : Event}
    {final : State}
    (run : Run step start (history ++ [event]) final) :
    ∃ middle, Run step start history middle ∧ step middle event final := by
  generalize shape : history ++ [event] = whole at run
  cases run with
  | nil =>
      simp at shape
  | snoc earlier last =>
      obtain ⟨rfl, sameEvent⟩ := List.append_inj' shape rfl
      rw [List.singleton_inj] at sameEvent
      subst sameEvent
      exact ⟨_, earlier, last⟩

/-- A run of one system is a run of every system with its steps. -/
theorem mono
    {other : State → Event → State → Prop}
    (steps :
      ∀ {state event next},
        step state event next → other state event next)
    {history : List Event}
    {final : State}
    (run : Run step start history final) :
    Run other start history final := by
  induction run with
  | nil =>
      exact .nil
  | snoc earlier last inductionHypothesis =>
      exact .snoc inductionHypothesis (steps last)

/-- Where an event leads to one state only, so does a history. -/
theorem final_unique
    {history : List Event}
    {first second : State}
    (run : Run step start history first)
    (other : Run step start history second)
    (unique :
      ∀ state event first second,
        step state event first → step state event second →
          first = second) :
    first = second := by
  induction run generalizing second with
  | nil =>
      generalize isEmpty : [] = events at other
      cases other with
      | nil =>
          rfl
      | snoc earlier last =>
          simp at isEmpty
  | snoc earlier last inductionHypothesis =>
      obtain ⟨middle, otherEarlier, otherLast⟩ := other.exists_last
      have same := inductionHypothesis otherEarlier
      subst same
      exact unique _ _ _ _ last otherLast

/--
Where an event leads to one state only, a run all of whose steps hold of
something is one up to its last step, which holds of it too.
-/
theorem snoc_restricted_iff
    {Holds : State → Event → Prop}
    (unique :
      ∀ state event first second,
        step state event first → step state event second →
          first = second)
    {history : List Event}
    {event : Event}
    {middle final : State}
    (earlier : Run step start history middle)
    (last : step middle event final) :
    Run (fun state event next => step state event next ∧ Holds state event)
        start (history ++ [event]) final ↔
      Run (fun state event next => step state event next ∧ Holds state event)
          start history middle ∧
        Holds middle event := by
  constructor
  · intro run
    obtain ⟨between, restricted, -, holds⟩ := run.exists_last
    have same : between = middle :=
      (restricted.mono And.left).final_unique earlier unique
    subst same
    exact ⟨restricted, holds⟩
  · rintro ⟨restricted, holds⟩
    exact .snoc restricted ⟨last, holds⟩

/-- A run followed by a run is a run. -/
theorem append
    {leading trailing : List Event}
    {middle final : State}
    (first : Run step start leading middle)
    (later : Run step middle trailing final) :
    Run step start (leading ++ trailing) final := by
  induction later with
  | nil =>
      simpa using first
  | snoc earlier last inductionHypothesis =>
      rw [← List.append_assoc]
      exact .snoc inductionHypothesis last

/-- A run goes through the step of each of its events. -/
theorem exists_at
    {earlier following : List Event}
    {event : Event}
    {final : State}
    (run : Run step start (earlier ++ event :: following) final) :
    ∃ before after,
      Run step start earlier before ∧ step before event after ∧
        Run step after following final := by
  induction following using List.reverseRecOn generalizing final with
  | nil =>
      obtain ⟨before, earlierRun, last⟩ := run.exists_last
      exact ⟨before, final, earlierRun, last, .nil⟩
  | append_singleton following last inductionHypothesis =>
      rw [← List.cons_append, ← List.append_assoc] at run
      obtain ⟨middle, upToMiddle, lastStep⟩ := run.exists_last
      obtain ⟨before, after, earlierRun, taken, rest⟩ :=
        inductionHypothesis upToMiddle
      exact ⟨before, after, earlierRun, taken, .snoc rest lastStep⟩

/--
The rule for matched runs.  When related states match each allowed step of the
first system with a step of the second under the event's label, every run of
allowed events is matched by a run with the labelled history.
-/
theorem matches_run
    {Other : Type u}
    {Label : Type v}
    {otherStep : Other → Label → Other → Prop}
    {otherStart : Other}
    (Related : State → Other → Prop)
    (label : Event → Label)
    {Allowed : Event → Prop}
    (initially : Related start otherStart)
    {history : List Event}
    {final : State}
    (run : Run step start history final)
    (allowed : ∀ event ∈ history, Allowed event)
    (matched :
      ∀ state other event next,
        Related state other → Allowed event → step state event next →
          ∃ otherNext,
            otherStep other (label event) otherNext ∧
              Related next otherNext) :
    ∃ otherFinal,
      Run otherStep otherStart (history.map label) otherFinal ∧
        Related final otherFinal := by
  induction run with
  | nil =>
      exact ⟨otherStart, .nil, initially⟩
  | snoc earlier last inductionHypothesis =>
      obtain ⟨otherMiddle, otherEarlier, related⟩ :=
        inductionHypothesis fun event member =>
          allowed event (by simp [member])
      obtain ⟨otherFinal, otherLast, finallyRelated⟩ :=
        matched _ _ _ _ related (allowed _ (by simp)) last
      rw [List.map_append]
      exact ⟨otherFinal, .snoc otherEarlier otherLast, finallyRelated⟩

/--
The simulation rule.  When every allowed step, seen through `view` and `label`,
is a step of another system, every run of allowed events is a run of it.
-/
theorem simulates
    {Abstract : Type u}
    {Label : Type v}
    {abstractStep : Abstract → Label → Abstract → Prop}
    (view : State → Abstract)
    (label : Event → Label)
    (Invariant : State → Prop)
    {Allowed : Event → Prop}
    (initially : Invariant start)
    (simulated :
      ∀ {state event next},
        Invariant state → Allowed event → step state event next →
          Invariant next ∧
            abstractStep (view state) (label event) (view next))
    {history : List Event}
    {final : State}
    (run : Run step start history final)
    (allowed : ∀ event ∈ history, Allowed event) :
    Invariant final ∧
      Run abstractStep (view start) (history.map label) (view final) := by
  obtain ⟨abstractFinal, abstractRun, holds, rfl⟩ :=
    run.matches_run
      (fun state abstract => Invariant state ∧ abstract = view state)
      label ⟨initially, rfl⟩ allowed (by
        rintro state _ event next ⟨holds, rfl⟩ eventAllowed taken
        obtain ⟨nextHolds, abstractTaken⟩ :=
          simulated holds eventAllowed taken
        exact ⟨view next, abstractTaken, nextHolds, rfl⟩)
  exact ⟨holds, abstractRun⟩

end Run

section Since

variable {Event : Type v} {keeps holds : Event → Prop}

/-- Some event of the history holds and every later event keeps it. -/
def Since (keeps holds : Event → Prop) (history : List Event) : Prop :=
  ∃ earlier event later,
    history = earlier ++ event :: later ∧
      holds event ∧ ∀ next ∈ later, keeps next

/-- An event that holds makes it so. -/
theorem since_of_holds
    (history : List Event)
    {event : Event}
    (eventHolds : holds event) :
    Since keeps holds (history ++ [event]) :=
  ⟨history, event, [], rfl, eventHolds, by simp⟩

/-- An event that keeps it leaves it so. -/
theorem Since.snoc
    {history : List Event}
    (since : Since keeps holds history)
    {event : Event}
    (eventKeeps : keeps event) :
    Since keeps holds (history ++ [event]) := by
  obtain ⟨earlier, latest, later, shape, latestHolds, laterKeep⟩ := since
  refine ⟨earlier, latest, later ++ [event], ?_, latestHolds, ?_⟩
  · simp [shape]
  · intro next member
    rcases List.mem_append.mp member with inLater | isEvent
    · exact laterKeep next inLater
    · rw [List.mem_singleton.mp isEvent]
      exact eventKeeps

/-- Nothing holds since of the empty history. -/
theorem not_since_nil :
    ¬ Since keeps holds ([] : List Event) := by
  rintro ⟨earlier, event, later, shape, -, -⟩
  simp at shape

/-- One more event makes it so, or leaves it so. -/
theorem since_snoc_iff
    {history : List Event}
    {event : Event} :
    Since keeps holds (history ++ [event]) ↔
      holds event ∨ (Since keeps holds history ∧ keeps event) := by
  constructor
  · rintro ⟨earlier, latest, later, shape, latestHolds, laterKeep⟩
    rcases List.eq_nil_or_concat later with rfl | ⟨middle, last, rfl⟩
    · rw [← List.concat_eq_append, ← List.concat_eq_append] at shape
      obtain ⟨-, rfl⟩ := List.concat_inj.mp shape
      exact Or.inl latestHolds
    · rw [List.concat_eq_append, ← List.cons_append, ← List.append_assoc,
        ← List.concat_eq_append, ← List.concat_eq_append] at shape
      obtain ⟨rfl, rfl⟩ := List.concat_inj.mp shape
      refine Or.inr ⟨⟨earlier, latest, middle, rfl, latestHolds, ?_⟩,
        laterKeep _ (by simp)⟩
      intro next member
      exact laterKeep next (by simp [member])
  · rintro (eventHolds | ⟨since, eventKeeps⟩)
    · exact since_of_holds history eventHolds
    · exact since.snoc eventKeeps

/-- What holds since of a labelled history holds since of the events. -/
theorem Since.of_map
    {Label : Type u}
    {label : Event → Label}
    {keepsLabel holdsLabel : Label → Prop}
    {history : List Event}
    (since : Since keepsLabel holdsLabel (history.map label)) :
    Since (fun event => keepsLabel (label event))
      (fun event => holdsLabel (label event)) history := by
  obtain ⟨earlier, latest, later, shape, latestHolds, laterKeep⟩ := since
  obtain ⟨before, rest, historyShape, -, restShape⟩ :=
    List.map_eq_append_iff.mp shape
  obtain ⟨event, after, eventShape, eventLabel, afterShape⟩ :=
    List.map_eq_cons_iff.mp restShape
  refine ⟨before, event, after, ?_, ?_, ?_⟩
  · rw [historyShape, eventShape]
  · simpa only [eventLabel] using latestHolds
  · intro next member
    apply laterKeep
    rw [← afterShape]
    exact List.mem_map_of_mem member

end Since

end CacheBench.Execution

import CacheBench.Execution

namespace CacheBench.Execution

/-!
# Two systems in lock step

Two computations agree when both fail alike or both return related results.
Two systems run in lock step when every step of the first, from related states,
is matched by a step of the second with the same event.
-/

universe u v w

/-- Both computations fail alike, or return related results. -/
inductive Agree
    {Failure : Type w}
    {α : Type u}
    {β : Type v}
    (Related : α → β → Prop) :
    Except Failure α → Except Failure β → Prop where
  | error (failure : Failure) :
      Agree Related (.error failure) (.error failure)
  | ok
      {first : α}
      {second : β}
      (related : Related first second) :
      Agree Related (.ok first) (.ok second)

namespace Agree

section

variable {Failure : Type w} {α : Type u} {β : Type v}
variable {Related : α → β → Prop}

/-- A computation agrees with itself. -/
theorem of_eq
    {first second : Except Failure α}
    (same : first = second) :
    Agree Eq first second := by
  subst same
  cases first with
  | error failure =>
      exact .error failure
  | ok result =>
      exact .ok rfl

/-- Both computations branch alike. -/
theorem ite
    {condition otherCondition : Prop}
    [Decidable condition]
    [Decidable otherCondition]
    (sameBranch : condition ↔ otherCondition)
    {first third : Except Failure α}
    {second fourth : Except Failure β}
    (agree : Agree Related first second)
    (otherwise : Agree Related third fourth) :
    Agree Related
      (if condition then first else third)
      (if otherCondition then second else fourth) := by
  by_cases holds : condition
  · rw [if_pos holds, if_pos (sameBranch.mp holds)]
    exact agree
  · rw [if_neg holds, if_neg fun other => holds (sameBranch.mpr other)]
    exact otherwise

/-- Where the first computation returned, the second one did. -/
theorem exists_ok
    {first : Except Failure α}
    {second : Except Failure β}
    (agree : Agree Related first second)
    {result : α}
    (returned : first = .ok result) :
    ∃ other, second = .ok other ∧ Related result other := by
  subst returned
  cases agree with
  | ok related =>
      exact ⟨_, rfl, related⟩

/-- Functions that do not tell related results apart give the same outcome. -/
theorem map_eq
    {γ : Type u}
    {view : α → γ}
    {otherView : β → γ}
    (alike :
      ∀ {first second},
        Related first second → view first = otherView second)
    {first : Except Failure α}
    {second : Except Failure β}
    (agree : Agree Related first second) :
    first.map view = second.map otherView := by
  cases agree with
  | error failure =>
      rfl
  | ok related =>
      exact congrArg Except.ok (alike related)

end

/-- Sequences of computations agree when each part does. -/
theorem bind
    {Failure : Type w}
    {α β γ δ : Type u}
    {Related : α → β → Prop}
    {Finally : γ → δ → Prop}
    {first : Except Failure α}
    {second : Except Failure β}
    {next : α → Except Failure γ}
    {otherNext : β → Except Failure δ}
    (agree : Agree Related first second)
    (later :
      ∀ result other,
        first = .ok result → Related result other →
          Agree Finally (next result) (otherNext other)) :
    Agree Finally (first >>= next) (second >>= otherNext) := by
  cases agree with
  | error failure =>
      exact .error failure
  | ok related =>
      exact later _ _ rfl related

end Agree

/--
The rule for lock step.  When related states match each other's allowed steps,
event by event, every run of allowed events is matched by a run with the same
history.
-/
theorem Run.lockstep
    {State Other : Type u}
    {Event : Type v}
    {step : State → Event → State → Prop}
    {otherStep : Other → Event → Other → Prop}
    (Related : State → Other → Prop)
    {Allowed : Event → Prop}
    {start : State}
    {otherStart : Other}
    (initially : Related start otherStart)
    {history : List Event}
    {final : State}
    (run : Run step start history final)
    (allowed : ∀ event ∈ history, Allowed event)
    (matched :
      ∀ state other event next,
        Related state other → Allowed event → step state event next →
          ∃ otherNext,
            otherStep other event otherNext ∧ Related next otherNext) :
    ∃ otherFinal,
      Run otherStep otherStart history otherFinal ∧
        Related final otherFinal := by
  have matchedRun := run.matches_run Related id initially allowed matched
  rw [List.map_id] at matchedRun
  exact matchedRun

end CacheBench.Execution

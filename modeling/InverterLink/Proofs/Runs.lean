import InverterLink.Run
import Mathlib

/-!
# Induction over runs

A run is a list of passages, each an action between two states. What one step keeps, a whole run
keeps: `passages_induction` says so of what holds of the passages, of the events and of the state
together.
-/

namespace InverterLink.Proofs

/-- An action, the states before and after it, and what could be seen of it. -/
structure Passage (σ α ε : Type) where
  state : σ
  action : α
  next : σ
  events : List ε

section Runs

variable {σ α ε : Type} {step : σ → α → Option (σ × List ε)} {s s' start : σ} {action : α}
  {actions : List α} {events : List ε}

/-- The passages of a run. -/
def passagesOf (step : σ → α → Option (σ × List ε)) (s : σ) : List α → List (Passage σ α ε)
  | [] => []
  | action :: rest =>
    match step s action with
    | some (s', events) => ⟨s, action, s', events⟩ :: passagesOf step s' rest
    | none => []

/-- A run takes its first step, and then runs on. -/
theorem run_cases (hr : runSteps step s (action :: actions) = some (s', events)) :
    ∃ s₁ now later, step s action = some (s₁, now) ∧ runSteps step s₁ actions = some (s', later) ∧
      events = now ++ later := by
  simp only [runSteps, Option.bind_eq_bind, Option.bind_eq_some_iff] at hr
  obtain ⟨⟨s₁, now⟩, hs, ⟨s₂, later⟩, hrest, he⟩ := hr
  cases he
  exact ⟨s₁, now, later, hs, hrest, rfl⟩

lemma run_cons {s₁ : σ} {now later : List ε} (hs : step s action = some (s₁, now))
    (hrest : runSteps step s₁ actions = some (s', later)) :
    runSteps step s (action :: actions) = some (s', now ++ later) := by
  simp [runSteps, hs, hrest]

theorem runs_append {s₀ : σ} {first second : List α} {ahead behind : List ε}
    (hfirst : runSteps step s₀ first = some (s, ahead))
    (hsecond : runSteps step s second = some (s', behind)) :
    runSteps step s₀ (first ++ second) = some (s', ahead ++ behind) := by
  induction first generalizing s₀ ahead with
  | nil =>
    cases hfirst
    exact hsecond
  | cons action rest ih =>
    obtain ⟨s₁, now, later, hs, hrest, rfl⟩ := run_cases hfirst
    rw [List.cons_append, List.append_assoc]
    exact run_cons hs (ih hrest)

lemma passages_cons {s₁ : σ} {now : List ε} (hs : step s action = some (s₁, now)) :
    passagesOf step s (action :: actions) =
      ⟨s, action, s₁, now⟩ :: passagesOf step s₁ actions := by
  rw [passagesOf, hs]

/-- What holds after some passages and is kept by every step holds in the end. -/
theorem passages_induction_from {P : List (Passage σ α ε) → List ε → σ → Prop}
    {h : List (Passage σ α ε)} {seen : List ε} (hstart : P h seen start)
    (hstep : ∀ h seen s action s' shown, P h seen s → step s action = some (s', shown) →
      P (h ++ [⟨s, action, s', shown⟩]) (seen ++ shown) s')
    (hr : runSteps step start actions = some (s, events)) :
    P (h ++ passagesOf step start actions) (seen ++ events) s := by
  induction actions generalizing start events h seen with
  | nil =>
    cases hr
    rwa [passagesOf, List.append_nil, List.append_nil]
  | cons action rest ih =>
    obtain ⟨s₁, now, later, hs, hrest, rfl⟩ := run_cases hr
    rw [passages_cons hs, List.append_cons, ← List.append_assoc]
    exact ih (hstep h seen _ action _ now hstart hs) hrest

/-- What holds at the start and is kept by every step holds in the end. -/
theorem passages_induction {P : List (Passage σ α ε) → List ε → σ → Prop}
    (hstart : P [] [] start)
    (hstep : ∀ h seen s action s' shown, P h seen s → step s action = some (s', shown) →
      P (h ++ [⟨s, action, s', shown⟩]) (seen ++ shown) s')
    (hr : runSteps step start actions = some (s, events)) :
    P (passagesOf step start actions) events s :=
  passages_induction_from hstart hstep hr

/-- What every step keeps of a state is kept by a run. -/
theorem run_induction {P : σ → Prop} (hstart : P start)
    (hstep : ∀ s action s' shown, P s → step s action = some (s', shown) → P s')
    (hr : runSteps step start actions = some (s, events)) : P s :=
  passages_induction (P := fun _ _ s => P s) hstart
    (fun _ _ s action s' shown hp hs => hstep s action s' shown hp hs) hr

lemma events_eq (hr : runSteps step s actions = some (s', events)) :
    events = (passagesOf step s actions).flatMap (·.events) := by
  refine passages_induction (P := fun h seen _ => seen = h.flatMap (·.events)) rfl ?_ hr
  rintro h seen s action s' shown rfl -
  rw [List.flatMap_append, List.flatMap_singleton]

lemma actions_eq (hr : runSteps step s actions = some (s', events)) :
    (passagesOf step s actions).map (·.action) = actions := by
  induction actions generalizing s events with
  | nil => rfl
  | cons action rest ih =>
    obtain ⟨s₁, now, later, hs, hrest, -⟩ := run_cases hr
    rw [passages_cons hs, List.map_cons, ih hrest]

/-- Some actions raise a flag, and nobody lowers it. -/
theorem flag_run (flag : σ → Bool) {raises : α → Bool}
    (hstep : ∀ s action s' shown, step s action = some (s', shown) →
      flag s' = (flag s || raises action))
    (hr : runSteps step start actions = some (s, events)) :
    flag s = (flag start || actions.any raises) := by
  have hall : flag s =
      (flag start || ((passagesOf step start actions).map (·.action)).any raises) := by
    refine passages_induction
      (P := fun h _ s => flag s = (flag start || (h.map (·.action)).any raises))
      (Bool.or_false _).symm ?_ hr
    intro h seen s action s' shown hflag hs
    simp [hstep s action s' shown hs, hflag, Bool.or_assoc]
  rwa [actions_eq hr] at hall

lemma action_mem {w : Passage σ α ε} (hw : w ∈ passagesOf step s actions) :
    w.action ∈ actions := by
  induction actions generalizing s with
  | nil => cases hw
  | cons action rest ih =>
    rw [passagesOf] at hw
    split at hw
    · rcases List.mem_cons.mp hw with rfl | hw
      · exact List.mem_cons_self
      · exact List.mem_cons_of_mem _ (ih hw)
    · cases hw

/-- A passage divides its run. -/
theorem passages_split {w : Passage σ α ε} (hr : runSteps step s actions = some (s', events))
    (hw : w ∈ passagesOf step s actions) :
    ∃ before after ahead behind, runSteps step s before = some (w.state, ahead) ∧
      step w.state w.action = some (w.next, w.events) ∧
      runSteps step w.next after = some (s', behind) ∧
      passagesOf step s actions =
        passagesOf step s before ++ w :: passagesOf step w.next after := by
  induction actions generalizing s events with
  | nil => cases hw
  | cons action rest ih =>
    obtain ⟨s₁, now, later, hs, hrest, rfl⟩ := run_cases hr
    rw [passages_cons hs] at hw ⊢
    rcases List.mem_cons.mp hw with rfl | hw
    · exact ⟨[], rest, [], later, rfl, hs, hrest, rfl⟩
    · obtain ⟨before, after, ahead, behind, hbefore, hstep, hafter, hwhole⟩ := ih hrest hw
      refine ⟨action :: before, after, now ++ ahead, behind, run_cons hs hbefore, hstep, hafter, ?_⟩
      rw [passages_cons hs, hwhole]
      rfl

end Runs

section Showing

variable {σ α ε : Type} {step : σ → α → Option (σ × ε)} {s s' : σ} {action : α}
  {actions : List α} {events shown : List ε}

lemma showing_cases (hs : showing step s action = some (s', shown)) :
    ∃ event, step s action = some (s', event) ∧ shown = [event] := by
  obtain ⟨⟨s₁, event⟩, hstep, he⟩ := Option.map_eq_some_iff.mp hs
  cases he
  exact ⟨event, hstep, rfl⟩

lemma showing_eq {event : ε} (hs : step s action = some (s', event)) :
    showing step s action = some (s', [event]) := by
  rw [showing, hs]
  rfl

lemma shown_cases (hr : runSteps (showing step) s (action :: actions) = some (s', events)) :
    ∃ s₁ event later, step s action = some (s₁, event) ∧
      runSteps (showing step) s₁ actions = some (s', later) ∧ events = event :: later := by
  obtain ⟨s₁, now, later, hs, hrest, rfl⟩ := run_cases hr
  obtain ⟨event, hstep, rfl⟩ := showing_cases hs
  exact ⟨s₁, event, later, hstep, hrest, rfl⟩

end Showing
end InverterLink.Proofs

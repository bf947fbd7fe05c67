/-!
# Runs

Whatever takes one step at a time has runs. An action is possible or not in a state; if it is, it
leads to another state, and something can be seen of it. A run is any sequence of possible actions.
-/

namespace InverterLink

variable {σ α ε : Type}

/-- The end of a run and its events, if every action in it is possible. -/
def runSteps (step : σ → α → Option (σ × List ε)) (s : σ) : List α → Option (σ × List ε)
  | [] => some (s, [])
  | action :: rest => do
    let (s', events) ← step s action
    let (s'', more) ← runSteps step s' rest
    return (s'', events ++ more)

/-- A step of which just one thing can be seen, as a step of which any number can. -/
def showing (step : σ → α → Option (σ × ε)) (s : σ) (action : α) : Option (σ × List ε) :=
  (step s action).map fun (s', event) => (s', [event])

end InverterLink

import HomeEnergy.Part
import HomeEnergy.Scalar.Rational

/-!
# Series of inputs

A device takes one input after the other, answers each and goes on from the state that it left. This module puts the
answers of a series together, so that what one input does to a device can be said of a series by induction.

* `Series.run` — the answers to a series, and the device after it.
* `Series.run_append` — a series can be taken apart; `Series.getElem?_run` — one of its answers.
* `Series.run_keeps` — **what every input keeps, every series keeps.**
* `Series.ticks` — a step function that takes what a device receives at a tick and the map it writes into.
* `RunSettings.quarterHours`, `Series.quarters` — an hour in quarters, for runs on fixed inputs.
-/

namespace HomeEnergy

namespace Series

variable {D X Y : Type} {f : D → X → Y × D} {d : D} {x : X} {xs : List X}

def run (f : D → X → Y × D) (d : D) : List X → List Y × D
  | [] => ([], d)
  | x :: xs => ((f d x).1 :: (run f (f d x).2 xs).1, (run f (f d x).2 xs).2)

@[simp] theorem run_nil : run f d [] = ([], d) := rfl

theorem run_cons :
    run f d (x :: xs) = ((f d x).1 :: (run f (f d x).2 xs).1, (run f (f d x).2 xs).2) := rfl

@[simp] theorem length_run : (run f d xs).1.length = xs.length := by
  induction xs generalizing d with
  | nil => rfl
  | cons x xs ih => rw [run_cons, List.length_cons, List.length_cons, ih]

/-- A series can be taken apart. -/
theorem run_append (xs ys : List X) : run f d (xs ++ ys) =
    ((run f d xs).1 ++ (run f (run f d xs).2 ys).1, (run f (run f d xs).2 ys).2) := by
  induction xs generalizing d with
  | nil => rfl
  | cons x xs ih => rw [List.cons_append, run_cons, run_cons, ih, List.cons_append]

theorem run_concat : run f d (xs ++ [x]) =
    ((run f d xs).1 ++ [(f (run f d xs).2 x).1], (f (run f d xs).2 x).2) :=
  run_append xs [x]

theorem getElem?_run (k : Nat) : (run f d xs).1[k]? = xs[k]?.map fun x => (f (run f d (xs.take k)).2 x).1 := by
  induction xs generalizing d k with
  | nil => simp
  | cons x xs ih =>
    cases k with
    | zero => rfl
    | succ k => simp [run_cons, ih]

/-- **What every input keeps, every series keeps.** -/
theorem run_keeps {I : D → Prop} {T : X → Prop} (hf : ∀ d x, T x → I d → I (f d x).2) (hd : I d)
    (hxs : ∀ x ∈ xs, T x) : I (run f d xs).2 := by
  induction xs generalizing d with
  | nil => exact hd
  | cons x xs ih =>
    exact ih (hf d x (hxs x (by simp)) hd) fun y hy => hxs y (by simp [hy])

def ticks {α : Type} (step : D → StepInput α → FlowMap α → FlowMap α × D) (d : D)
    (x : StepInput α × FlowMap α) : FlowMap α × D :=
  step d x.1 x.2

def quarters : List (StepInput Rat × FlowMap Rat) :=
  (List.range 4).map fun k =>
    ({ tick := UInt64.ofNat k * 900, flows := .unrestricted, meter := .zero }, .limitedTo [.activePower])

theorem quarters_allow : ∀ x ∈ quarters, x.2.allows .activePower = true := by
  intro x hx
  obtain ⟨k, -, rfl⟩ := List.mem_map.mp hx
  show (FlowMap.limitedTo [.activePower] : FlowMap Rat).allows .activePower = true
  decide +kernel

end Series

def RunSettings.quarterHours : RunSettings :=
  { referenceTime := 0, step := 900, log := false, keepPrediction := false }

end HomeEnergy

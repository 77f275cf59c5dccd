import HomeEnergy.Proofs.Course
import HomeEnergy.Proofs.Order

/-!
# Solutions that compare equal

Of solutions that compare equal variable by variable a front keeps the first one only. They need not be one
solution, since a variable may be a zero of either sign. This module says that nobody reads the difference.

* `Part.Extensional` — the law of a part that reads such solutions alike; `Device.extensional` — **the seven
  models obey it** over double-precision numbers.
* `Evaluator.runOn_same` — **evaluations of solutions that compare equal are one evaluation.**
-/

namespace HomeEnergy

/-- The law of a part that solutions that compare equal leave in one state. -/
class Part.Extensional (P : Type) {α : outParam Type} [Scalar α] [Part P α] : Prop where
  withSolution_same : ∀ (p : P) {s s' : Solution α}, s.same s' = true →
    Part.withSolution p s = Part.withSolution p s'

/-! ### Variable by variable -/

namespace Solution

variable {α : Type} [Scalar α]

/-- Solutions of numbers compare equal if their variables do. -/
theorem same_real_iff {a b : Array α} : (real a).same (real b) = true ↔
    ∃ h : a.size = b.size, ∀ (i : Nat) (hi : i < a.size), (a[i] == b[i]) = true := by
  show Array.isEqv a b (· == ·) = true ↔ _
  rw [Array.isEqv_eq_decide]
  split
  · rename_i hsize
    simp [hsize]
  · rename_i hsize
    simp [hsize]

theorem same_binary_iff {a b : Array Bool} : (binary a : Solution α).same (binary b) = true ↔ a = b :=
  beq_iff_eq

variable {s s' : Solution α}

theorem encoding_same (h : s.same s' = true) : s.encoding = s'.encoding := by
  match s, s', h with
  | binary _, binary _, _ => rfl
  | real _, real _, _ => rfl

theorem size_same (h : s.same s' = true) : s.size = s'.size := by
  match s, s', h with
  | binary _, binary _, h => exact congrArg Array.size (same_binary_iff.mp h)
  | real _, real _, h => exact (same_real_iff.mp h).1

/-- The variables of a range compare equal if all variables do. -/
theorem piece_same (h : s.same s' = true) (r : Share) : (s.piece r).same (s'.piece r) = true := by
  match s, s', h with
  | binary _, binary _, h => exact same_binary_iff.mpr (by rw [same_binary_iff.mp h])
  | real a, real b, h =>
    obtain ⟨hsize, hall⟩ := same_real_iff.mp h
    refine same_real_iff.mpr ⟨by simp [hsize], ?_⟩
    intro i hi
    have hlt : r.start.toNat + i < a.size := by
      simp only [Array.size_extract] at hi
      omega
    simpa using hall (r.start.toNat + i) hlt

end Solution

theorem map_congr_same {α β : Type} [Scalar α] {a b : Array α} {f : α → β}
    (hf : ∀ x y : α, (x == y) = true → f x = f y)
    (h : (Solution.real a).same (.real b) = true) : a.map f = b.map f := by
  obtain ⟨hsize, hall⟩ := Solution.same_real_iff.mp h
  apply Array.ext
  · simp [hsize]
  · intro i hi hi'
    simpa using hf _ _ (hall i (by simpa using hi))

/-! ### The devices -/

theorem Solution.flags_same {s s' : Solution Double} (h : s.same s' = true) : s.flags = s'.flags := by
  match s, s', h with
  | .binary _, .binary _, h => exact same_binary_iff.mp h
  | .real _, .real _, h =>
    exact map_congr_same (fun x y hxy => decide_eq_decide.mpr (Double.le_congr hxy)) h

/-- Solutions that compare equal have the same setpoints. -/
theorem Battery.withSolution_same (d : Battery Double) {s s' : Solution Double}
    (h : s.same s' = true) : d.withSolution s = d.withSolution s' := by
  match s, s', h with
  | .binary _, .binary _, h => rw [Solution.same_binary_iff.mp h]
  | .real a, .real b, h =>
    have hset : a.map d.realSetpoint = b.map d.realSetpoint := by
      refine map_congr_same ?_ h
      intro x y hxy
      simp only [Battery.realSetpoint, Double.centered_congr hxy]
    simp only [Battery.withSolution, hset]

/-- **The seven models read solutions that compare equal alike.** -/
instance Device.extensional : Part.Extensional (Device Double) where
  withSolution_same d s s' h := by
    cases d with
    | battery d => exact congrArg battery (Battery.withSolution_same d h)
    | evCharger d =>
      exact congrArg (fun flags => evCharger { d with enabled := flags }) (Solution.flags_same h)
    | chp d => exact congrArg (fun flags => chp { d with forced := flags }) (Solution.flags_same h)
    | _ => rfl

/-! ### Evaluations -/

section Evaluations

variable {P α : Type} [Scalar α] [Part P α] [Part.Extensional P] {s s' : Solution α}

theorem Layout.give_same (h : s.same s' = true) (p : P) (r : Share) : give s p r = give s' p r := by
  simp only [give_eq, handed, Solution.size_same h,
    Part.Extensional.withSolution_same p (Solution.piece_same h r)]

theorem Layout.giveAll_same (h : s.same s' = true) :
    ∀ (parts : List P) (shares : List Share), giveAll s parts shares = giveAll s' parts shares := by
  intro parts
  induction parts with
  | nil => intro shares; cases shares <;> rfl
  | cons p parts ih =>
    intro shares
    cases shares with
    | nil => rfl
    | cons r shares => simp only [giveAll, give_same h, ih]

theorem Layout.distribute_same (h : s.same s' = true) (l : Layout) (parts : Array P) :
    l.distribute s parts = l.distribute s' parts := by
  simp only [distribute, Solution.encoding_same h, Solution.size_same h, giveAll_same h]

/-- **Evaluations of solutions that compare equal are one evaluation.** -/
theorem Evaluator.runOn_same (e : Evaluator P α) (c : Problem P α) (h : s.same s' = true)
    (flags : EvaluationFlags) (recording? : Option (Recording α)) :
    e.runOn c s flags recording? = e.runOn c s' flags recording? := by
  simp only [runOn, Layout.distribute_same h]

end Evaluations

end HomeEnergy

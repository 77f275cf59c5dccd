import HomeEnergy.Random.Draw
import Mathlib.Tactic.ByContra

/-!
# Outcomes of draws

A draw takes words from a source, and what can be said of its outcome is said for every source.

* `Draw.Always` — what holds of every outcome of a draw; `Draw.always_bind` — draws that go on from others.
* `Draw.belowWith_always` — a number scaled down from a word is below its bound, corrected or not.
* `Draw.indexBetween_always` — **an index is drawn from every range that is not empty, and lies in it.**
* `Draw.between_always` — a number is drawn exactly if the range is in order and its span is finite.
-/

namespace HomeEnergy

namespace Draw

variable {G β γ : Type}

/-- A draw whose outcomes all pass a test. -/
def Always (T : β → Prop) (draw : StateM G β) : Prop :=
  ∀ source, T (draw.run source).1

theorem always_pure {T : β → Prop} {x : β} (h : T x) : Always T (pure x : StateM G β) :=
  fun _ => h

theorem always_bind {T : β → Prop} {U : γ → Prop} {draw : StateM G β} {next : β → StateM G γ}
    (h : Always T draw) (hnext : ∀ x, T x → Always U (next x)) : Always U (draw >>= next) :=
  fun source => hnext _ (h source) _

theorem always_true (draw : StateM G β) : Always (fun _ => True) draw :=
  fun _ => trivial

/-! ### Indices -/

theorem mul_div_lt {radix w n : Nat} (hw : w < radix) (hn : 0 < n) : w * n / radix < n := by
  rw [Nat.div_lt_iff_lt_mul (by omega), Nat.mul_comm n radix]
  exact Nat.mul_lt_mul_of_pos_right hw hn

/-- Where the low half of the product of a word and a bound is large, the high half is not the last number
below the bound. -/
theorem mul_div_succ_lt {radix w n : Nat} (hw : w < radix) (hn : n ≤ radix)
    (hlow : radix - n < w * n % radix) : w * n / radix + 1 < n := by
  have hsplit : radix * (w * n / radix) + w * n % radix = w * n := Nat.div_add_mod _ _
  have htop : w * n + n ≤ radix * n := by
    have h := Nat.mul_le_mul_right n (Nat.succ_le_of_lt hw)
    rwa [Nat.succ_mul] at h
  by_contra hge
  have hlast : radix * n ≤ radix * (w * n / radix + 1) := Nat.mul_le_mul_left radix (by omega)
  rw [Nat.mul_succ] at hlast
  omega

theorem belowWith_always {radix n : Nat} {draw : StateM G Nat} (hdraw : Always (· < radix) draw)
    (hpos : 0 < n) (hn : n ≤ radix) : Always (· < n) (belowWith radix draw n) := by
  refine always_bind hdraw fun w hw => ?_
  show Always (· < n) (if radix - n < w * n % radix then _ else _)
  split
  · rename_i hlow
    refine always_bind hdraw fun v _ => always_pure ?_
    split
    · exact mul_div_succ_lt hw hn hlow
    · exact mul_div_lt hw hpos
  · exact always_pure (mul_div_lt hw hpos)

variable [WordSource G]

theorem word_always : Always (· < UInt32.size) (do return (← word).toNat : StateM G Nat) :=
  always_bind (always_true _) fun w _ => always_pure w.toNat_lt_size

theorem word64_always : Always (· < UInt64.size) (do return (← word64).toNat : StateM G Nat) :=
  always_bind (always_true _) fun w _ => always_pure w.toNat_lt_size

theorem index_always {low high : Nat} (hle : low ≤ high) (hhigh : high < UInt64.size) :
    Always (fun i => low ≤ i ∧ i ≤ high) (index low high : StateM G Nat) := by
  unfold index
  split
  · refine always_bind (belowWith_always word_always (by omega) (by omega)) fun i hi => always_pure ?_
    omega
  · refine always_bind (belowWith_always word64_always (by omega) (by omega)) fun i hi => always_pure ?_
    omega

/-- **An index is drawn from every range that is not empty, and lies in it.** -/
theorem indexBetween_always {low high : Nat} (hle : low ≤ high) (hhigh : high < UInt64.size) :
    Always (fun r => ∃ i, r = .ok i ∧ low ≤ i ∧ i ≤ high)
      (indexBetween low high : StateM G (Except Defect Nat)) := by
  unfold indexBetween
  rw [if_neg (by omega)]
  exact always_bind (index_always hle hhigh) fun i hi => always_pure ⟨i, rfl, hi⟩

/-- A number is drawn exactly if the range is in order and its span is finite. -/
theorem between_always {α : Type} [Scalar α] (low high : α) :
    Always (fun r => if low ≤ high ∧ Scalar.isFinite (high - low) = true then ∃ x, r = .ok x
        else r = .error .emptyRange)
      (between low high : StateM G (Except Defect α)) := by
  unfold between
  split
  · exact always_bind (always_true _) fun w _ => always_pure ⟨_, rfl⟩
  · exact always_pure rfl

end Draw

end HomeEnergy

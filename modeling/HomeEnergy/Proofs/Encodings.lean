import HomeEnergy.Proofs.Acceptance
import HomeEnergy.Proofs.Faithfulness
import HomeEnergy.Proofs.Pieces
import HomeEnergy.Proofs.Relocation
import HomeEnergy.Proofs.Rounding

/-!
# What can be said in bits can be said in numbers

Devices read bits and numbers. Everything that bits say to them can be said in numbers as well, piece by piece: a
scheduled battery takes one number for two bits, every other device one number for a bit. The other way round numbers
are bits as long as no battery reads them.

* `Device.inNumbers` — a piece of bits as a piece of numbers; `Layout.inNumbers` — a solution, piece by piece.
* `Battery.bitSetpoints_similar` — **the setpoints are the same**, but for the sign of the zero of an idle step;
  `Battery.step_similar` — the battery does not see that sign.
* `Device.Alike`, `Device.alike_inseparable` — devices that differ in such signs publish and cost the same.
* `real_encoding_subsumes_binary` — **evaluations of a solution in bits and in numbers have one result**.
-/

namespace HomeEnergy

/-! ### Translations -/

section Translations

variable {α : Type} [Scalar α]

def numberOfPair : Bool → Bool → α
  | false, true => 1
  | true, false => 0
  | _, _ => 0.5

def numbersOfPairs : List Bool → List α
  | a :: b :: rest => numberOfPair a b :: numbersOfPairs rest
  | _ => []

def numberOfBit (on : Bool) : α :=
  if on then 1 else 0

/-- A piece of bits as a piece of numbers: one number for two bits in the schedule of a battery, one for each bit
elsewhere. -/
def Device.inNumbers (d : Device α) (piece : Solution α) : Solution α :=
  match d with
  | battery _ => .real (numbersOfPairs piece.bits).toArray
  | _ => .real (piece.bits.map numberOfBit).toArray

def Device.numberCount (d : Device α) : Nat :=
  match d with
  | battery d => if d.mode = .scheduled then d.timing.steps.toNat else 0
  | _ => (d.variableCount .real).toNat

def Device.bitCount (d : Device α) : Nat :=
  match d with
  | battery _ => 2 * d.numberCount
  | _ => d.numberCount

theorem length_numbersOfPairs :
    ∀ bits : List Bool, (numbersOfPairs (α := α) bits).length = bits.length / 2
  | [] => rfl
  | [_] => by simp [numbersOfPairs]
  | _ :: _ :: rest => by
    have hrest := length_numbersOfPairs rest
    simp only [numbersOfPairs, List.length_cons, hrest]
    omega

end Translations

/-- A solution in bits, in numbers, piece by piece. -/
def Layout.inNumbers {α : Type} [Transcendental α] (l : Layout) (parts : List (Device α))
    (s : Solution α) : Solution α :=
  .joined .real (List.zipWith Device.inNumbers parts (l.cut s))

/-! ### Schedules of a battery -/

namespace Battery

open Double (Similar IsZero)

section Steps

variable {α : Type} [Scalar α]

def withSetpoints (d : Battery α) (setpoints : Array α) : Battery α :=
  { d with setpoints }

/-- A setpoint is followed in the same way whatever the schedule is. -/
theorem applySetpoint_withSetpoints (d : Battery α) (setpoints : Array α) (w : α) :
    (d.withSetpoints setpoints).applySetpoint w
      = ((d.applySetpoint w).1, (d.applySetpoint w).2.withSetpoints setpoints) := by
  have hlimited : (d.withSetpoints setpoints).limitedPower w = d.limitedPower w := rfl
  by_cases hcharge : 0 < d.limitedPower w
  · simp only [applySetpoint, hlimited, if_pos hcharge]
    rfl
  · by_cases hdischarge : d.limitedPower w < 0
    · simp only [applySetpoint, hlimited, if_neg hcharge, if_pos hdischarge]
      rfl
    · simp only [applySetpoint, hlimited, if_neg hcharge, if_neg hdischarge]

/-- The battery after it has followed a setpoint with a power in a tick. -/
def noted (d : Battery α) (power : α) (tick : UInt64) : Battery α :=
  { d with
    lastPowerW := power
    socTrace := if d.timing.keepPrediction then d.socTrace.push d.soc else d.socTrace
    timing := d.timing.advance tick }

theorem step_withSetpoints (d : Battery α) (setpoints : Array α) (x : StepInput α) (out : FlowMap α) :
    let followed := d.applySetpoint ((d.withSetpoints setpoints).setpointAt x)
    (d.withSetpoints setpoints).step x out = (out.setPower .activePower followed.1,
      (followed.2.noted followed.1 x.tick).withSetpoints setpoints) := by
  simp only [step, applySetpoint_withSetpoints]
  rfl

theorem applySetpoint_idle {d : Battery α} {w : α} (hcharge : ¬ 0 < d.limitedPower w)
    (hdischarge : ¬ d.limitedPower w < 0) : d.applySetpoint w = (0, d) := by
  simp only [applySetpoint, if_neg hcharge, if_neg hdischarge]

end Steps

/-- Within the power limits the sign of a zero is lost or stays a sign of a zero. -/
theorem limitedPower_similar (d : Battery Double) {v w : Double} (h : Similar v w) :
    Similar (d.limitedPower v) (d.limitedPower w) := by
  have hle : 0 ≤ v ↔ 0 ≤ w := (Double.Same.refl 0).le_iff h.same
  have hcharge : v < d.maxChargeW ↔ w < d.maxChargeW := h.same.lt_iff (Double.Same.refl _)
  have hdischarge : -d.maxDischargeW < v ↔ -d.maxDischargeW < w := (Double.Same.refl _).lt_iff h.same
  unfold limitedPower Scalar.min Scalar.max
  simp only [hle, hcharge, hdischarge]
  split_ifs <;> first | exact h | exact Or.inl rfl

/-- **The sign of a zero setpoint is not seen.** -/
theorem applySetpoint_similar (d : Battery Double) {v w : Double} (h : Similar v w) :
    d.applySetpoint v = d.applySetpoint w := by
  rcases d.limitedPower_similar h with heq | ⟨hv, hw⟩
  · simp only [applySetpoint, heq]
  · have hidle : ∀ {x : Double}, x.IsZero → ¬ 0 < x ∧ ¬ x < 0 := by
      intro x hx
      have hplace : ∀ {p}, p ∈ x.standing? → p = Double.origin := fun hp =>
        (Option.some.inj (hx.standing?.symm.trans hp)).symm
      constructor
      · rintro hlt
        obtain ⟨o, ho, p, hp, hlt⟩ := Double.lt_iff.mp hlt
        obtain rfl : Double.origin = o := Option.some.inj ho
        exact absurd hlt (hplace hp ▸ lt_irrefl _)
      · rintro hlt
        obtain ⟨p, hp, o, ho, hlt⟩ := Double.lt_iff.mp hlt
        obtain rfl : Double.origin = o := Option.some.inj ho
        exact absurd hlt (hplace hp ▸ lt_irrefl _)
    rw [applySetpoint_idle (hidle hv).1 (hidle hv).2, applySetpoint_idle (hidle hw).1 (hidle hw).2]

/-- **A pair of bits and its number stand for one setpoint**, but for the sign of a zero. -/
theorem realSetpoint_numberOfPair {d : Battery Double} (hcharge : Scalar.isFinite d.maxChargeW = true)
    (hdischarge : Scalar.isFinite d.maxDischargeW = true) (a b : Bool) :
    Similar (d.bitsSetpoint a b) (d.realSetpoint (numberOfPair a b)) := by
  have hone : d.realSetpoint 1 = d.maxChargeW := by
    have hsigned : (2 * Scalar.clamp 0 1 1 - 1 : Double) = 1 := rfl
    simp only [realSetpoint, hsigned]
    rw [if_pos (by decide), Double.one_mul_finite hcharge]
  have hzero : d.realSetpoint 0 = -d.maxDischargeW := by
    have hsigned : (2 * Scalar.clamp 0 1 0 - 1 : Double) = -1 := rfl
    simp only [realSetpoint, hsigned]
    rw [if_neg (by decide), Double.neg_one_mul_finite hdischarge]
  have hhalf : Similar 0 (d.realSetpoint 0.5) := by
    have hsigned : (2 * Scalar.clamp 0 1 0.5 - 1 : Double) = 0 := rfl
    simp only [realSetpoint, hsigned]
    rw [if_pos (by decide)]
    exact Or.inr ⟨⟨.positive, rfl⟩, Double.isZero_zero_mul hcharge⟩
  cases a <;> cases b
  · exact hhalf
  · exact Or.inl hone.symm
  · exact Or.inl hzero.symm
  · exact hhalf

/-- **The setpoints of bits and of their numbers are the same**, but for the signs of zeros. -/
theorem bitSetpoints_similar {d : Battery Double} (hcharge : Scalar.isFinite d.maxChargeW = true)
    (hdischarge : Scalar.isFinite d.maxDischargeW = true) :
    ∀ bits : List Bool, bits.length % 2 = 0 →
      List.Forall₂ Similar (d.bitSetpoints bits) ((numbersOfPairs bits).map d.realSetpoint)
  | [], _ => .nil
  | [_], h => absurd h (by simp)
  | a :: b :: rest, h => by
    have hrest : rest.length % 2 = 0 := by
      simp only [List.length_cons] at h
      omega
    exact .cons (realSetpoint_numberOfPair hcharge hdischarge a b)
      (bitSetpoints_similar hcharge hdischarge rest hrest)

/-- Schedules that differ in the signs of zeros give setpoints that do. -/
theorem setpointAt_similar (d : Battery Double) {setpoints setpoints' : Array Double}
    (h : List.Forall₂ Similar setpoints.toList setpoints'.toList) (x : StepInput Double) :
    Similar ((d.withSetpoints setpoints).setpointAt x) ((d.withSetpoints setpoints').setpointAt x) := by
  have hget : ∀ k : Nat, Similar (setpoints[k]?.getD 0) (setpoints'[k]?.getD 0) := by
    intro k
    rw [← Array.getElem?_toList, ← Array.getElem?_toList]
    by_cases hk : k < setpoints.toList.length
    · have hk' : k < setpoints'.toList.length := h.length_eq ▸ hk
      rw [List.getElem?_eq_getElem hk, List.getElem?_eq_getElem hk']
      exact h.get hk hk'
    · have hk' : ¬ k < setpoints'.toList.length := h.length_eq ▸ hk
      rw [List.getElem?_eq_none (Nat.le_of_not_lt hk), List.getElem?_eq_none (Nat.le_of_not_lt hk')]
      exact Or.inl rfl
  simp only [setpointAt, withSetpoints]
  cases d.mode with
  | selfConsumption => exact Or.inl rfl
  | scheduled =>
    cases d.timing.stepIndex? x.tick with
    | none => exact Or.inl rfl
    | some k => exact hget k

end Battery

/-! ### Devices -/

namespace Device

open Double (Similar)

/-- Devices that are the same, but for the signs of zeros in the schedule of a battery. -/
inductive Alike : Device Double → Device Double → Prop where
  | refl (d : Device Double) : Alike d d
  | battery (d : Battery Double) {setpoints setpoints' : Array Double}
      (h : List.Forall₂ Similar setpoints.toList setpoints'.toList) :
      Alike (.battery (d.withSetpoints setpoints)) (.battery (d.withSetpoints setpoints'))

theorem Alike.step {p q : Device Double} (h : Alike p q) (x : StepInput Double) (out : FlowMap Double) :
    (p.step x out).1 = (q.step x out).1 ∧ Alike (p.step x out).2 (q.step x out).2 := by
  cases h with
  | refl d => exact ⟨rfl, .refl _⟩
  | battery d h =>
    have hsame := d.applySetpoint_similar (d.setpointAt_similar h x)
    simp only [Device.step, Battery.step_withSetpoints, hsame]
    exact ⟨trivial, .battery _ h⟩

theorem Alike.start {p q : Device Double} (h : Alike p q) (settings : RunSettings) :
    Alike (p.start settings) (q.start settings) := by
  cases h with
  | refl d => exact .refl _
  | battery d h => exact .battery (d.start settings) h

/-- **No run tells devices apart that are alike.** -/
theorem alike_inseparable :
    Part.Inseparable (fun _ (p q : Device Double) => Alike p q) (fun _ (_ : FlowMap Double) => True) where
  publish h x out := (h.step x out).1
  sent _ _ _ := trivial
  step h x out := (h.step x out).2
  cost h := by cases h <;> rfl

/-- True of a device whose power limits, if it has any that a schedule is scaled by, are finite. -/
def FinitelyLimited (d : Device Double) : Prop :=
  match d with
  | .battery d => Scalar.isFinite d.maxChargeW = true ∧ Scalar.isFinite d.maxDischargeW = true
  | _ => True

theorem numberCount_le (d : Device Double) : d.numberCount ≤ d.bitCount := by
  cases d <;> simp only [bitCount, le_refl]
  omega

theorem bitCount_eq_zero_iff (d : Device Double) : d.bitCount = 0 ↔ d.numberCount = 0 := by
  cases d <;> simp only [bitCount]
  omega

/-- A device is given as many numbers as it asks for. -/
theorem toNat_ownedCount_real (d : Device Double) : (Layout.ownedCount .real d).toNat = d.numberCount := by
  cases d with
  | baseLoad d =>
    cases hd : d.isStatic <;>
      simp [Layout.ownedCount, Part.isStatic, Part.variableCount, isStatic, hd, numberCount, variableCount]
  | battery d =>
    show (if d.mode = .scheduled then d.timing.steps else 0).toNat = if _ then _ else _
    split <;> rfl
  | _ => rfl

/-- A device is given as many bits as it asks for, as long as they can be counted in a word. -/
theorem toNat_ownedCount_binary {d : Device Double} (h : d.bitCount < UInt64.size) :
    (Layout.ownedCount .binary d).toNat = d.bitCount := by
  cases d with
  | battery d =>
    show (if d.mode = .scheduled then 2 * d.timing.steps else 0).toNat = 2 * (if _ then _ else _)
    change 2 * (if _ then _ else _) < _ at h
    split_ifs at h ⊢
    · rw [UInt64.toNat_mul]
      exact Nat.mod_eq_of_lt h
    · rfl
  | _ => exact toNat_ownedCount_real _

/-- A piece in numbers is as long as the device asks for. -/
theorem suits_inNumbers {d : Device Double} (h : d.bitCount < UInt64.size) {piece : Solution Double}
    (hpiece : Layout.Suits .binary d piece) : Layout.Suits .real d (d.inNumbers piece) := by
  obtain ⟨hencoding, hsize⟩ := hpiece
  rw [toNat_ownedCount_binary h] at hsize
  match piece, hencoding with
  | .binary bits, _ =>
    have hlength : bits.toList.length = d.bitCount := hsize
    have hcount := toNat_ownedCount_real d
    cases d with
    | battery d =>
      refine ⟨rfl, Eq.trans ?_ hcount.symm⟩
      have hhalf : bits.toList.length / 2 = numberCount (.battery d) := by
        rw [hlength, bitCount]
        omega
      exact (length_numbersOfPairs _).trans hhalf
    | _ => exact ⟨rfl, ((List.length_map _).trans hlength).trans hcount.symm⟩

theorem flags_numberOfBit (bits : Array Bool) :
    (Solution.real (bits.toList.map numberOfBit).toArray : Solution Double).flags = bits := by
  have hread : ∀ on : Bool, decide ((0.5 : Double) ≤ numberOfBit on) = on := by decide
  refine Array.toList_inj.mp ?_
  simp only [Solution.flags, List.map_toArray, List.map_map]
  exact (List.map_congr_left fun on _ => hread on).trans (List.map_id _)

/-- **A device that is handed a piece of bits and one that is handed the piece in numbers are alike.** -/
theorem served_alike {d : Device Double} (hlimits : d.FinitelyLimited) (h : d.bitCount < UInt64.size)
    {piece : Solution Double} (hpiece : Layout.Suits .binary d piece) :
    Alike (Layout.served .binary d piece) (Layout.served .real d (d.inNumbers piece)) := by
  have hsize : piece.size = d.bitCount := hpiece.2.trans (toNat_ownedCount_binary h)
  have hempty : Layout.ownedCount .real d = 0 ↔ Layout.ownedCount .binary d = 0 := by
    rw [← UInt64.toNat_inj, ← UInt64.toNat_inj, toNat_ownedCount_real, toNat_ownedCount_binary h]
    exact (bitCount_eq_zero_iff d).symm
  unfold Layout.served
  by_cases hnone : Layout.ownedCount .binary d = 0
  · rw [if_pos hnone, if_pos (hempty.mpr hnone)]
    exact .refl _
  · rw [if_neg hnone, if_neg (mt hempty.mp hnone)]
    match piece, hpiece.1, hsize with
    | .binary bits, _, hsize =>
      cases d with
      | battery d =>
        have heven : bits.toList.length % 2 = 0 := by
          rw [show bits.toList.length = 2 * numberCount (.battery d) from hsize]
          omega
        have hset : List.Forall₂ Similar (d.bitSetpoints bits.toList).toArray.toList
            ((numbersOfPairs bits.toList).toArray.map d.realSetpoint).toList := by
          simpa using Battery.bitSetpoints_similar hlimits.1 hlimits.2 bits.toList heven
        exact .battery d hset
      | evCharger d =>
        have hflags : (Device.inNumbers (.evCharger d) (.binary bits)).flags = bits := flags_numberOfBit bits
        show Alike (.evCharger { d with enabled := bits }) (.evCharger { d with enabled := _ })
        rw [hflags]
        exact .refl _
      | chp d =>
        have hflags : (Device.inNumbers (.chp d) (.binary bits)).flags = bits := flags_numberOfBit bits
        show Alike (.chp { d with forced := bits }) (.chp { d with forced := _ })
        rw [hflags]
        exact .refl _
      | _ => exact .refl _

end Device

/-! ### Evaluations -/

section Evaluations

variable {parts : List (Device Double)} {grids : List (Grid Double)} {m : Problem (Device Double) Double}
  {e : Evaluator (Device Double) Double} {n : Nat}

open Layout (Suits totalCount)

theorem forall₂_suits_inNumbers (hcounts : ∀ d ∈ parts, d.bitCount < UInt64.size)
    {pieces : List (Solution Double)} (h : List.Forall₂ (Suits .binary) parts pieces) :
    List.Forall₂ (Suits .real) parts (List.zipWith Device.inNumbers parts pieces) := by
  induction h with
  | nil => exact .nil
  | cons hpiece _ ih =>
    obtain ⟨hd, hcounts⟩ := List.forall_mem_cons.mp hcounts
    exact .cons (Device.suits_inNumbers hd hpiece) (ih hcounts)

theorem totalCount_binary_eq (hcounts : ∀ d ∈ parts, d.bitCount < UInt64.size) :
    totalCount .binary parts = (parts.map Device.bitCount).sum :=
  congrArg List.sum (List.map_congr_left fun d hd => Device.toNat_ownedCount_binary (hcounts d hd))

theorem totalCount_real_le (parts : List (Device Double)) :
    totalCount .real parts ≤ (parts.map Device.bitCount).sum :=
  List.sum_le_sum fun d _ => (Device.toNat_ownedCount_real d).trans_le d.numberCount_le

theorem cut_binary {bits : Array Bool} (hsize : bits.size = totalCount .binary parts)
    (hcount : totalCount .binary parts < UInt64.size) :
    let pieces : List (Solution Double) := (Layout.ofParts parts).cut (.binary bits)
    List.Forall₂ (Suits .binary) parts pieces ∧ Solution.joined .binary pieces = .binary bits :=
  ⟨Layout.suits_cut (s := .binary bits) hsize hcount, Layout.joined_cut (s := .binary bits) hsize hcount⟩

/-- Evaluations of a solution in bits and in numbers start from frames of alike parts. -/
theorem startOf_inNumbers (hnew : Problem.new parts grids = .ok m) (he : e.Serves m n)
    (hlimits : ∀ d ∈ parts, d.FinitelyLimited) (hcounts : ∀ d ∈ parts, d.bitCount < UInt64.size)
    {bits : Array Bool} (hsize : bits.size = totalCount .binary parts)
    (hcount : (parts.map Device.bitCount).sum < UInt64.size) (flags : EvaluationFlags) :
    Frame.Matches m.wiring (fun i => i) (fun _ => Device.Alike) (e.startOf m (.binary bits) flags)
      (e.startOf m ((Layout.ofParts parts).inNumbers parts (.binary bits)) flags) := by
  have hbinary : totalCount .binary parts < UInt64.size := by rwa [totalCount_binary_eq hcounts]
  have hreal : totalCount .real parts < UInt64.size := (totalCount_real_le parts).trans_lt hcount
  obtain ⟨hsuits, hjoined⟩ := cut_binary hsize hbinary
  refine Problem.startOf_matches hnew hnew (Problem.relocates_refl grids parts) he he ⟨rfl, rfl, rfl⟩ ?_
  intro i d hd _
  have hmem := List.mem_of_getElem? hd
  obtain ⟨piece, hpiece⟩ : ∃ piece, ((Layout.ofParts parts).cut (.binary bits))[i]? = some piece :=
    ⟨_, List.getElem?_eq_getElem (hsuits.length_eq ▸ (List.getElem?_eq_some_iff.mp hd).1)⟩
  have hserved := Layout.handOut_joined hsuits hbinary hd hpiece
  rw [hjoined] at hserved
  have hpiece' : (List.zipWith Device.inNumbers parts
      ((Layout.ofParts parts).cut (.binary bits)))[i]? = some (d.inNumbers piece) := by
    rw [List.getElem?_zipWith, hd, hpiece]
  have hserved' := Layout.handOut_joined (forall₂_suits_inNumbers hcounts hsuits) hreal hd hpiece'
  have hsuit := Layout.suits_of_getElem? hsuits hd hpiece
  exact ⟨_, _, hserved, hserved', (Device.served_alike (hlimits d hmem) (hcounts d hmem) hsuit).start _⟩

/-- **Evaluations of a solution in bits and in numbers have one result.** -/
theorem runOn_inNumbers (hnew : Problem.new parts grids = .ok m) (he : e.Serves m n)
    (hlimits : ∀ d ∈ parts, d.FinitelyLimited) (hcounts : ∀ d ∈ parts, d.bitCount < UInt64.size)
    {bits : Array Bool} (hsize : bits.size = totalCount .binary parts)
    (hcount : (parts.map Device.bitCount).sum < UInt64.size) (flags : EvaluationFlags)
    (recording? recording?' : Option (Recording Double)) :
    (e.runOn m ((Layout.ofParts parts).inNumbers parts (.binary bits)) flags recording?').result
      = (e.runOn m (.binary bits) flags recording?).result := by
  have hbinary : totalCount .binary parts < UInt64.size := by rwa [totalCount_binary_eq hcounts]
  have hreal : totalCount .real parts < UInt64.size := (totalCount_real_le parts).trans_lt hcount
  obtain ⟨hsuits, hjoined⟩ := cut_binary hsize hbinary
  have hparts : m.parts = parts.toArray := by rw [Problem.new_eq_ok hnew]
  have haccepts : e.layout.Accepts (.binary bits : Solution Double) := by
    rw [he.layout, hparts, ← hjoined]
    exact Layout.accepts_joined hsuits hbinary
  have haccepts' : e.layout.Accepts ((Layout.ofParts parts).inNumbers parts (.binary bits)) := by
    rw [he.layout, hparts]
    exact Layout.accepts_joined (forall₂_suits_inNumbers hcounts hsuits) hreal
  have hmirrors := Problem.mirrors_of_strictMono hnew hnew (Problem.relocates_refl grids parts) strictMono_id
  refine Evaluator.runOn_matches he he ⟨rfl, rfl, rfl⟩ Device.alike_inseparable hmirrors flags
    (startOf_inNumbers hnew he hlimits hcounts hsize hcount flags) (fun cost total => ?_) haccepts haccepts'
    recording? recording?'
  rw [List.map_id']

end Evaluations

/-! ### Numbers read as bits -/

section Switches

variable {α : Type} [Transcendental α]

/-- True of a battery that follows a schedule, the one device that reads more than switches. -/
def Device.isScheduled : Device α → Bool
  | .battery d => decide (d.mode = .scheduled)
  | _ => false

def Solution.switches (s : Solution α) : Solution α :=
  .binary s.flags

@[simp] theorem Solution.size_switches (s : Solution α) : s.switches.size = s.size := by
  cases s with
  | binary bits => rfl
  | real values => exact Array.size_map ..

theorem Solution.piece_switches (s : Solution α) (r : Share) :
    s.switches.piece r = (s.piece r).switches := by
  cases s with
  | binary bits => rfl
  | real values => simp [switches, flags, piece, Array.map_extract]

/-- Only a schedule is of different lengths in bits and in numbers. -/
theorem Device.ownedCount_eq {d : Device α} (h : d.isScheduled = false) (e e' : Encoding) :
    Layout.ownedCount e d = Layout.ownedCount e' d := by
  cases d with
  | battery d =>
    have hmode : d.mode ≠ .scheduled := by simpa [isScheduled] using h
    cases e <;> cases e' <;>
      simp [Layout.ownedCount, Part.isStatic, isStatic, Part.variableCount, variableCount,
        Battery.variableCount, hmode]
  | _ => rfl

/-- Only a schedule is more than switches. -/
theorem Device.withSolution_switches {d : Device α} (h : ∀ b, d ≠ .battery b) (s : Solution α) :
    d.withSolution s.switches = d.withSolution s := by
  cases d with
  | battery b => exact absurd rfl (h b)
  | _ => rfl

variable {parts : List (Device α)}

theorem Layout.map_ownedCount_eq (h : ∀ d ∈ parts, d.isScheduled = false) (e e' : Encoding) :
    parts.map (ownedCount e) = parts.map (ownedCount e') :=
  List.map_congr_left fun d hd => Device.ownedCount_eq (h d hd) e e'

/-- A battery without a schedule owns an empty range. -/
theorem Layout.handed_switches {s : Solution α} {d : Device α} (h : d.isScheduled = false) {r : Share}
    (hr : r.stop = r.start + ownedCount s.encoding d) : handed s.switches d r = handed s d r := by
  unfold handed
  by_cases hempty : r.isEmpty = true
  · rw [if_pos hempty, if_pos hempty]
  · rw [if_neg hempty, if_neg hempty, Solution.piece_switches]
    refine Device.withSolution_switches ?_ _
    rintro b rfl
    have hmode : b.mode ≠ .scheduled := by simpa [Device.isScheduled] using h
    have hnone : ownedCount s.encoding (Device.battery b) = 0 := by
      cases s.encoding <;>
        simp [ownedCount, Part.isStatic, Device.isStatic, Part.variableCount, Device.variableCount,
          Battery.variableCount, hmode]
    rw [hnone, UInt64.add_zero] at hr
    exact hempty (by simp [Share.isEmpty, hr])

/-- **Numbers are handed out as the switches they are read as**, if there is no schedule. -/
theorem Layout.distribute_switches (h : ∀ d ∈ parts, d.isScheduled = false) (s : Solution α) :
    (ofParts parts).distribute s.switches parts.toArray
      = (ofParts parts).distribute s parts.toArray := by
  have hcounts := map_ownedCount_eq h .binary s.encoding
  have hwidth : (ofParts parts).width s.switches.encoding = (ofParts parts).width s.encoding := by
    rw [width_ofParts, width_ofParts]
    exact congrArg (fun counts => (tile 0 counts).2) hcounts
  have hshares : (ofParts parts).shares s.switches.encoding = (ofParts parts).shares s.encoding := by
    rw [shares_ofParts, shares_ofParts]
    exact congrArg (fun counts => (tile 0 counts).1.toArray) hcounts
  have haccepts : (ofParts parts).Accepts s.switches ↔ (ofParts parts).Accepts s := by
    rw [Accepts, Accepts, hwidth, hshares, Solution.size_switches]
  have hrefusal : (ofParts parts).refusal s.switches = (ofParts parts).refusal s := by
    rw [refusal, refusal, hwidth, Solution.size_switches]
  have hout : (ofParts parts).handOut s.switches parts.toArray
      = (ofParts parts).handOut s parts.toArray := by
    apply Array.ext_getElem?
    intro i
    simp only [handOut, Array.getElem?_mapIdx, hshares, List.getElem?_toArray]
    cases hd : parts[i]? with
    | none => rfl
    | some d =>
      rw [shares_ofParts, List.getElem?_toArray]
      cases hr : (tile 0 (parts.map (ownedCount s.encoding))).1[i]? with
      | none => rfl
      | some r =>
        have hstop := stop_tile hr (by rw [List.getElem?_map, hd]; rfl)
        exact congrArg some (handed_switches (h d (List.mem_of_getElem? hd)) hstop)
  rw [distribute_eq (by simp [shares_ofParts]), distribute_eq (by simp [shares_ofParts]), hout, hrefusal]
  simp only [haccepts]

/-- An evaluation knows a solution through what it hands out. -/
theorem Evaluator.runOn_congr {e : Evaluator (Device α) α} {m : Problem (Device α) α} {s s' : Solution α}
    (h : e.layout.distribute s' m.parts = e.layout.distribute s m.parts) (flags : EvaluationFlags)
    (recording? : Option (Recording α)) :
    e.runOn m s' flags recording? = e.runOn m s flags recording? := by
  have hparts : m.clearExchange.parts = m.parts := rfl
  simp only [runOn, hparts, h]

end Switches

/-- **Numbers say all that bits say.** Let the power limits of the batteries be finite. Then any bits, as many as the
devices ask for, can be said in numbers piece by piece: the numbers are as many as the layout wants, and the result of
the evaluation is the same, although numbers are rounded. Conversely, where no battery follows a schedule, any numbers
can be said in bits: a set bit for at least one half. -/
theorem real_encoding_subsumes_binary {plan : Plan (Device Double) Double}
    {problem : Problem (Device Double) Double} {fresh : Evaluator (Device Double) Double}
    (hplan : plan.evaluator = .ok (problem, fresh)) :
    ((∀ d ∈ plan.parts, d.FinitelyLimited) →
      ∀ bits : Array Bool, (Solution.binary bits : Solution Double).Storable →
        bits.size = (plan.parts.map Device.bitCount).sum →
        let s : Solution Double := .binary bits
        let s' := fresh.layout.inNumbers plan.parts s
        s.size = (fresh.layout.width .binary).toNat ∧
        s'.encoding = .real ∧ s'.size = (fresh.layout.width .real).toNat ∧
        ∀ flags recording?, (fresh.run s' flags recording?).1 = (fresh.run s flags recording?).1) ∧
    ((∀ d ∈ plan.parts, d.isScheduled = false) →
      fresh.layout.width .binary = fresh.layout.width .real ∧
      ∀ (values : Array Double) (flags : EvaluationFlags) (recording? : Option (Recording Double)),
        (fresh.run (.binary (values.map fun v => decide (0.5 ≤ v))) flags recording?).1
          = (fresh.run (.real values) flags recording?).1) := by
  obtain ⟨hnew, hfresh⟩ := Plan.evaluator_eq_ok hplan
  have hlayout : fresh.layout = .ofParts plan.parts := by rw [hfresh]
  have hparts : problem.parts = plan.parts.toArray := by rw [Problem.new_eq_ok hnew]
  have hserves := Plan.serves hplan
  constructor
  · intro hlimits bits hstorable hwidth s s'
    have hsum : (plan.parts.map Device.bitCount).sum < UInt64.size := by
      have hbytes : bits.size * 1 ≤ 2 ^ 63 - 1 := hstorable
      rw [← hwidth, UInt64.size]
      omega
    have hcounts : ∀ d ∈ plan.parts, d.bitCount < UInt64.size := fun d hd =>
      (List.le_sum_of_mem (List.mem_map_of_mem hd)).trans_lt hsum
    have hbinary : bits.size = Layout.totalCount .binary plan.parts := by
      rw [hwidth, totalCount_binary_eq hcounts]
    have hreal := (totalCount_real_le plan.parts).trans_lt hsum
    have hsuits := forall₂_suits_inNumbers hcounts
      (Layout.suits_cut (s := .binary bits) hbinary (hbinary ▸ hwidth ▸ hsum))
    refine ⟨?_, ?_, ?_, fun flags recording? => ?_⟩
    · rw [hlayout, Layout.toNat_width (by rwa [totalCount_binary_eq hcounts])]
      exact hbinary
    · exact Solution.encoding_joined ..
    · rw [hlayout, Layout.toNat_width hreal, ← Layout.size_joined_of_suits hsuits]
      simp only [s', s, hlayout]
      rfl
    · rw [(Plan.run_fresh hplan s flags recording?).1, (Plan.run_fresh hplan s' flags recording?).1]
      simp only [s', s, hlayout]
      exact runOn_inNumbers hnew hserves hlimits hcounts hbinary hsum flags recording? recording?
  · intro hunscheduled
    refine ⟨?_, fun values flags recording? => ?_⟩
    · rw [hlayout, Layout.width_ofParts, Layout.width_ofParts,
        Layout.map_ownedCount_eq hunscheduled .binary .real]
    · have hdistribute := Layout.distribute_switches hunscheduled (.real values)
      rw [← hlayout, ← hparts] at hdistribute
      rw [(Plan.run_fresh hplan _ flags recording?).1, (Plan.run_fresh hplan _ flags recording?).1]
      exact congrArg (fun answer => answer.result) (Evaluator.runOn_congr hdistribute flags recording?)

theorem Household.map_bitCount :
    (Household.devices Double).map Device.bitCount = [0, 0, 8, 2, 4, 0, 0, 0] := by
  have hchp : (Chp.new (α := Double) (deviceId 5) 0 2700 900).timing.steps = 4 := steps_timing _
  have hsession : ({ arrivalStep := 1, deadlineStep := 3, energyWh := 1500 } :
      EvSession Double).dwellSteps = 2 := by
    show (3 : UInt64) - 1 = 2
    decide
  simp [devices, Device.bitCount, Device.numberCount, Device.variableCount, steps_timing, hchp, hsession]

/-- The household charges, discharges and idles in bits and in numbers alike, and without its battery reads all numbers
as bits. -/
theorem real_encoding_subsumes_binary_household :
    let plan := household Double .dominance
    let rest : Plan (Device Double) Double := { plan with parts := plan.parts.eraseIdx 2 }
    let bits := #[false, true, true, false, false, false, true, true, true, false, true, false, true, false]
    (∀ d ∈ plan.parts, d.FinitelyLimited) ∧ (Solution.binary bits : Solution Double).Storable ∧
    bits.size = (plan.parts.map Device.bitCount).sum ∧ (∀ d ∈ rest.parts, d.isScheduled = false) ∧
    (∃ problem fresh, plan.evaluator = .ok (problem, fresh) ∧
      let s' := fresh.layout.inNumbers plan.parts (.binary bits)
      s'.size = (fresh.layout.width .real).toNat ∧
      ∀ flags recording?, (fresh.run s' flags recording?).1 = (fresh.run (.binary bits) flags recording?).1) ∧
    ∃ problem fresh, rest.evaluator = .ok (problem, fresh) ∧
      ∀ (values : Array Double) flags recording?,
        (fresh.run (.binary (values.map fun v => decide (0.5 ≤ v))) flags recording?).1
          = (fresh.run (.real values) flags recording?).1 := by
  intro plan rest bits
  obtain ⟨problem, fresh, hplan⟩ := household_evaluator Double .dominance
  have hcollision := (Plan.exists_evaluator_iff.mp ⟨problem, fresh, hplan⟩).2
  obtain ⟨problem', fresh', hrest⟩ : ∃ problem fresh, rest.evaluator = .ok (problem, fresh) :=
    Plan.exists_evaluator_iff.mpr ⟨by simp [rest, plan, household, Household.devices], hcollision⟩
  have hlimits : ∀ d ∈ plan.parts, d.FinitelyLimited := by
    simp only [plan, household, Household.devices, List.forall_mem_cons, List.not_mem_nil, false_implies,
      implies_true, and_true, true_and, Device.FinitelyLimited]
    exact ⟨rfl, rfl⟩
  have hstorable : (Solution.binary bits : Solution Double).Storable := by
    unfold Solution.Storable
    decide
  have hwidth : bits.size = (plan.parts.map Device.bitCount).sum :=
    (congrArg List.sum Household.map_bitCount).symm
  have hunscheduled : ∀ d ∈ rest.parts, d.isScheduled = false := by
    simp [rest, plan, household, Household.devices, Device.isScheduled]
  obtain ⟨-, -, hsize, hrun⟩ := (real_encoding_subsumes_binary hplan).1 hlimits bits hstorable hwidth
  obtain ⟨-, hrun'⟩ := (real_encoding_subsumes_binary hrest).2 hunscheduled
  exact ⟨hlimits, hstorable, hwidth, hunscheduled, ⟨problem, fresh, hplan, hsize, hrun⟩,
    problem', fresh', hrest, hrun'⟩

end HomeEnergy

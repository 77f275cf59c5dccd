import HomeEnergy.Proofs.Course
import HomeEnergy.Proofs.Ticks

/-!
# What a recording holds

A recording is written at four places of an evaluation: it is emptied at the start, and it takes the meter state of
a tick, the outputs of the parts in a tick, and the terminal costs in the end. This module puts the pieces
together.

* `Schedule.extend`, `Wiring.published` — the schedule of a part is what it publishes in the frames.
* `Evaluator.recordingOf_eq` — **a recording is read off the frames**, whatever it held before.
* `Evaluator.samples_profileOf` — the load profile holds the same ticks and meter states.
-/

namespace HomeEnergy

/-! ### Schedules -/

section Schedules

variable {α : Type} [Scalar α]

/-- A schedule with some more ticks. -/
def Schedule.extend (s : Schedule α) (xs : List (UInt64 × FlowMap α)) : Schedule α :=
  { s with
    ticks := s.ticks ++ (xs.map fun x => x.1).toArray
    series := s.series.map fun r =>
      { r with
        powers := r.powers ++ (xs.map fun x => x.2.power r.commodity).toArray
        temperatures := r.temperatures ++ (xs.map fun x => x.2.temperature? r.commodity).toArray } }

theorem Schedule.foldl_push (s : Schedule α) (xs : List (UInt64 × FlowMap α)) :
    xs.foldl (fun s x => s.push x.1 x.2) s = s.extend xs := by
  induction xs generalizing s with
  | nil => simp [extend]
  | cons x xs ih =>
    rw [List.foldl_cons, ih]
    simp [extend, push, Function.comp_def]

namespace Recording

/-- Writing outputs down, said for every schedule. -/
theorem pushOutputs_eq (tick : UInt64) (outputs : Array (FlowMap α)) {indices : List Nat}
    (hnodup : indices.Nodup) (hlt : ∀ i ∈ indices, i < outputs.size) (r : Recording α) :
    r.pushOutputs tick outputs indices
      = { r with schedules := r.schedules.mapIdx fun i s? =>
            if i ∈ indices then s?.map fun s => s.push tick (outputs.getD i .unrestricted) else s? } := by
  have hfold : ∀ (is : List Nat), (∀ i ∈ is, i < outputs.size) → ∀ r : Recording α,
      r.pushOutputs tick outputs is
        = { r with schedules := is.foldl (fun ss i => ss.modify i fun s? =>
              s?.map fun s => s.push tick (outputs.getD i .unrestricted)) r.schedules } := by
    intro is
    induction is with
    | nil => intro _ r; rfl
    | cons i is ih =>
      intro hlt r
      have hout : outputs[i]? = some (outputs.getD i .unrestricted) := by
        simp [Array.getD, hlt i (by simp)]
      have hrest := ih (fun j hj => hlt j (by simp [hj]))
        (r.pushOutput i tick (outputs.getD i .unrestricted))
      rw [pushOutputs, List.foldl_cons, hout]
      exact hrest
  have hmodify := foldl_modify_eq
    (fun i (s? : Option (Schedule α)) => s?.map fun s => s.push tick (outputs.getD i .unrestricted))
    indices hnodup r.schedules
  rw [hfold indices hlt, hmodify]

end Recording

end Schedules

/-! ### The recording of a run -/

namespace Wiring

variable {P α : Type} [Scalar α] {w : Wiring α} {n : Nat}

omit [Scalar α] in
def HasMaps (f : Frame P α) (n : Nat) : Prop :=
  f.activeOutputs.size = n ∧ f.passiveOutputs.size = n

def published (w : Wiring α) (f : Frame P α) (i : Nat) : FlowMap α :=
  if i ∈ w.active then f.activeOutputs.getD i .unrestricted
  else f.passiveOutputs.getD i .unrestricted

/-- Writing a frame down, said for every schedule. -/
theorem record_eq (hw : w.Sound n) (r : Recording α) (t : UInt64) {f : Frame P α} (hf : HasMaps f n) :
    w.record r (t, f)
      = { samples := r.samples.push (t, f.meter)
          schedules := r.schedules.mapIdx fun i s? =>
            if i ∈ w.taking then s?.map fun s => s.push t (w.published f i) else s? } := by
  have hactive := Recording.pushOutputs_eq t f.activeOutputs hw.active_nodup
    (by rw [hf.1]; exact hw.active_lt) (r.pushMeter t f.meter)
  have hpassive := Recording.pushOutputs_eq t f.passiveOutputs hw.passive_nodup
    (by rw [hf.2]; exact hw.passive_lt)
    ((r.pushMeter t f.meter).pushOutputs t f.activeOutputs w.active)
  rw [record, hpassive, hactive]
  simp only [Recording.pushMeter, Array.mapIdx_mapIdx, Recording.mk.injEq, true_and]
  congr 1
  funext i s?
  simp only [Function.comp_apply, published]
  by_cases ha : i ∈ w.active
  · simp [ha, hw.disjoint i ha, hw.active_taking i ha]
  · by_cases hp : i ∈ w.passive
    · simp [ha, hp, hw.passive_taking i hp]
    · have ht : i ∉ w.taking := fun ht => (hw.taking_role i ht).elim ha hp
      simp [ha, hp, ht]

variable [Part P α]

theorem hasMaps_of_mem_frames (ts : List UInt64) {f : Frame P α} (hf : HasMaps f n) :
    ∀ x ∈ w.frames f ts, HasMaps x.2 n := by
  induction ts generalizing f with
  | nil => intro x hx; exact absurd hx (by simp [frames])
  | cons t ts ih =>
    have hnext : HasMaps (w.next f t) n := by simpa [HasMaps, next] using hf
    intro x hx
    rcases List.mem_cons.mp hx with rfl | hx
    · exact hnext
    · exact ih hnext x hx

theorem map_fst_frames (ts : List UInt64) (f : Frame P α) :
    (w.frames f ts).map (fun x => x.1) = ts := by
  induction ts generalizing f with
  | nil => rfl
  | cons t ts ih => simp only [frames, List.map_cons, ih]

omit [Part P α] in
/-- Writing frames down one after the other. -/
theorem foldl_record (hw : w.Sound n) :
    ∀ (xs : List (UInt64 × Frame P α)), (∀ x ∈ xs, HasMaps x.2 n) → ∀ r : Recording α,
      xs.foldl w.record r
        = { samples := r.samples ++ (xs.map fun x => (x.1, x.2.meter)).toArray
            schedules := r.schedules.mapIdx fun i s? =>
              if i ∈ w.taking then
                s?.map fun s => s.extend (xs.map fun x => (x.1, w.published x.2 i))
              else s? } := by
  intro xs
  induction xs with
  | nil =>
    intro _ r
    have hschedules : (r.schedules.mapIdx fun i s? =>
        if i ∈ w.taking then s?.map fun s => s.extend [] else s?) = r.schedules := by
      apply Array.ext <;> simp [Schedule.extend]
    simp only [List.foldl_nil, List.map_nil, hschedules]
    simp
  | cons x xs ih =>
    intro hmaps r
    rw [List.foldl_cons, ih (fun y hy => hmaps y (by simp [hy])),
      record_eq hw r x.1 (hmaps x (by simp))]
    simp only [Array.mapIdx_mapIdx, Recording.mk.injEq]
    refine ⟨by simp, ?_⟩
    congr 1
    funext i s?
    by_cases ht : i ∈ w.taking
    · simp only [Function.comp_apply, if_pos ht, Option.map_map]
      congr 1
      funext s
      simp only [Function.comp_apply, ← Schedule.foldl_push, List.map_cons, List.foldl_cons]
    · simp only [Function.comp_apply, if_neg ht]

end Wiring

namespace Evaluator

variable {P α : Type} [Scalar α] [Part P α] {e : Evaluator P α} {w : Wiring α} {f : Frame P α} {n : Nat}

/-- The schedule of a part: what it publishes in the frames, and its terminal cost. -/
def scheduleOf (e : Evaluator P α) (w : Wiring α) (f : Frame P α) (i : Nat) (p : P) : Schedule α :=
  { (Schedule.new (Part.device p) (Part.kind p) (Part.outputs p) : Schedule α).extend
      ((e.frames w f).map fun x => (x.1, w.published x.2 i)) with
    terminalCost := Run.cost (e.ended w f).parts i }

/-- **A recording is read off the frames**, whatever it held before. -/
theorem recordingOf_eq (hw : w.Sound n) (hf : Wiring.HasMaps f n)
    (htaking : ∀ (i : Nat) (p : P), f.parts[i]? = some p → (i ∈ w.taking ↔ Part.isStatic p = false))
    (r : Recording α) :
    e.recordingOf w f r
      = { samples := ((e.frames w f).map fun x => (x.1, x.2.meter)).toArray
          schedules := f.parts.mapIdx fun i p =>
            if Part.isStatic p then none else some (e.scheduleOf w f i p) } := by
  have hbegun : Wiring.HasMaps (e.begun w f) n := by
    simpa [begun, Wiring.first, Wiring.HasMaps] using hf
  have hframes := Wiring.foldl_record hw (e.frames w f)
    (Wiring.hasMaps_of_mem_frames e.window.clock.ticks hbegun) (r.begin f.parts.toList)
  have hcosts : ∀ (indices : List Nat) (r : Recording α),
      Run.recordCosts (e.ended w f).parts indices r
        = { r with
            schedules := indices.foldl
              (fun ss i => ss.modify i fun s? =>
                s?.map fun s => { s with terminalCost := Run.cost (e.ended w f).parts i })
              r.schedules } := by
    intro indices
    induction indices with
    | nil => intro r; rfl
    | cons i indices ih => intro r; exact ih _
  have hmodify := foldl_modify_eq
    (fun i (s? : Option (Schedule α)) =>
      s?.map fun s => { s with terminalCost := Run.cost (e.ended w f).parts i })
    w.taking hw.taking_nodup
  rw [recordingOf, hcosts, hframes, hmodify]
  simp only [Recording.begin, Array.mapIdx_mapIdx, Recording.mk.injEq]
  refine ⟨by simp, ?_⟩
  apply Array.ext_getElem?
  intro i
  simp only [Array.getElem?_mapIdx, List.getElem?_toArray, List.getElem?_map, Array.getElem?_toList]
  cases hp : f.parts[i]? with
  | none => rfl
  | some p =>
    have hi := htaking i p hp
    by_cases hstatic : Part.isStatic p = true
    · simp [hstatic]
    · have ht : i ∈ w.taking := hi.mpr (by simpa using hstatic)
      simp [hstatic, ht, scheduleOf]

/-- The load profile holds the ticks and meter states of the frames. -/
theorem samples_profileOf (e : Evaluator P α) (w : Wiring α) (f : Frame P α) :
    (e.profileOf w f).samples = (e.frames w f).map fun x => (x.1, x.2.meter) := by
  have hticks : (e.frames w f).map (fun x => x.1) = e.window.clock.ticks :=
    Wiring.map_fst_frames ..
  apply List.ext_getElem?
  intro i
  simp only [LoadProfile.samples, LoadProfile.size, profileOf, List.getElem?_map]
  by_cases hi : i < (e.frames w f).length
  · have htick := congrArg (fun ts => ts[i]?) hticks
    simp only [List.getElem?_map, List.getElem?_eq_getElem hi, Option.map_some] at htick
    have hstep := Clock.getElem?_ticks htick.symm
    simp [hi, LoadProfile.tickAt, Clock.tickAt, hstep, Window.clock]
  · simp [hi]

end Evaluator

end HomeEnergy

import HomeEnergy.Proofs.Balance
import HomeEnergy.Proofs.Pieces
import HomeEnergy.Proofs.StaticParts

/-!
# Parts in another order

The indices of the parts decide who owns which variables and in which order flows arrive. Of several temperatures the
last one stays, so the order shows where temperatures flow forward; powers arrive in any order if they are added up
exactly.

* `FlowMap.addPower_comm`, `ReducedRelations.arrive_perm` — **powers arrive in any order**.
* `rearranged`, `placeIn` — a list in another order, and where its entries are found there.
* `Problem.relocates_rearranged` — parts with identities of their own keep their roles and relations.
* `device_order_irrelevant` — **the order of the devices does not matter**.
-/

namespace HomeEnergy

/-! ### Powers in any order -/

section Powers

variable {α : Type} [Scalar α]

namespace FlowMap

def OnlyPowers (m : FlowMap α) : Prop :=
  m.temperatureSet = .empty

omit [Scalar α] in
theorem OnlyPowers.setPower {m : FlowMap α} (h : m.OnlyPowers) (c : Commodity) (x : α) :
    (m.setPower c x).OnlyPowers := by
  unfold FlowMap.setPower
  split <;> exact h

theorem onlyPowers_clear (m : FlowMap α) : m.clear.OnlyPowers := rfl

omit [Scalar α] in
theorem setPower_setPower (m : FlowMap α) (c : Commodity) (x y : α) :
    (m.setPower c x).setPower c y = m.setPower c y := by
  by_cases h : m.allows c = true
  · have h' : m.allowed.contains c = true := h
    simp [setPower, allows, h']
  · rw [setPower_of_not_allows h]

omit [Scalar α] in
theorem setPower_comm {c d : Commodity} (hcd : c ≠ d) (m : FlowMap α) (x y : α) :
    (m.setPower c x).setPower d y = (m.setPower d y).setPower c x := by
  by_cases hc : m.allows c = true <;> by_cases hd : m.allows d = true
  · have hc' : m.allowed.contains c = true := hc
    have hd' : m.allowed.contains d = true := hd
    simp only [setPower, allows, hc', hd', if_true, CommoditySet.insert_insert_comm m.powerSet c d]
    rw [Vector.set_comm _ _ (Commodity.index_val_ne hcd)]
  · have hd' : ¬ (m.setPower c x).allows d = true := by simpa using hd
    rw [setPower_of_not_allows hd, setPower_of_not_allows hd']
  · have hc' : ¬ (m.setPower d y).allows c = true := by simpa using hc
    rw [setPower_of_not_allows hc, setPower_of_not_allows hc']
  · simp only [setPower_of_not_allows hc, setPower_of_not_allows hd]

theorem power_setPower_of_ne {c d : Commodity} (hcd : c ≠ d) (m : FlowMap α) (x : α) :
    (m.setPower c x).power d = m.power d := by
  by_cases h : m.allows c = true
  · rw [power_setPower h, if_neg hcd]
  · rw [setPower_of_not_allows h]

variable [Scalar.Exact α]

theorem addPower_eq (m : FlowMap α) (c : Commodity) (x : α) :
    m.addPower c x = m.setPower c (m.power c + x) := by
  unfold addPower
  by_cases hcontains : m.containsPower c = true
  · simp [power, hcontains]
  · simp [power, hcontains, Scalar.Exact.zero_add]

/-- **In exact numbers powers can be added in any order.** A second power of a commodity is added to the first one,
so that the two can change places. -/
theorem addPower_comm (m : FlowMap α) (c d : Commodity) (x y : α) :
    (m.addPower c x).addPower d y = (m.addPower d y).addPower c x := by
  simp only [addPower_eq]
  by_cases hcd : c = d
  · subst hcd
    by_cases h : m.allows c = true
    · rw [power_setPower h, power_setPower h, if_pos rfl, if_pos rfl, setPower_setPower, setPower_setPower,
        Scalar.Exact.add_assoc, Scalar.Exact.add_comm x, Scalar.Exact.add_assoc]
    · simp only [setPower_of_not_allows h]
  · rw [power_setPower_of_ne hcd, power_setPower_of_ne (Ne.symm hcd), setPower_comm hcd]

end FlowMap

namespace ReducedRelations

theorem deliver_onlyPowers (wt : Bool) {source : FlowMap α} (h : source.OnlyPowers) (c : Commodity)
    (m : FlowMap α) : deliver wt source c m
      = if source.containsPower c then m.addPower c (source.power c) else m := by
  have hnone : source.temperature? c = none := by
    rw [FlowMap.temperature?, FlowMap.containsTemperature, show source.temperatureSet = .empty from h,
      CommoditySet.contains_empty]
    rfl
  simp only [deliver, hnone, ite_self]

variable [Scalar.Exact α]

theorem deliver_comm (wt : Bool) {source source' : FlowMap α} (h : source.OnlyPowers)
    (h' : source'.OnlyPowers) (c c' : Commodity) (m : FlowMap α) :
    deliver wt source' c' (deliver wt source c m) = deliver wt source c (deliver wt source' c' m) := by
  simp only [deliver_onlyPowers wt h, deliver_onlyPowers wt h']
  split_ifs
  · exact FlowMap.addPower_comm ..
  all_goals rfl

/-- **Powers arrive in any order.** -/
theorem arrive_perm (wt : Bool) {outputs : Array (FlowMap α)} {flows flows' : List Flow}
    (h : flows.Perm flows')
    (hpowers : ∀ f ∈ flows, (outputs.getD f.source .unrestricted).OnlyPowers) (t : Target)
    (m : FlowMap α) : arrive wt outputs flows t m = arrive wt outputs flows' t m := by
  refine h.foldl_eq' (fun f hf g hg m => ?_) m
  by_cases hft : f.target = t
  · by_cases hgt : g.target = t
    · simp only [if_pos hft, if_pos hgt]
      exact deliver_comm wt (hpowers f hf) (hpowers g hg) _ _ m
    · simp only [if_pos hft, if_neg hgt]
  · simp only [if_neg hft]

/-- **The same arrives everywhere**, at any places, if the active parts publish powers only. -/
theorem delivers_of_onlyPowers {place : Nat → Nat} {ps ps' : Participants} (hmoved : ps.Moved place ps')
    (hplace : Function.Injective place) {outputs outputs' : Array (FlowMap α)}
    (hsame : ∀ q ∈ ps.entries, outputs'.getD (place q.index) .unrestricted
      = outputs.getD q.index .unrestricted)
    (hpowers : ∀ q ∈ ps.entries, q.role = .active → (outputs.getD q.index .unrestricted).OnlyPowers)
    (g : Grid α) : g.Delivers place ps ps' outputs outputs' := by
  intro t m
  have hsource : ∀ f ∈ (build g.topology ps).forwardFlows,
      outputs'.getD (place f.source) .unrestricted = outputs.getD f.source .unrestricted := by
    intro f hf
    obtain ⟨⟨q, hq, -, hsource⟩, -⟩ := mem_forwardFlows_build hf
    rw [hsource]
    exact hsame q hq
  rw [← arrive_move _ hplace hsource t m]
  refine (arrive_perm _ (forwardFlows_moved_perm hmoved g.topology).symm ?_ _ m).symm
  intro _ hmem
  obtain ⟨f, hf, rfl⟩ := List.mem_map.mp hmem
  obtain ⟨⟨q, hq, hrole, hindex⟩, -⟩ := mem_forwardFlows_build hf
  show (outputs'.getD (place f.source) .unrestricted).OnlyPowers
  rw [hsource f hf, hindex]
  exact hpowers q hq hrole

end ReducedRelations

end Powers

/-! ### Lists in another order -/

section Lists

variable {β : Type} {order : List Nat}

/-- The entries of a list at the given indices, in that order. -/
def rearranged (order : List Nat) (xs : List β) : List β :=
  order.filterMap fun i => xs[i]?

/-- Where an entry is found after a rearrangement. -/
def placeIn (order : List Nat) (i : Nat) : Nat :=
  if i ∈ order then order.idxOf i else i

theorem getElem?_rearranged {xs : List β} (h : ∀ i ∈ order, i < xs.length) (k : Nat) :
    (rearranged order xs)[k]? = order[k]?.bind fun i => xs[i]? := by
  induction order generalizing k with
  | nil => rfl
  | cons i order ih =>
    have hlt : i < xs.length := h i (by simp)
    have hi : xs[i]? = some xs[i] := List.getElem?_eq_getElem hlt
    have hcons : rearranged (i :: order) xs = xs[i] :: rearranged order xs := by
      simp [rearranged, hi]
    cases k with
    | zero => simp [hcons, hi]
    | succ k => simpa [hcons] using ih (fun j hj => h j (by simp [hj])) k

theorem rearranged_forall₂ {γ : Type} {R : β → γ → Prop} {xs : List β} {ys : List γ}
    (h : List.Forall₂ R xs ys) (order : List Nat) :
    List.Forall₂ R (rearranged order xs) (rearranged order ys) := by
  induction order with
  | nil => exact .nil
  | cons i order ih =>
    simp only [rearranged, List.filterMap_cons]
    by_cases hi : i < xs.length
    · have hi' : i < ys.length := h.length_eq ▸ hi
      rw [List.getElem?_eq_getElem hi, List.getElem?_eq_getElem hi']
      exact .cons (h.get hi hi') ih
    · have hi' : ¬ i < ys.length := h.length_eq ▸ hi
      rw [List.getElem?_eq_none (Nat.le_of_not_lt hi), List.getElem?_eq_none (Nat.le_of_not_lt hi')]
      exact ih

variable {n : Nat}

theorem placeIn_injective (h : order.Perm (List.range n)) : Function.Injective (placeIn order) := by
  intro i j hij
  have hmem : ∀ k, k ∈ order ↔ k < n := fun k => h.mem_iff.trans List.mem_range
  have hplace : ∀ k, k ∈ order → order.idxOf k < n := fun k hk => by
    simpa [h.length_eq] using List.idxOf_lt_length_iff.mpr hk
  simp only [placeIn] at hij
  split_ifs at hij with hi hj hj
  · exact (List.idxOf_inj hi).mp hij
  · exact absurd ((hmem j).mpr (hij ▸ hplace i hi)) hj
  · exact absurd ((hmem i).mpr (hij ▸ hplace j hj)) hi
  · exact hij

/-- Nothing is lost in a rearrangement. -/
theorem rearranged_perm {xs : List β} (h : order.Perm (List.range xs.length)) :
    (rearranged order xs).Perm xs := by
  refine (h.filterMap _).trans (List.Perm.of_eq ?_)
  apply List.ext_getElem?
  intro k
  have hin : ∀ i ∈ List.range xs.length, i < xs.length := fun i hi => List.mem_range.mp hi
  have hrange := getElem?_rearranged hin k
  refine hrange.trans ?_
  by_cases hk : k < xs.length
  · simp [hk]
  · simp [hk]

theorem getElem?_rearranged_placeIn {xs : List β} (h : order.Perm (List.range xs.length)) {i : Nat}
    (hi : i < xs.length) : (rearranged order xs)[placeIn order i]? = xs[i]? := by
  have hmem : i ∈ order := h.mem_iff.mpr (List.mem_range.mpr hi)
  rw [getElem?_rearranged fun j hj => List.mem_range.mp (h.mem_iff.mp hj), placeIn, if_pos hmem,
    List.getElem?_idxOf hmem]
  rfl

/-- **Each entry is found at its place.** -/
theorem zipIdx_rearranged_perm {xs : List β} (h : order.Perm (List.range xs.length)) :
    (rearranged order xs).zipIdx.Perm (xs.zipIdx.map fun x => (x.1, placeIn order x.2)) := by
  have hnodup : (xs.zipIdx.map fun x => (x.1, placeIn order x.2)).Nodup := by
    have hindices : (xs.zipIdx.map fun x => x.2).Nodup := by
      rw [List.zipIdx_map_snd]
      exact List.nodup_range'
    have hplaces := hindices.map (placeIn_injective h)
    rw [List.map_map] at hplaces
    refine List.Nodup.of_map (fun x => x.2) ?_
    rwa [List.map_map]
  have hsubset : (xs.zipIdx.map fun x => (x.1, placeIn order x.2)) ⊆ (rearranged order xs).zipIdx := by
    intro _ hmem
    obtain ⟨x, hx, rfl⟩ := List.mem_map.mp hmem
    have hget := List.mem_zipIdx_iff_getElem?.mp hx
    refine List.mem_zipIdx_iff_getElem?.mpr ?_
    rw [getElem?_rearranged_placeIn h (List.getElem?_eq_some_iff.mp hget).1, hget]
  refine ((hnodup.subperm hsubset).perm_of_length_le ?_).symm
  simp [(rearranged_perm h).length_eq]

/-- Entries with keys of their own are the same for each key, in any order. -/
theorem filter_key_eq {κ : Type} [DecidableEq κ] {key : β → κ} {xs ys : List β} (h : xs.Perm ys)
    (hkeys : (ys.map key).Nodup) (k : κ) :
    xs.filter (fun x => key x == k) = ys.filter fun x => key x == k := by
  have hperm := h.filter fun x => key x == k
  have hsame : ∀ x ∈ ys.filter (fun x => key x == k), ∀ y ∈ ys.filter (fun x => key x == k), x = y := by
    intro x hx y hy
    obtain ⟨hx, hxk⟩ := List.mem_filter.mp hx
    obtain ⟨hy, hyk⟩ := List.mem_filter.mp hy
    exact List.inj_on_of_nodup_map hkeys hx hy ((beq_iff_eq.mp hxk).trans (beq_iff_eq.mp hyk).symm)
  have hnodup : (ys.filter fun x => key x == k).Nodup := (List.Nodup.of_map _ hkeys).filter _
  generalize ys.filter (fun x => key x == k) = mine at hperm hsame hnodup
  match mine with
  | [] => exact List.perm_nil.mp hperm
  | [x] => exact List.perm_singleton.mp hperm
  | x :: y :: rest =>
    have hxy := hsame x (by simp) y (by simp)
    exact absurd (hxy ▸ List.mem_cons_self) (List.nodup_cons.mp hnodup).1

end Lists

/-! ### Problems in another order -/

section Problems

variable {P α : Type} [Scalar α] [Part P α] {parts : List P} {grids : List (Grid α)} {order : List Nat}

namespace Problem

omit [Scalar α] in
theorem present_rearranged (h : order.Perm (List.range parts.length)) :
    (present (rearranged order parts)).Perm
      ((present parts).map fun x => (x.1, placeIn order x.2)) := by
  have hperm := (zipIdx_rearranged_perm h).filter fun x => !Part.isStatic x.1
  rw [List.filter_map] at hperm
  exact hperm

omit [Scalar α] in
theorem present_keys (hids : (parts.map Part.device).Nodup) :
    ((present parts).map fun x => Part.device x.1).Nodup := by
  have hzip : (parts.zipIdx.map fun x => Part.device x.1) = parts.map Part.device := by
    have hfst := congrArg (List.map Part.device) (List.zipIdx_map_fst 0 parts)
    rwa [List.map_map] at hfst
  exact hids.sublist (hzip ▸ (List.filter_sublist.map _))

omit [Scalar α] in
/-- **Parts with identities of their own keep their roles and relations** when they are put in another order. -/
theorem relocates_rearranged (h : order.Perm (List.range parts.length))
    (hids : (parts.map Part.device).Nodup) (grids : List (Grid α)) :
    Relocates grids (placeIn order) parts (rearranged order parts) where
  injective := placeIn_injective h
  get := by
    intro i p hp _
    rw [getElem?_rearranged_placeIn h (List.getElem?_eq_some_iff.mp hp).1, hp]
  moved := by
    intro d
    have hkeys : (((present parts).map fun x => (x.1, placeIn order x.2)).map fun x =>
        Part.device x.1).Nodup := by
      rw [List.map_map]
      exact present_keys hids
    rw [of?_participants, of?_participants, filter_key_eq (present_rearranged h) hkeys d,
      List.filter_map, List.getLast?_map, Option.map_map, Option.map_map]
    rfl

variable {m m' : Problem P α}

theorem taking_rearranged (h : order.Perm (List.range parts.length))
    (hnew : Problem.new parts grids = .ok m) (hnew' : Problem.new (rearranged order parts) grids = .ok m') :
    m'.wiring.taking.Perm (m.wiring.taking.map (placeIn order)) := by
  have hperm := (present_rearranged h).map fun x => x.2
  rw [List.map_map] at hperm
  rw [taking_new hnew, taking_new hnew', List.map_map]
  exact hperm

theorem takingParts_rearranged (h : order.Perm (List.range parts.length))
    (hnew : Problem.new parts grids = .ok m) (hnew' : Problem.new (rearranged order parts) grids = .ok m') :
    m'.takingParts.Perm m.takingParts := by
  have hperm := (present_rearranged h).map fun x => x.1
  rw [List.map_map] at hperm
  rw [takingParts_new hnew, takingParts_new hnew']
  exact hperm

/-- **The wirings of the two problems mirror each other** in exact numbers, as long as the active parts publish powers
only. -/
theorem mirrors_rearranged [Scalar.Exact α] (h : order.Perm (List.range parts.length))
    (hids : (parts.map Part.device).Nodup) (hnew : Problem.new parts grids = .ok m)
    (hnew' : Problem.new (rearranged order parts) grids = .ok m') :
    m'.wiring.Mirrors m.wiring (placeIn order)
      fun i out => i ∈ m.wiring.active → out.OnlyPowers := by
  have hrelocates := relocates_rearranged h hids grids
  refine mirrors hnew hnew' hrelocates ?_
  intro outputs outputs' hpublished g _
  refine ReducedRelations.delivers_of_onlyPowers hrelocates.moved hrelocates.injective ?_ ?_ g
  · intro q hq
    exact hpublished.of_published.getD_eq (index_mem_taking hnew hq) _
  · intro q hq hrole
    obtain ⟨out, _, hout, -, -, hpowers⟩ := hpublished q.index (index_mem_taking hnew hq)
    have hactive : q.index ∈ m.wiring.active := by
      obtain ⟨p, i, hp, hstatic, rfl⟩ := mem_participants hq
      have hrole : roleOf grids p = .active := hrole
      rw [new_eq_ok hnew]
      exact mem_indicesWhere.mpr ⟨p, hp, by simp [hstatic, hrole]⟩
    rw [Array.getD_eq_getD_getElem?, hout]
    exact hpowers hactive hactive

end Problem

def pickOne (pick : UInt64 → UInt64 → UInt64) : List UInt64 → UInt64
  | [] => 0
  | t :: ts => ts.foldl pick t

/-- What is picked does not depend on the order of the list. -/
theorem pickOne_perm {pick : UInt64 → UInt64 → UInt64} (hcomm : ∀ a b, pick a b = pick b a)
    (hright : ∀ a b c, pick (pick a b) c = pick (pick a c) b) {xs ys : List UInt64} (h : xs.Perm ys) :
    pickOne pick xs = pickOne pick ys := by
  induction h with
  | nil => rfl
  | cons t h _ => exact h.foldl_eq' (fun a _ b _ c => hright c a b) t
  | swap t u ts => exact congrArg (ts.foldl pick) (hcomm u t)
  | trans _ _ ih₁ ih₂ => exact ih₁.trans ih₂

namespace Problem

variable {m m' : Problem P α}

omit [Scalar α] in
/-- The parts that take part decide the simulated window, in any order. -/
theorem window_of_perm (h : m'.takingParts.Perm m.takingParts) :
    m'.referenceTime = m.referenceTime ∧ m'.horizon = m.horizon := by
  constructor
  · show pickOne _ _ = pickOne _ _
    refine pickOne_perm (fun a b => ?_) (fun a b c => ?_) (h.map Part.referenceTime)
    all_goals
      simp only [UInt64.lt_iff_toNat_lt]
      split_ifs <;> first | rfl | (apply UInt64.toNat_inj.mp; omega)
  · show pickOne _ _ = pickOne _ _
    refine pickOne_perm (fun a b => ?_) (fun a b c => ?_) (h.map Part.horizon)
    all_goals
      simp only [UInt64.lt_iff_toNat_lt]
      split_ifs <;> first | rfl | (apply UInt64.toNat_inj.mp; omega)

end Problem

end Problems

/-! ### Devices -/

namespace Device

section Models

variable {α : Type} [Transcendental α]

omit [Transcendental α] in
def isTank : Device α → Bool
  | hotWaterTank _ => true
  | _ => false

@[simp] theorem isTank_step (d : Device α) (x : StepInput α) (out : FlowMap α) :
    (d.step x out).2.isTank = d.isTank := by
  cases d <;> rfl

@[simp] theorem isTank_start (d : Device α) (settings : RunSettings) :
    (d.start settings).isTank = d.isTank := by
  cases d <;> rfl

@[simp] theorem isTank_withSolution (d : Device α) (s : Solution α) :
    (d.withSolution s).isTank = d.isTank := by
  cases d <;> rfl

/-- **A device other than a tank publishes powers only.** -/
theorem onlyPowers_step {d : Device α} (h : d.isTank = false) (x : StepInput α) (out : FlowMap α) :
    (d.step x out.clear).1.OnlyPowers := by
  have hclear := FlowMap.onlyPowers_clear out
  cases d with
  | baseLoad d => exact (hclear.setPower ..).setPower ..
  | pvSystem d => exact hclear.setPower ..
  | battery d => exact hclear.setPower ..
  | evCharger d => exact hclear.setPower ..
  | chp d =>
    simp only [step, Chp.step]
    split <;> exact ((hclear.setPower ..).setPower ..).setPower ..
  | hotWaterTank d => exact absurd h (by simp [isTank])
  | hotWaterDemand d => exact hclear.setPower ..

/-- No step tells a device from itself, and one that is not a tank never becomes one. -/
theorem inseparable (active : List Nat) :
    Part.Inseparable (fun i (p q : Device α) => p = q ∧ (i ∈ active → p.isTank = false))
      (fun i (out : FlowMap α) => i ∈ active → out.OnlyPowers) where
  publish := by rintro _ _ _ ⟨rfl, -⟩ _ _; rfl
  sent := by rintro _ _ _ ⟨rfl, h⟩ x out hi; exact onlyPowers_step (h hi) x out
  step := by rintro _ p _ ⟨rfl, h⟩ x out; exact ⟨rfl, fun hi => (isTank_step p x out).trans (h hi)⟩
  cost := by rintro _ _ _ ⟨rfl, -⟩; rfl

end Models

end Device

/-- A solution whose pieces stand in another order. -/
def Layout.arrange {α : Type} (l : Layout) (order : List Nat) (s : Solution α) : Solution α :=
  .joined s.encoding (rearranged order (l.cut s))

def Plan.arranged {P α : Type} (plan : Plan P α) (order : List Nat) : Plan P α :=
  { plan with parts := rearranged order plan.parts }

section Evaluations

variable {α : Type} [Transcendental α] [Scalar.Exact α] {parts : List (Device α)} {grids : List (Grid α)}
  {order : List Nat} {m m' : Problem (Device α) α} {e e' : Evaluator (Device α) α} {n n' : Nat}

omit [Scalar.Exact α] in
theorem totalCount_rearranged (h : order.Perm (List.range parts.length)) (encoding : Encoding) :
    Layout.totalCount encoding (rearranged order parts) = Layout.totalCount encoding parts :=
  ((rearranged_perm h).map fun p => (Layout.ownedCount encoding p).toNat).sum_eq

omit [Scalar.Exact α] in
/-- The solutions for parts in another order are as wide. -/
theorem width_rearranged (h : order.Perm (List.range parts.length)) (encoding : Encoding) :
    (Layout.ofParts (rearranged order parts)).width encoding
      = (Layout.ofParts parts).width encoding := by
  have hstop : ∀ (counts : List UInt64) (start : UInt64),
      (tile start counts).2 = counts.foldl (fun stop n => stop + n) start := by
    intro counts
    induction counts with
    | nil => intro start; rfl
    | cons n counts ih => intro start; exact ih (start + n)
  rw [Layout.width_ofParts, Layout.width_ofParts, hstop, hstop]
  refine ((rearranged_perm h).map (Layout.ownedCount encoding)).foldl_eq' (fun a _ b _ stop => ?_) 0
  rw [UInt64.add_assoc, UInt64.add_comm a, UInt64.add_assoc]

omit [Scalar.Exact α] in
/-- Evaluations of a solution and of its pieces in another order start from matching frames. -/
theorem startOf_rearranged (h : order.Perm (List.range parts.length))
    (hids : (parts.map Part.device).Nodup)
    (htanks : ∀ p ∈ parts, p.isTank = true → Problem.roleOf grids p = .passive)
    (hnew : Problem.new parts grids = .ok m)
    (hnew' : Problem.new (rearranged order parts) grids = .ok m') (he : e.Serves m n)
    (he' : e'.Serves m' n') (hagrees : e'.Agrees e) {s : Solution α}
    (hsize : s.size = Layout.totalCount s.encoding parts)
    (hcount : Layout.totalCount s.encoding parts < UInt64.size) (flags : EvaluationFlags) :
    Frame.Matches m.wiring (placeIn order)
      (fun i p q => p = q ∧ (i ∈ m.wiring.active → p.isTank = false))
      (e.startOf m s flags) (e'.startOf m' ((Layout.ofParts parts).arrange order s) flags) := by
  have hsuits := Layout.suits_cut hsize hcount
  have hlength : ((Layout.ofParts parts).cut s).length = parts.length := hsuits.length_eq.symm
  refine Problem.startOf_matches hnew hnew' (Problem.relocates_rearranged h hids grids) he he' hagrees ?_
  intro i p hp hstatic
  have hi : i < parts.length := (List.getElem?_eq_some_iff.mp hp).1
  obtain ⟨piece, hpiece⟩ : ∃ piece, ((Layout.ofParts parts).cut s)[i]? = some piece :=
    ⟨_, List.getElem?_eq_getElem (hlength ▸ hi)⟩
  have hserved := Layout.handOut_joined hsuits hcount hp hpiece
  rw [Layout.joined_cut hsize hcount] at hserved
  have hserved' := Layout.handOut_joined (rearranged_forall₂ hsuits order)
    (by rwa [totalCount_rearranged h]) (i := placeIn order i)
    ((getElem?_rearranged_placeIn h hi).trans hp)
    ((getElem?_rearranged_placeIn (hlength ▸ h) (hlength ▸ hi)).trans hpiece)
  -- what an active part publishes is only powers, since it is no tank
  refine ⟨_, _, hserved, hserved', rfl, fun hactive => ?_⟩
  have hrole : Problem.roleOf grids p = .active := by
    rw [Problem.new_eq_ok hnew] at hactive
    obtain ⟨q, hq, hroles⟩ := Problem.mem_indicesWhere.mp hactive
    obtain rfl : p = q := Option.some.inj (hp.symm.trans hq)
    simpa [hstatic] using hroles
  have htank : p.isTank = false := by
    refine Bool.eq_false_iff.mpr fun htank => ?_
    rw [htanks p (List.mem_of_getElem? hp) htank] at hrole
    exact absurd hrole (by simp)
  show (Device.start (Layout.served s.encoding p piece) _).isTank = false
  rw [Device.isTank_start, Layout.served]
  split
  · exact htank
  · exact (Device.isTank_withSolution p piece).trans htank

omit [Scalar.Exact α] in
/-- A solution of the right size is accepted, and so are its pieces in another order. -/
theorem accepts_rearranged (h : order.Perm (List.range parts.length))
    (hnew : Problem.new parts grids = .ok m)
    (hnew' : Problem.new (rearranged order parts) grids = .ok m') (he : e.Serves m n)
    (he' : e'.Serves m' n') {s : Solution α} (hsize : s.size = Layout.totalCount s.encoding parts)
    (hcount : Layout.totalCount s.encoding parts < UInt64.size) :
    e.layout.Accepts s ∧ e'.layout.Accepts ((Layout.ofParts parts).arrange order s) := by
  have hsuits := Layout.suits_cut hsize hcount
  constructor
  · rw [he.layout, Problem.new_eq_ok hnew, ← Layout.joined_cut hsize hcount]
    exact Layout.accepts_joined hsuits hcount
  · rw [he'.layout, Problem.new_eq_ok hnew']
    exact Layout.accepts_joined (rearranged_forall₂ hsuits order) (by rwa [totalCount_rearranged h])

/-- **Evaluations of a solution and of its pieces in another order have one result.** -/
theorem runOn_rearranged (h : order.Perm (List.range parts.length))
    (hids : (parts.map Part.device).Nodup)
    (htanks : ∀ p ∈ parts, p.isTank = true → Problem.roleOf grids p = .passive)
    (hnew : Problem.new parts grids = .ok m)
    (hnew' : Problem.new (rearranged order parts) grids = .ok m') (he : e.Serves m n)
    (he' : e'.Serves m' n') (hagrees : e'.Agrees e) {s : Solution α}
    (hsize : s.size = Layout.totalCount s.encoding parts)
    (hcount : Layout.totalCount s.encoding parts < UInt64.size) (flags : EvaluationFlags)
    (recording? : Option (Recording α)) :
    (e'.runOn m' ((Layout.ofParts parts).arrange order s) flags recording?).result
      = (e.runOn m s flags recording?).result := by
  obtain ⟨haccepts, haccepts'⟩ := accepts_rearranged h hnew hnew' he he' hsize hcount
  refine Evaluator.runOn_matches he he' hagrees (Device.inseparable m.wiring.active)
    (Problem.mirrors_rearranged h hids hnew hnew') flags
    (startOf_rearranged h hids htanks hnew hnew' he he' hagrees hsize hcount flags) (fun cost total => ?_)
    haccepts haccepts' recording? recording?
  have hperm := (Problem.taking_rearranged h hnew hnew').map cost
  rw [← List.foldl_map (f := cost) (g := fun total x => total + x),
    ← List.foldl_map (f := cost) (g := fun total x => total + x), Scalar.foldl_add, Scalar.foldl_add,
    Scalar.sum_perm hperm]

/-- **Evaluations of a solution and of its pieces in another order write one schedule for each device.** -/
theorem schedule_rearranged (h : order.Perm (List.range parts.length))
    (hids : (parts.map Part.device).Nodup)
    (htanks : ∀ p ∈ parts, p.isTank = true → Problem.roleOf grids p = .passive)
    (hnew : Problem.new parts grids = .ok m)
    (hnew' : Problem.new (rearranged order parts) grids = .ok m') (he : e.Serves m n)
    (he' : e'.Serves m' n') (hagrees : e'.Agrees e) {s : Solution α}
    (hsize : s.size = Layout.totalCount s.encoding parts)
    (hcount : Layout.totalCount s.encoding parts < UInt64.size) (flags : EvaluationFlags)
    (recording? : Option (Recording α)) (d : DeviceId) :
    (e'.runOn m' ((Layout.ofParts parts).arrange order s) flags recording?).recording?.map (fun r =>
        r.finished.filter fun schedule => schedule.device == d)
      = (e.runOn m s flags recording?).recording?.map fun r =>
        r.finished.filter fun schedule => schedule.device == d := by
  obtain ⟨haccepts, haccepts'⟩ := accepts_rearranged h hnew hnew' he he' hsize hcount
  have hfinished := Evaluator.finished_runOn hnew he haccepts flags recording?
  have hfinished' := Evaluator.finished_runOn hnew' he' haccepts' flags recording?
  have hread : ∀ recording? : Option (Recording α),
      recording?.map (fun r => r.finished.filter fun schedule => schedule.device == d)
        = (recording?.map Recording.finished).map (List.filter fun schedule => schedule.device == d) := by
    intro recording?
    rw [Option.map_map]
    rfl
  rw [hread, hread, hfinished', hfinished, Option.map_map, Option.map_map]
  congr 1
  funext _
  refine filter_key_eq ?_ ?_ d
  · refine ((Problem.present_rearranged h).map _).trans (List.Perm.of_eq ?_)
    rw [List.map_map]
    refine List.map_congr_left fun x hx => ?_
    exact Evaluator.scheduleAt_matches (Device.inseparable m.wiring.active)
      (Problem.mirrors_rearranged h hids hnew hnew') hagrees hnew
      (startOf_rearranged h hids htanks hnew hnew' he he' hagrees hsize hcount flags) hx
  · have hdevices : Schedule.device ∘ e.scheduleAt m s flags = fun x => Part.device x.1 :=
      funext Evaluator.device_scheduleAt
    rw [List.map_map, hdevices]
    exact Problem.present_keys hids

end Evaluations

/-- **The order of the devices does not matter.** The devices have identities of their own, every hot water tank
is passive, and numbers are added up exactly. Then the devices in any other order make a plan whose solutions are as
wide, and a solution whose pieces stand in that order has the result of the solution itself and gives each device the
same schedule, under all flags. -/
theorem device_order_irrelevant {α : Type} [Transcendental α] [Scalar.Exact α]
    {plan : Plan (Device α) α} {problem : Problem (Device α) α} {fresh : Evaluator (Device α) α}
    (hplan : plan.evaluator = .ok (problem, fresh)) (hids : (plan.parts.map Part.device).Nodup)
    (htanks : ∀ d ∈ plan.parts, d.isTank = true → Problem.roleOf plan.grids d = .passive)
    {order : List Nat} (horder : order.Perm (List.range plan.parts.length)) :
    ∃ problem' fresh', (plan.arranged order).evaluator = .ok (problem', fresh') ∧
      (∀ e, fresh'.layout.width e = fresh.layout.width e) ∧
      ∀ s : Solution α, s.Storable → s.size = Layout.totalCount s.encoding plan.parts →
        let s' := fresh.layout.arrange order s
        s'.encoding = s.encoding ∧ s'.size = s.size ∧
        ∀ flags recording?,
          (fresh'.run s' flags recording?).1 = (fresh.run s flags recording?).1 ∧
          ∀ d, (fresh'.run s' flags recording?).2.1.map (fun r =>
              r.finished.filter fun schedule => schedule.device == d)
            = (fresh.run s flags recording?).2.1.map fun r =>
              r.finished.filter fun schedule => schedule.device == d := by
  have hparts : rearranged order plan.parts ≠ [] := by
    obtain ⟨hparts, -⟩ := Plan.exists_evaluator_iff.mp ⟨problem, fresh, hplan⟩
    exact fun hnil => hparts ((hnil ▸ rearranged_perm horder).nil_eq).symm
  have hcollision : Problem.collision? plan.grids = none :=
    (Plan.exists_evaluator_iff.mp ⟨problem, fresh, hplan⟩).2
  obtain ⟨problem', fresh', hplan'⟩ :
      ∃ problem' fresh', (plan.arranged order).evaluator = .ok (problem', fresh') :=
    Plan.exists_evaluator_iff.mpr ⟨hparts, hcollision⟩
  obtain ⟨hnew, hfresh⟩ := Plan.evaluator_eq_ok hplan
  obtain ⟨hnew', hfresh'⟩ := Plan.evaluator_eq_ok hplan'
  have hlayout : fresh.layout = .ofParts plan.parts := by rw [hfresh]
  have hagrees : fresh'.Agrees fresh := by
    obtain ⟨hreference, hhorizon⟩ :=
      Problem.window_of_perm (Problem.takingParts_rearranged horder hnew hnew')
    rw [hfresh, hfresh']
    refine ⟨?_, rfl, rfl⟩
    simp only [hreference, hhorizon, Plan.arranged]
  refine ⟨problem', fresh', hplan', fun e => ?_, fun s hs hsize => ?_⟩
  · rw [hfresh', hfresh]
    exact width_rearranged horder e
  · intro s'
    have hcount : Layout.totalCount s.encoding plan.parts < UInt64.size := by
      rw [← hsize]
      unfold Solution.Storable at hs
      cases hencoding : s.encoding <;>
        simp only [hencoding, Solution.variableBytes, maxTableBytes, UInt64.size] at hs ⊢ <;> omega
    have hs' : s' = (Layout.ofParts plan.parts).arrange order s := by rw [← hlayout]
    refine ⟨Solution.encoding_joined .., ?_, fun flags recording? => ?_⟩
    · have hsuits := rearranged_forall₂ (Layout.suits_cut hsize hcount) order
      rw [hs', Layout.arrange, Layout.size_joined_of_suits hsuits, totalCount_rearranged horder, hsize]
    · obtain ⟨hresult, hrecording⟩ := Plan.run_fresh hplan s flags recording?
      obtain ⟨hresult', hrecording'⟩ := Plan.run_fresh hplan' s' flags recording?
      rw [hresult, hresult', hrecording, hrecording', hs']
      have hserves := Plan.serves hplan
      have hserves' := Plan.serves hplan'
      exact ⟨runOn_rearranged horder hids htanks hnew hnew' hserves hserves' hagrees hsize hcount flags recording?,
        schedule_rearranged horder hids htanks hnew hnew' hserves hserves' hagrees hsize hcount flags recording?⟩

/-- The household from its last device to its first, with the bits of the battery, the charger and the unit in that
order. -/
theorem device_order_irrelevant_household :
    let plan := household ℝ .dominance
    let order := [7, 6, 5, 4, 3, 2, 1, 0]
    let s : Solution ℝ := .binary #[true, false, false, true, true, true, false, false, true, false,
      false, true, true, false]
    (plan.parts.map Part.device).Nodup ∧
    (∀ d ∈ plan.parts, d.isTank = true → Problem.roleOf plan.grids d = .passive) ∧
    order.Perm (List.range plan.parts.length) ∧ s.Storable ∧
    s.size = Layout.totalCount s.encoding plan.parts ∧
    ∃ problem fresh problem' fresh', plan.evaluator = .ok (problem, fresh) ∧
      (plan.arranged order).evaluator = .ok (problem', fresh') ∧
      let s' := fresh.layout.arrange order s
      s'.size = s.size ∧
      ∀ flags recording?,
        (fresh'.run s' flags recording?).1 = (fresh.run s flags recording?).1 ∧
        ∀ d, (fresh'.run s' flags recording?).2.1.map (fun r =>
            r.finished.filter fun schedule => schedule.device == d)
          = (fresh.run s flags recording?).2.1.map fun r =>
            r.finished.filter fun schedule => schedule.device == d := by
  intro plan order s
  have hids : (plan.parts.map Part.device).Nodup := by
    show ([1, 2, 3, 4, 5, 6, 7, 8].map Household.deviceId).Nodup
    decide
  have htanks : ∀ d ∈ plan.parts, d.isTank = true → Problem.roleOf plan.grids d = .passive := by
    have hpassive : Problem.isPassive (Household.grids ℝ) (Household.deviceId 6) = true := rfl
    simp only [plan, household, Household.devices, List.forall_mem_cons, List.not_mem_nil,
      false_implies, implies_true, and_true, true_and, true_implies, Device.isTank,
      Bool.false_eq_true, Problem.roleOf]
    exact if_pos hpassive
  have horder : order.Perm (List.range plan.parts.length) := by
    show [7, 6, 5, 4, 3, 2, 1, 0].Perm (List.range 8)
    decide
  have hs : s.Storable := by
    unfold Solution.Storable
    decide
  have hsize : s.size = Layout.totalCount s.encoding plan.parts := by
    rw [show s.encoding = .binary from rfl, household_totalCount]
    rfl
  obtain ⟨problem, fresh, hplan⟩ := household_evaluator ℝ .dominance
  obtain ⟨problem', fresh', hplan', -, hrun⟩ := device_order_irrelevant hplan hids htanks horder
  obtain ⟨-, hsize', hall⟩ := hrun s hs hsize
  exact ⟨hids, htanks, horder, hs, hsize, problem, fresh, problem', fresh', hplan, hplan', hsize', hall⟩

end HomeEnergy

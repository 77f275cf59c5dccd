import HomeEnergy.Proofs.Construction
import Mathlib.Algebra.GroupWithZero.Nat
import Mathlib.Data.List.Forall2
import Mathlib.Data.List.Nodup
import Mathlib.Logic.Relator

/-!
# Names and identities

A configuration names its devices and meters, and a scenario knows them by identities. The identities come from
three sources: some are configured, others count positions in the list of devices, and meters are numbered through
all grids. No constraint keeps the three apart, and none keeps two meters of one grid from having one name.

* `Config.Distinguished` — what has to be asked in addition: identities of devices are distinct and no numbers of
  meters, and the meters of a grid have names of their own; `Config.distinguished_of_positional` — without
  configured identities, only the names of meters are left to be asked for.
* `Config.Calls` — which identity a name stands for in a grid; `Config.calls_biUnique` — in a distinguished
  configuration it is one, and of no other name.
* `Scenario.topologies_eq`, `Topology.realizes_topology` — **grids join what the configuration names.**
* `identities_nodup_iff` — **the identities of a scenario are distinct exactly if its configuration is
  distinguished.**
-/

namespace HomeEnergy

/-! ### Lists of names -/

/-- A list is free of repetitions if no entry stands before itself. -/
theorem nodup_of_not_mem_take {β : Type} {l : List β}
    (h : ∀ x i, (x, i) ∈ l.zipIdx → x ∉ l.take i) : l.Nodup := by
  refine List.pairwise_iff_getElem.mpr fun i j hi hj hij heq => ?_
  refine h l[j] j (List.mem_zipIdx_iff_getElem?.mpr (List.getElem?_eq_getElem hj)) ?_
  rw [← heq]
  exact List.mem_take_iff_getElem.mpr ⟨i, by omega, rfl⟩

/-- Entries of a list with a common value stand at one index, if values are not repeated. -/
theorem index_eq_of_nodup_map {β γ : Type} {l : List β} {f : β → γ} (h : (l.map f).Nodup) {i j : Nat}
    {x y : β} (hx : l[i]? = some x) (hy : l[j]? = some y) (hxy : f x = f y) : i = j := by
  have hi : i < (l.map f).length := by
    rw [List.length_map]
    exact (List.getElem?_eq_some_iff.mp hx).1
  refine (List.getElem?_inj hi h).mp ?_
  rw [List.getElem?_map, List.getElem?_map, hx, hy]
  exact congrArg some hxy

namespace DeviceNames

/-- A name of a new device is added to the others. -/
theorem insert_perm {names : DeviceNames} {d : DeviceId} (h : d ∉ names.entries.map fun e => e.1)
    (name : String) : (names.insert d name).entries.Perm ((d, name) :: names.entries) := by
  have hafter : (names.entries.filter fun e => decide (d.toNat < e.1.toNat))
      = names.entries.filter fun e => !decide (e.1.toNat < d.toNat) := by
    refine List.filter_congr fun e he => ?_
    have hne : e.1.toNat ≠ d.toNat := by
      intro heq
      refine h (List.mem_map.mpr ⟨e, he, ?_⟩)
      exact congrArg DeviceId.mk (BitVec.eq_of_toNat_eq heq)
    by_cases hlt : d.toNat < e.1.toNat
    · simp [hlt, Nat.le_of_lt hlt]
    · simp [hlt]; omega
  show ((names.entries.filter fun e => decide (e.1.toNat < d.toNat)) ++ (d, name) :: _).Perm _
  rw [hafter]
  exact List.perm_middle.trans ((List.filter_append_perm _ _).cons _)

/-- **Distinct devices keep their names**: there is one entry for each of them. -/
theorem ofList_perm {entries : List (DeviceId × String)} (h : (entries.map fun e => e.1).Nodup) :
    (ofList entries).entries.Perm entries := by
  have hfold : ∀ (entries : List (DeviceId × String)) (names : DeviceNames),
      ((names.entries ++ entries).map fun e => e.1).Nodup →
        (entries.foldl (fun names e => names.insert e.1 e.2) names).entries.Perm
          (names.entries ++ entries) := by
    intro entries
    induction entries with
    | nil => intro names _; simp
    | cons e entries ih =>
      intro names hnodup
      have hinsert : (names.insert e.1 e.2).entries.Perm (e :: names.entries) := by
        refine insert_perm ?_ e.2
        intro hmem
        rw [List.map_append, List.nodup_append] at hnodup
        exact hnodup.2.2 e.1 hmem e.1 (by simp) rfl
      have hperm : ((names.insert e.1 e.2).entries ++ entries).Perm (names.entries ++ e :: entries) :=
        (hinsert.append_right entries).trans List.perm_middle.symm
      exact (ih _ ((hperm.map _).nodup_iff.mpr hnodup)).trans hperm
  exact hfold entries empty h

end DeviceNames

/-! ### Constraints on names -/

/-- A grid all of whose names are known, given the names of the devices. -/
structure GridConfig.Known (devices : List String) (g : GridConfig) : Prop where
  active : ∀ r ∈ g.relations, r.active ∈ devices
  passive : ∀ r ∈ g.relations, r.passive ∈ devices ∨ r.passive ∈ g.meters.map fun m => m.name
  unshadowed : ∀ m ∈ g.meters, m.name ∉ devices
  attached : ∀ m ∈ g.meters, ∀ d ∈ m.pv ++ m.chp ++ m.battery, d ∈ devices

theorem Scenario.meterId_inj {i j : Nat} (hi : i < UInt64.size) (hj : j < UInt64.size)
    (h : meterId i = meterId j) : i = j := by
  have hnat := congrArg DeviceId.toNat h
  simp only [meterId, DeviceId.ofNat, DeviceId.toNat, BitVec.toNat_ofNat] at hnat
  rw [Nat.mod_eq_of_lt, Nat.mod_eq_of_lt] at hnat
  · omega
  · have hsize : UInt64.size = 2 ^ 64 := rfl
    omega
  · have hsize : UInt64.size = 2 ^ 64 := rfl
    omega

namespace Config

variable {α : Type} [Scalar α]

theorem known_of_gridIssues {devices : List String} {kind : GridKind} {g : GridConfig}
    (h : gridIssues devices kind g = []) : g.Known devices := by
  simp only [gridIssues, List.append_eq_nil_iff, List.flatMap_eq_nil_iff] at h
  obtain ⟨hrelations, hmeters⟩ := h
  have hrelation : ∀ r ∈ g.relations, r.active ∈ devices ∧
      (r.passive ∈ devices ∨ r.passive ∈ g.meters.map fun m => m.name) := by
    intro r hr
    obtain ⟨i, hi⟩ := List.mem_iff_getElem?.mp hr
    have hissues := hrelations (r, i) (List.mem_zipIdx_iff_getElem?.mpr hi)
    simpa [relationIssues] using hissues
  have hmeter : ∀ m ∈ g.meters, m.name ∉ devices ∧
      ∀ d ∈ m.pv ++ m.chp ++ m.battery, d ∈ devices := by
    intro m hm
    obtain ⟨i, hi⟩ := List.mem_iff_getElem?.mp hm
    have hissues := hmeters (m, i) (List.mem_zipIdx_iff_getElem?.mpr hi)
    simp only [meterIssues, List.append_eq_nil_iff, List.flatMap_eq_nil_iff, require_eq_nil,
      Bool.not_eq_true', List.contains_eq_mem, decide_eq_true_eq, decide_eq_false_iff_not] at hissues
    exact hissues
  exact ⟨fun r hr => (hrelation r hr).1, fun r hr => (hrelation r hr).2,
    fun m hm => (hmeter m hm).1, fun m hm => (hmeter m hm).2⟩

/-- The grids of a configuration, each with the number of its first meter. -/
def placedGrids (c : Config α) : List (Nat × GridConfig) :=
  c.grid.electrical.toList.map (fun e => (0, e)) ++
    c.grid.thermal.toList.map fun t => (Scenario.firstThermalMeter c.grid, t)

/-- The devices of a checked scenario have names of their own, and its grids know all names. -/
theorem names_of_issues {c : Config α} (h : c.issues = []) :
    (c.devices.map fun d => d.name).Nodup ∧
      ∀ g ∈ c.placedGrids, g.2.Known (c.devices.map fun d => d.name) := by
  simp only [issues, List.append_eq_nil_iff, List.flatMap_eq_nil_iff] at h
  obtain ⟨⟨⟨⟨⟨-, hdevices⟩, helectrical⟩, hthermal⟩, -⟩, -⟩ := h
  constructor
  · refine nodup_of_not_mem_take fun name i hname => ?_
    rw [List.zipIdx_map, List.mem_map] at hname
    obtain ⟨⟨d, j⟩, hd, hdj⟩ := hname
    obtain ⟨rfl, rfl⟩ := Prod.mk.inj hdj
    have hdevice := hdevices (d, j) hd
    simp only [deviceIssues, List.append_eq_nil_iff, require_eq_nil] at hdevice
    simpa using hdevice.1
  · intro g hg
    rcases List.mem_append.mp hg with hg | hg
    · obtain ⟨e, he, rfl⟩ := List.mem_map.mp hg
      exact known_of_gridIssues (helectrical e he)
    · obtain ⟨t, ht, rfl⟩ := List.mem_map.mp hg
      exact known_of_gridIssues (hthermal t ht)

def deviceIds (c : Config α) : List DeviceId :=
  (Scenario.identities c.devices).map fun e => e.2

def meterCount (c : Config α) : Nat :=
  (c.placedGrids.map fun g => g.2.meters.length).sum

/-- What keeps identities apart. -/
structure Distinguished (c : Config α) : Prop where
  devices : c.deviceIds.Nodup
  apart : ∀ d ∈ c.deviceIds, ∀ j < c.meterCount, d ≠ Scenario.meterId j
  meters : ∀ g ∈ c.placedGrids, (g.2.meters.map fun m => m.name).Nodup

/-- What a name stands for in a grid whose first meter has the given number: the device of this name, or the
meter. -/
def Calls (c : Config α) (g : Nat × GridConfig) (name : String) (id : DeviceId) : Prop :=
  (∃ i d, c.devices[i]? = some d ∧ d.name = name ∧ id = Scenario.identity i d) ∨
    ∃ j m, g.2.meters[j]? = some m ∧ m.name = name ∧ id = Scenario.meterId (g.1 + j)

/-- A name stands for one identity, if meters have names of their own. -/
theorem calls_rightUnique {c : Config α} (hissues : c.issues = []) {g : Nat × GridConfig}
    (hg : g ∈ c.placedGrids) (hmeters : (g.2.meters.map fun m => m.name).Nodup) :
    Relator.RightUnique (c.Calls g) := by
  obtain ⟨hdevices, hknown⟩ := names_of_issues hissues
  have hunshadowed : ∀ {i j : Nat} {d : DeviceConfig α} {m : MeterConfig}, c.devices[i]? = some d →
      g.2.meters[j]? = some m → d.name ≠ m.name := by
    intro i j d m hd hm heq
    refine (hknown g hg).unshadowed m (List.mem_of_getElem? hm) ?_
    exact List.mem_map.mpr ⟨d, List.mem_of_getElem? hd, heq⟩
  intro name id id' h h'
  rcases h with ⟨i, d, hd, rfl, rfl⟩ | ⟨j, m, hm, rfl, rfl⟩
  · rcases h' with ⟨i', d', hd', hname, rfl⟩ | ⟨j, m, hm, hname, rfl⟩
    · obtain rfl := index_eq_of_nodup_map hdevices hd hd' hname.symm
      rw [Option.some.inj (hd.symm.trans hd')]
    · exact absurd hname.symm (hunshadowed hd hm)
  · rcases h' with ⟨i, d, hd, hname, rfl⟩ | ⟨j', m', hm', hname, rfl⟩
    · exact absurd hname (hunshadowed hd hm)
    · rw [index_eq_of_nodup_map hmeters hm hm' hname.symm]

omit [Scalar α] in
theorem getElem?_deviceIds (c : Config α) (i : Nat) :
    c.deviceIds[i]? = c.devices[i]?.map (Scenario.identity i) := by
  simp [deviceIds, Scenario.identities, Function.comp_def]

omit [Scalar α] in
/-- The meters are numbered through all grids. -/
theorem meterNumbers_eq (c : Config α) :
    (c.placedGrids.flatMap fun g => (List.range g.2.meters.length).map fun j => g.1 + j)
      = List.range c.meterCount := by
  unfold meterCount placedGrids Scenario.firstThermalMeter
  cases c.grid.electrical with
  | none => cases c.grid.thermal <;> simp
  | some e =>
    cases c.grid.thermal with
    | none => simp
    | some t => simp [List.range_add]

omit [Scalar α] in
theorem meter_lt {c : Config α} {g : Nat × GridConfig} (hg : g ∈ c.placedGrids) {j : Nat}
    (hj : j < g.2.meters.length) : g.1 + j < c.meterCount := by
  rw [← List.mem_range, ← meterNumbers_eq]
  exact List.mem_flatMap.mpr ⟨g, hg, List.mem_map.mpr ⟨j, List.mem_range.mpr hj, rfl⟩⟩

/-- **In a distinguished configuration names and identities stand for each other.** -/
theorem calls_biUnique {c : Config α} (hissues : c.issues = []) (hc : c.Distinguished)
    (hcount : c.meterCount < UInt64.size) {g : Nat × GridConfig} (hg : g ∈ c.placedGrids) :
    Relator.BiUnique (c.Calls g) := by
  refine ⟨?_, calls_rightUnique hissues hg (hc.meters g hg)⟩
  have hids : ∀ {i : Nat} {d : DeviceConfig α}, c.devices[i]? = some d →
      c.deviceIds[i]? = some (Scenario.identity i d) := by
    intro i d hd
    rw [getElem?_deviceIds, hd]
    rfl
  have hapart : ∀ {i j : Nat} {d : DeviceConfig α} {m : MeterConfig}, c.devices[i]? = some d →
      g.2.meters[j]? = some m → Scenario.identity i d ≠ Scenario.meterId (g.1 + j) := by
    intro i j d m hd hm
    exact hc.apart _ (List.mem_of_getElem? (hids hd)) _
      (meter_lt hg (List.getElem?_eq_some_iff.mp hm).1)
  intro name name' id h h'
  rcases h with ⟨i, d, hd, rfl, rfl⟩ | ⟨j, m, hm, rfl, rfl⟩
  · rcases h' with ⟨i', d', hd', rfl, hid⟩ | ⟨j, m, hm, rfl, hid⟩
    · have hlt : i < c.deviceIds.length := (List.getElem?_eq_some_iff.mp (hids hd)).1
      obtain rfl := (List.getElem?_inj hlt hc.devices).mp ((hids hd).trans (hid ▸ (hids hd').symm))
      rw [Option.some.inj (hd.symm.trans hd')]
    · exact absurd hid (hapart hd hm)
  · rcases h' with ⟨i, d, hd, rfl, hid⟩ | ⟨j', m', hm', rfl, hid⟩
    · exact absurd hid.symm (hapart hd hm)
    · have hj := meter_lt hg (List.getElem?_eq_some_iff.mp hm).1
      have hj' := meter_lt hg (List.getElem?_eq_some_iff.mp hm').1
      have hnumber := Scenario.meterId_inj (by omega) (by omega) hid
      obtain rfl : j = j' := by omega
      rw [Option.some.inj (hm.symm.trans hm')]

omit [Scalar α] in
/-- **Where no identity is configured, only meters can be confused.** -/
theorem distinguished_of_positional {c : Config α} (hids : ∀ d ∈ c.devices, d.id? = none)
    (hdevices : c.devices.length < UInt64.size) (hcount : c.meterCount < UInt64.size)
    (hmeters : ∀ g ∈ c.placedGrids, (g.2.meters.map fun m => m.name).Nodup) : c.Distinguished := by
  have hsize : UInt64.size = 2 ^ 64 := rfl
  have hpositions : c.deviceIds = (List.range c.devices.length).map Scenario.positionId := by
    refine List.ext_getElem? fun i => ?_
    rw [getElem?_deviceIds, List.getElem?_map]
    cases hd : c.devices[i]? with
    | none =>
      rw [List.getElem?_eq_none (by simpa using hd)]
      rfl
    | some d =>
      rw [List.getElem?_range (List.getElem?_eq_some_iff.mp hd).1]
      show some (d.id?.getD (Scenario.positionId i)) = some (Scenario.positionId i)
      rw [hids d (List.mem_of_getElem? hd)]
      rfl
  have hposition : ∀ i < c.devices.length, (Scenario.positionId i).toNat = i + 1 :=
    fun i hi => Nat.mod_eq_of_lt (by omega)
  have hmeter : ∀ j < c.meterCount, (Scenario.meterId j).toNat = UInt64.size + j :=
    fun j hj => Nat.mod_eq_of_lt (by omega)
  refine ⟨?_, ?_, hmeters⟩
  · rw [hpositions]
    refine List.Nodup.map_on (fun i hi j hj hij => ?_) List.nodup_range
    rw [List.mem_range] at hi hj
    have hnat := congrArg DeviceId.toNat hij
    rw [hposition i hi, hposition j hj] at hnat
    exact Nat.succ.inj hnat
  · intro d hd j hj heq
    rw [hpositions] at hd
    obtain ⟨i, hi, rfl⟩ := List.mem_map.mp hd
    rw [List.mem_range] at hi
    have hnat := congrArg DeviceId.toNat heq
    rw [hposition i hi, hmeter j hj] at hnat
    omega

end Config

/-! ### Topologies -/

/-- A topology that joins what a grid names, given what names stand for. -/
structure Topology.Realizes (calls : String → DeviceId → Prop) (g : GridConfig) (t : Topology) : Prop where
  meters : List.Forall₂ (fun m d => calls m.name d) g.meters t.meters
  relations : List.Forall₂ (fun r r' => calls r.active r'.active ∧ calls r.passive r'.passive ∧
    r'.forward = r.commodity ∧ r'.back = r.back?.getD r.commodity) g.relations t.relations
  attached : List.Forall₂ (fun m m' => calls m.name m'.meter ∧ List.Forall₂ calls m.pv m'.pv ∧
    List.Forall₂ calls m.chp m'.chp ∧ List.Forall₂ calls m.battery m'.battery) g.meters t.meterDevices

namespace Scenario

variable {α : Type}

def meterNames (g : Nat × GridConfig) : List (String × DeviceId) :=
  g.2.meters.zipIdx.map fun (m, j) => (m.name, meterId (g.1 + j))

theorem map_fst_identities (devices : List (DeviceConfig α)) :
    ((identities devices).map fun e => e.1) = devices.map fun d => d.name := by
  calc (identities devices).map (fun e => e.1)
      = (devices.zipIdx.map Prod.fst).map fun d => d.name := by
        rw [identities, List.map_map, List.map_map]
        rfl
    _ = devices.map fun d => d.name := by rw [List.zipIdx_map_fst]

theorem map_fst_meterNames (g : Nat × GridConfig) :
    ((meterNames g).map fun e => e.1) = g.2.meters.map fun m => m.name := by
  calc (meterNames g).map (fun e => e.1)
      = (g.2.meters.zipIdx.map Prod.fst).map fun m => m.name := by
        rw [meterNames, List.map_map, List.map_map]
        rfl
    _ = g.2.meters.map fun m => m.name := by rw [List.zipIdx_map_fst]

/-- What a known name is resolved to is what it stands for. -/
theorem calls_resolve {c : Config α} {g : Nat × GridConfig} {name : String}
    (h : name ∈ (c.devices.map fun d => d.name) ∨ name ∈ g.2.meters.map fun m => m.name) :
    c.Calls g name (resolve (identities c.devices) (meterNames g) name) := by
  unfold resolve
  split
  · rename_i e he
    have hname : e.1 = name := by simpa using List.find?_some he
    obtain ⟨⟨d, i⟩, hd, rfl⟩ := List.mem_map.mp (List.mem_of_find?_eq_some he)
    exact Or.inl ⟨i, d, List.mem_zipIdx_iff_getElem?.mp hd, hname, rfl⟩
  · rename_i hnone
    split
    · rename_i e he
      have hname : e.1 = name := by simpa using List.find?_some he
      have hmem := List.mem_of_find?_eq_some he
      rw [List.mem_reverse] at hmem
      obtain ⟨⟨m, j⟩, hm, rfl⟩ := List.mem_map.mp hmem
      exact Or.inr ⟨j, m, List.mem_zipIdx_iff_getElem?.mp hm, hname, rfl⟩
    · rename_i hnone'
      -- a known name is listed on one side or the other
      rw [← map_fst_identities, ← map_fst_meterNames, List.mem_map, List.mem_map] at h
      rcases h with ⟨e, he, rfl⟩ | ⟨e, he, rfl⟩
      · exact absurd (List.find?_eq_none.mp hnone e he) (by simp)
      · exact absurd (List.find?_eq_none.mp hnone' e (List.mem_reverse.mpr he)) (by simp)

theorem realizes_topology {c : Config α} {g : Nat × GridConfig}
    (h : g.2.Known (c.devices.map fun d => d.name)) :
    (topology (identities c.devices) g.1 g.2).Realizes (c.Calls g) g.2 where
  meters := by
    refine List.forall₂_map_right_iff.mpr (List.forall₂_same.mpr fun m hm => calls_resolve ?_)
    exact Or.inr (List.mem_map.mpr ⟨m, hm, rfl⟩)
  relations := by
    refine List.forall₂_map_right_iff.mpr (List.forall₂_same.mpr fun r hr => ?_)
    exact ⟨calls_resolve (Or.inl (h.active r hr)), calls_resolve (h.passive r hr), rfl, rfl⟩
  attached := by
    refine List.forall₂_map_right_iff.mpr (List.forall₂_same.mpr fun m hm => ?_)
    have hnames : ∀ names : List String, (∀ d ∈ names, d ∈ m.pv ++ m.chp ++ m.battery) →
        List.Forall₂ (c.Calls g) names
          (names.map (resolve (identities c.devices) (meterNames g))) := by
      intro names hnames
      refine List.forall₂_map_right_iff.mpr (List.forall₂_same.mpr fun d hd => calls_resolve ?_)
      exact Or.inl (h.attached m hm d (hnames d hd))
    exact ⟨calls_resolve (Or.inr (List.mem_map.mpr ⟨m, hm, rfl⟩)), hnames m.pv (by simp +contextual),
      hnames m.chp (by simp +contextual), hnames m.battery (by simp +contextual)⟩

/-! ### Built scenarios -/

variable [Transcendental α]

/-- What a scenario is made of. -/
theorem ofConfig_eq_ok {c : Config α} {s : Scenario α} (h : ofConfig c = .ok s) :
    c.issues = [] ∧ devices c = .ok s.plan.parts ∧
      grids α (identities c.devices) c.grid = .ok s.plan.grids ∧
      s.names = .ofList ((identities c.devices).map fun e => (e.2, e.1)) ∧
      s.plan.step = c.optimization.stepSize := by
  unfold ofConfig at h
  by_cases hissues : (!c.issues.isEmpty) = true
  · rw [if_pos hissues] at h
    exact nomatch h
  · rw [if_neg hissues] at h
    obtain ⟨parts, hparts, h⟩ := exists_of_bind_eq_ok h
    obtain ⟨gs, hgs, h⟩ := exists_of_bind_eq_ok h
    obtain ⟨searches, -, h⟩ := exists_of_bind_eq_ok h
    obtain rfl := Except.ok.inj h
    refine ⟨by simpa using hissues, ?_, hgs, rfl, rfl⟩
    cases hdevices : devices c with
    | error e =>
      rw [hdevices] at hparts
      exact nomatch hparts
    | ok parts' =>
      rw [hdevices] at hparts
      exact congrArg Except.ok (Except.ok.inj hparts)

/-- A device has the identity that it is built with, and the optimized time of the configuration. -/
theorem device_timing {o : OptimizationConfig} {id : DeviceId} {seed : UInt64} {m : DeviceModel α}
    {d : Device α} (h : device o id seed m = .ok d) :
    d.timing.device = id ∧ d.timing.referenceTime = o.referenceTime ∧ d.timing.horizon = o.horizon := by
  cases m with
  | baseLoad c =>
    obtain ⟨_, hfactor, h⟩ := exists_of_bind_eq_ok h
    obtain rfl := eq_of_ite_eq_ok hfactor
    obtain rfl := Except.ok.inj h
    exact ⟨rfl, rfl, rfl⟩
  | pvSystem c =>
    obtain ⟨_, hdaylight, h⟩ := exists_of_bind_eq_ok h
    obtain rfl := eq_of_ite_eq_ok hdaylight
    obtain rfl := Except.ok.inj h
    exact ⟨rfl, rfl, rfl⟩
  | battery c =>
    obtain ⟨_, hnew, h⟩ := exists_of_bind_eq_ok h
    obtain ⟨_, hefficiency, h⟩ := exists_of_bind_eq_ok h
    obtain rfl := eq_of_ite_eq_ok hnew
    obtain rfl := eq_of_ite_eq_ok hefficiency
    obtain rfl := Except.ok.inj h
    exact ⟨rfl, rfl, rfl⟩
  | evCharger c =>
    obtain ⟨d', hnew, h⟩ := exists_of_bind_eq_ok h
    unfold EvCharger.new at hnew
    split at hnew
    · obtain ⟨_, -, hnew⟩ := exists_of_bind_eq_ok hnew
      obtain rfl := Except.ok.inj hnew
      obtain rfl := Except.ok.inj h
      exact ⟨rfl, rfl, rfl⟩
    · exact nomatch hnew
  | chp c =>
    obtain ⟨_, hhysteresis, h⟩ := exists_of_bind_eq_ok h
    obtain rfl := eq_of_ite_eq_ok hhysteresis
    obtain rfl := Except.ok.inj h
    exact ⟨rfl, rfl, rfl⟩
  | hotWaterTank c =>
    obtain ⟨_, hnew, h⟩ := exists_of_bind_eq_ok h
    obtain rfl := eq_of_ite_eq_ok hnew
    obtain rfl := Except.ok.inj h
    exact ⟨rfl, rfl, rfl⟩
  | hotWaterDemand c =>
    obtain rfl := Except.ok.inj h
    exact ⟨rfl, rfl, rfl⟩

theorem map_device_of_devices {c : Config α} {parts : List (Device α)} (h : devices c = .ok parts) :
    (parts.map fun d => d.timing.device) = c.deviceIds := by
  rw [Config.deviceIds, identities, List.map_map]
  exact map_eq_of_mapM_eq_ok (fun _ _ hd => (device_timing hd).1) h

/-- The devices of a scenario are optimized over the time of the configuration. -/
theorem timing_of_devices {c : Config α} {parts : List (Device α)} (h : devices c = .ok parts) :
    ∀ d ∈ parts, d.timing.referenceTime = c.optimization.referenceTime ∧
      d.timing.horizon = c.optimization.horizon := by
  have hreference : (parts.map fun d => d.timing.referenceTime)
      = c.devices.zipIdx.map fun _ => c.optimization.referenceTime :=
    map_eq_of_mapM_eq_ok (fun _ _ hd => (device_timing hd).2.1) h
  have hhorizon : (parts.map fun d => d.timing.horizon)
      = c.devices.zipIdx.map fun _ => c.optimization.horizon :=
    map_eq_of_mapM_eq_ok (fun _ _ hd => (device_timing hd).2.2) h
  intro d hd
  obtain ⟨_, -, hr⟩ := List.mem_map.mp (hreference ▸ List.mem_map_of_mem hd)
  obtain ⟨_, -, he⟩ := List.mem_map.mp (hhorizon ▸ List.mem_map_of_mem hd)
  exact ⟨hr.symm, he.symm⟩

omit [Transcendental α] in
theorem topology_electricalGrid {devices : List (String × DeviceId)} {e : GridConfig} {g : Grid α}
    (h : electricalGrid devices e = .ok g) : g.topology = topology devices 0 e := by
  obtain ⟨grid, hnew, rfl⟩ := exists_of_map_eq_ok h
  obtain ⟨_, -, hnew⟩ := exists_of_bind_eq_ok hnew
  obtain rfl := Except.ok.inj hnew
  rfl

omit [Transcendental α] in
theorem topology_thermalGrid {devices : List (String × DeviceId)} {firstMeter : Nat} {t : GridConfig}
    {g : Grid α} (h : thermalGrid devices firstMeter t = .ok g) :
    g.topology = topology devices firstMeter t := by
  obtain ⟨grid, hnew, rfl⟩ := exists_of_map_eq_ok h
  unfold ThermalGrid.new at hnew
  split at hnew
  · obtain ⟨_, -, hnew⟩ := exists_of_bind_eq_ok hnew
    obtain rfl := Except.ok.inj hnew
    rfl
  · cases hnew

omit [Transcendental α] in
/-- The topologies of a scenario are those of the configured grids. -/
theorem topologies_eq {c : Config α} {gs : List (Grid α)}
    (h : grids α (identities c.devices) c.grid = .ok gs) :
    gs.map Grid.topology = c.placedGrids.map fun g => topology (identities c.devices) g.1 g.2 := by
  rw [grids_eq] at h
  obtain ⟨electrical, helectrical, h⟩ := exists_of_bind_eq_ok h
  obtain ⟨thermal, hthermal, h⟩ := exists_of_bind_eq_ok h
  obtain rfl := Except.ok.inj h
  rw [Config.placedGrids, List.map_append, List.map_append, List.map_map, List.map_map,
    map_eq_of_mapM_eq_ok (fun _ _ hg => topology_electricalGrid hg) helectrical,
    map_eq_of_mapM_eq_ok (fun _ _ hg => topology_thermalGrid hg) hthermal]
  rfl

/-! ### Distinct identities -/

omit [Transcendental α] in
def deviceIds (s : Scenario α) : List DeviceId :=
  s.plan.parts.map fun d => d.timing.device

omit [Transcendental α] in
def meterIds (s : Scenario α) : List DeviceId :=
  s.plan.grids.flatMap fun g => g.topology.meters

/-- Meters with names of their own have fresh numbers. -/
theorem meters_topology {c : Config α} (hissues : c.issues = []) {g : Nat × GridConfig}
    (hg : g ∈ c.placedGrids) (hmeters : (g.2.meters.map fun m => m.name).Nodup) :
    (topology (identities c.devices) g.1 g.2).meters
      = (List.range g.2.meters.length).map fun j => meterId (g.1 + j) := by
  refine List.ext_getElem? fun j => ?_
  show (g.2.meters.map fun m => resolve (identities c.devices) (meterNames g) m.name)[j]? = _
  rw [List.getElem?_map, List.getElem?_map]
  cases hm : g.2.meters[j]? with
  | none => rw [List.getElem?_eq_none (by simpa using hm)]; rfl
  | some m =>
    rw [List.getElem?_range (List.getElem?_eq_some_iff.mp hm).1]
    have hknown : m.name ∈ g.2.meters.map fun m => m.name :=
      List.mem_map.mpr ⟨m, List.mem_of_getElem? hm, rfl⟩
    exact congrArg some (c.calls_rightUnique hissues hg hmeters (calls_resolve (Or.inr hknown))
      (Or.inr ⟨j, m, hm, rfl, rfl⟩))

theorem meterIds_eq {c : Config α} {s : Scenario α} (h : ofConfig c = .ok s) :
    s.meterIds = c.placedGrids.flatMap fun g => (topology (identities c.devices) g.1 g.2).meters := by
  have htopologies := topologies_eq (ofConfig_eq_ok h).2.2.1
  rw [meterIds, ← List.flatMap_map, htopologies, List.flatMap_map]

theorem meterIds_of_names {c : Config α} {s : Scenario α} (h : ofConfig c = .ok s)
    (hmeters : ∀ g ∈ c.placedGrids, (g.2.meters.map fun m => m.name).Nodup) :
    s.meterIds = (List.range c.meterCount).map meterId := by
  rw [meterIds_eq h, ← c.meterNumbers_eq, List.map_flatMap]
  refine List.flatMap_congr fun g hg => ?_
  rw [meters_topology (ofConfig_eq_ok h).1 hg (hmeters g hg), List.map_map]
  rfl

/-- A scenario that knows its devices and meters as its configuration names them. -/
structure Resolves (s : Scenario α) (c : Config α) : Prop where
  names : s.names.entries.Perm (c.deviceIds.zip (c.devices.map fun d => d.name))
  meters : s.meterIds = (List.range c.meterCount).map meterId
  calls : ∀ g ∈ c.placedGrids, Relator.BiUnique (c.Calls g)
  grids : List.Forall₂ (fun g t => t.Realizes (c.Calls g) g.2) c.placedGrids
    (s.plan.grids.map Grid.topology)

theorem resolves_of_distinguished {c : Config α} {s : Scenario α} (h : ofConfig c = .ok s)
    (hcount : c.meterCount < UInt64.size) (hc : c.Distinguished) : s.Resolves c where
  names := by
    rw [(ofConfig_eq_ok h).2.2.2.1]
    have hentries : ((identities c.devices).map fun e => (e.2, e.1))
        = c.deviceIds.zip (c.devices.map fun d => d.name) := by
      rw [← map_fst_identities, Config.deviceIds, List.zip_map']
    rw [← hentries]
    refine DeviceNames.ofList_perm ?_
    rw [List.map_map]
    exact hc.devices
  meters := meterIds_of_names h hc.meters
  calls := fun _ hg => c.calls_biUnique (ofConfig_eq_ok h).1 hc hcount hg
  grids := by
    rw [topologies_eq (ofConfig_eq_ok h).2.2.1]
    refine List.forall₂_map_right_iff.mpr (List.forall₂_same.mpr fun g hg => ?_)
    exact realizes_topology ((Config.names_of_issues (ofConfig_eq_ok h).1).2 g hg)

/-- The identities of a scenario are distinct if its configuration is distinguished. -/
theorem nodup_of_distinguished {c : Config α} {s : Scenario α} (h : ofConfig c = .ok s)
    (hcount : c.meterCount < UInt64.size) (hc : c.Distinguished) :
    (s.deviceIds ++ s.meterIds).Nodup := by
  rw [deviceIds, map_device_of_devices (ofConfig_eq_ok h).2.1, meterIds_of_names h hc.meters]
  refine List.nodup_append.mpr ⟨hc.devices, ?_, ?_⟩
  · refine List.Nodup.map_on ?_ List.nodup_range
    intro i hi j hj hij
    rw [List.mem_range] at hi hj
    exact meterId_inj (by omega) (by omega) hij
  · intro d hd m hm
    obtain ⟨j, hj, rfl⟩ := List.mem_map.mp hm
    exact hc.apart d hd j (List.mem_range.mp hj)

/-- Meters of one name have one identity, so that distinct identities need distinct names. -/
theorem distinguished_of_nodup {c : Config α} {s : Scenario α} (h : ofConfig c = .ok s)
    (hnodup : (s.deviceIds ++ s.meterIds).Nodup) : c.Distinguished := by
  rw [deviceIds, map_device_of_devices (ofConfig_eq_ok h).2.1] at hnodup
  obtain ⟨hdevices, hmeters, hapart⟩ := List.nodup_append.mp hnodup
  have hnames : ∀ g ∈ c.placedGrids, (g.2.meters.map fun m => m.name).Nodup := by
    intro g hg
    rw [meterIds_eq h] at hmeters
    have hgrid := (List.nodup_flatMap.mp hmeters).1 g hg
    refine List.Nodup.of_map (resolve (identities c.devices) (meterNames g)) ?_
    rw [List.map_map]
    exact hgrid
  refine ⟨hdevices, ?_, hnames⟩
  intro d hd j hj
  refine hapart d hd (meterId j) ?_
  rw [meterIds_of_names h hnames]
  exact List.mem_map.mpr ⟨j, List.mem_range.mpr hj, rfl⟩

end Scenario

/-- **The identities of a scenario are distinct exactly if its configuration is distinguished**, and then the
scenario knows all devices and meters as they are named. -/
theorem identities_nodup_iff {α : Type} [Transcendental α] {c : Config α} {s : Scenario α}
    (h : Scenario.ofConfig c = .ok s) (hcount : c.meterCount < UInt64.size) :
    ((s.deviceIds ++ s.meterIds).Nodup ↔ c.Distinguished) ∧ (c.Distinguished → s.Resolves c) :=
  ⟨⟨Scenario.distinguished_of_nodup h, Scenario.nodup_of_distinguished h hcount⟩,
    Scenario.resolves_of_distinguished h hcount⟩

/-- The household with a heat and power unit is distinguished: its scenario knows devices and meters by distinct
identities. -/
theorem identities_nodup_iff_chpHousehold :
    ∃ s, Scenario.ofConfig (Config.chpHousehold : Config Double) = .ok s ∧
      (Config.chpHousehold : Config Double).meterCount < UInt64.size ∧
      (s.deviceIds ++ s.meterIds).Nodup ∧ s.Resolves (Config.chpHousehold : Config Double) := by
  have hbuilds : (match Scenario.ofConfig (Config.chpHousehold : Config Double) with
    | .ok _ => true
    | .error _ => false) = true := by decide +kernel
  have hcount : (Config.chpHousehold : Config Double).meterCount < UInt64.size := by decide
  have hdistinguished : (Config.chpHousehold : Config Double).Distinguished := by
    refine Config.distinguished_of_positional ?_ (by decide) hcount (by decide)
    simp [Config.chpHousehold, Config.household, Config.named]
  cases hscenario : Scenario.ofConfig (Config.chpHousehold : Config Double) with
  | error e =>
    rw [hscenario] at hbuilds
    exact absurd hbuilds Bool.false_ne_true
  | ok s =>
    obtain ⟨hiff, hresolves⟩ := identities_nodup_iff hscenario hcount
    exact ⟨s, rfl, hcount, hiff.mpr hdistinguished, hresolves hdistinguished⟩

/-- Two roofs, each behind a meter of its own, but both meters of one name. -/
def Config.twinMeters : Config Double :=
  { Config.empty with
    algorithms := [.random .default]
    devices := [Config.named "east" (.pvSystem .default), Config.named "west" (.pvSystem .default)]
    grid :=
      { electrical := some
          { meters :=
              [{ MeterConfig.default with name := "house", pv := ["east"] },
                { MeterConfig.default with name := "house", pv := ["west"] }]
            relations := []
            fastPath := true }
        thermal := none } }

/-- **A scenario that breaks no constraint can give two meters one identity.** -/
theorem twinMeters_confused :
    ∃ s, Scenario.ofConfig Config.twinMeters = .ok s ∧ ¬ (s.deviceIds ++ s.meterIds).Nodup := by
  have hbuilds : (match Scenario.ofConfig Config.twinMeters with
    | .ok _ => true
    | .error _ => false) = true := by decide +kernel
  cases hscenario : Scenario.ofConfig Config.twinMeters with
  | error e =>
    rw [hscenario] at hbuilds
    exact absurd hbuilds Bool.false_ne_true
  | ok s =>
    refine ⟨s, rfl, fun hnodup => ?_⟩
    have hnames := (Scenario.distinguished_of_nodup hscenario hnodup).meters _ (List.mem_singleton_self _)
    exact absurd hnames (by decide)

end HomeEnergy

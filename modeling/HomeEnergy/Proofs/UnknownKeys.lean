import HomeEnergy.Program
import Mathlib

/-!
# Keys that a scenario does not define

Which keys may stand in which table of a scenario file is said by a schema, apart from how the tables are
read.

* `Schema.scenario` is the schema of a scenario. `Schema.At` finds the values that stand at its places, in
  tables and in lists of fields, and `Schema.Undefined` the keys of a table that its schema does not define.
  In a variant these depend on the shape that the table selects.
* A value without such a key at any place is clean (`Schema.Clean`). What the readers of a scenario accept is
  clean, one reader at a time, with one exception.
* The ranking is read as if a key that it does not define were not there (`Config.ranking?_erase`).

So a key that is not defined makes a document a refused one exactly where it does not stand in the ranking
(`unknown_key_refused_or_ignored`).
-/

namespace HomeEnergy

open Toml

/-- What may stand at a place of a scenario file. -/
inductive Schema where
  | plain
  | record (fields : List (String × Schema))
  | list (item : Schema)
  -- the key that selects the shape, the keys of all shapes, and those of each shape
  | variant (tag : String) (common : List String) (shapes : List (String × List String))

namespace Schema

def flat (names : List String) : Schema := .record (names.map fun name => (name, .plain))

/-! ### The tables of a scenario -/

def optimization : Schema :=
  flat ["reference_time", "horizon", "step_size", "optimization_start", "multithreaded", "seed"]

def ranking : Schema :=
  .variant "strategy" []
    [("dominance", []), ("single_objective", ["index"]), ("weighted_sum", ["weights"]),
      ("chebyshev", ["weights"]), ("nash_bargaining", [])]

/-- A search. -/
def algorithm : Schema :=
  .variant "kind" []
    [("genetic", ["encoding", "population_size", "generations", "max_evaluations", "crossover_rate",
        "mutation_rate", "mutation_sigma", "tournament_size", "elitism", "seed", "threads"]),
      ("random", ["encoding", "samples", "seed"])]

def fitness : Schema := flat ["limit_penalty_per_kwh"]

/-- The kinds of devices and their parameters. -/
def deviceShapes : List (String × List String) :=
  [("base_load", ["base_w", "amp_w", "phase_rad", "noise_std_w", "power_factor", "completely_static"]),
    ("pv_system", ["peak_w", "sunrise_s", "sunset_s", "noise_std"]),
    ("battery", ["mode", "capacity_wh", "initial_soc", "max_charge_w", "max_discharge_w", "eta_charge",
      "eta_discharge", "penalty_per_kwh"]),
    ("ev_charger", ["max_charge_w", "demand_wh_min", "demand_wh_max", "dwell_steps_min",
      "dwell_steps_max", "penalty_per_kwh"]),
    ("chp", ["electrical_w", "thermal_w", "gas_w", "on_below_c", "off_above_c", "max_temp_c",
      "start_cost"]),
    ("hot_water_tank", ["volume_l", "initial_temp_c", "ambient_temp_c", "loss_w_per_k", "min_temp_c",
      "penalty_per_kelvin_hour"]),
    ("hot_water_demand", ["daily_energy_wh"])]

def device : Schema := .variant "kind" ["name", "id"] deviceShapes

def meter : Schema := flat ["name", "pv", "chp", "battery"]

def relation : Schema := flat ["active", "passive", "commodity", "back"]

def grid : Schema :=
  .record [("meters", .list meter), ("relations", .list relation), ("fast_path", .plain)]

def grids : Schema := .record [("electrical", grid), ("thermal", grid)]

def priceWindow : Schema := flat ["start", "end", "price"]

def price : Schema := .record [("commodity", .plain), ("default", .plain), ("windows", .list priceWindow)]

def limitWindow : Schema := flat ["start", "end", "lower", "upper"]

def limit : Schema := .record [("commodity", .plain), ("windows", .list limitWindow)]

def scenarioFields : List (String × Schema) :=
  [("optimization", optimization), ("ranking", ranking), ("algorithms", .list algorithm),
    ("fitness", fitness), ("devices", .list device), ("grid", grids), ("prices", .list price),
    ("limits", .list limit)]

def scenario : Schema := .record scenarioFields

/-! ### Places -/

inductive Step where
  | field (name : String)
  | item (i : Nat)
deriving DecidableEq

end Schema

namespace Toml.Value

/-- The field of a record with the named fields, which is a table or the list of its fields. -/
def field? (names : List String) (name : String) : Value → Option Value
  | table _ es => Entries.get? es name
  | v => v.items?.bind fun items => Entries.get? (names.zip items) name

end Toml.Value

namespace Schema

/-- The values at the places of a schema: the path of a place, what the schema says of it and what stands
there. -/
inductive At : Schema → Value → List Step → Schema → Value → Prop where
  | here (s : Schema) (v : Value) : At s v [] s v
  | field {fields : List (String × Schema)} {v w x : Value} {name : String} {s t : Schema} {path : List Step}
      (hs : (name, s) ∈ fields) (hw : v.field? (fields.map Prod.fst) name = some w) (h : At s w path t x) :
      At (.record fields) v (.field name :: path) t x
  | item {s t : Schema} {v w x : Value} {items : List Value} {i : Nat} {path : List Step}
      (hv : v.items? = some items) (hw : items[i]? = some w) (h : At s w path t x) :
      At (.list s) v (.item i :: path) t x

/-- The keys that a table may have; none where no table has keys of its own. -/
def keys? : Schema → Entries → Option (List String)
  | .record fields, _ => some (fields.map Prod.fst)
  | .variant tag common shapes, es =>
    some (tag :: common ++ (((es.get? tag).bind Value.text?).bind fun shape => shapes.lookup shape).getD [])
  | _, _ => none

/-- A key of a table that its schema does not define. -/
def Undefined (s : Schema) (v : Value) (name : String) : Prop :=
  ∃ kind es keys, v = .table kind es ∧ s.keys? es = some keys ∧ name ∈ es.map Prod.fst ∧ name ∉ keys

def Clean (s : Schema) (v : Value) : Prop :=
  ∀ ⦃path : List Step⦄ ⦃t : Schema⦄ ⦃w : Value⦄ ⦃name : String⦄, At s v path t w → ¬ Undefined t w name

end Schema

/-! ### Entries -/

namespace Toml

namespace Entries

variable {es : Entries} {name other : String} {v : Value}

theorem get?_erase (h : other ≠ name) : (es.erase name).get? other = es.get? other := by
  unfold get? erase
  rw [List.find?_filter]
  congr 2
  funext e
  by_cases he : e.1 = other
  · simp [he, h]
  · simp [he]

theorem get?_put_ne (h : other ≠ name) : (es.put name v).get? other = es.get? other := by
  induction es with
  | nil => simp [put, get?, h.symm]
  | cons e es ih =>
    unfold get? at ih ⊢
    by_cases he : e.1 = name
    · simp [put, he, h.symm]
    · by_cases ho : e.1 = other
      · simp [put, ho, h]
      · simpa [put, List.find?_cons, he, ho] using ih

theorem get?_put_self : (es.put name v).get? name = some v := by
  induction es with
  | nil => simp [put, get?]
  | cons e es ih =>
    unfold get? at ih ⊢
    by_cases he : e.1 = name
    · simp [put, he]
    · simpa [put, List.find?_cons, he] using ih

theorem map_fst_put (h : (es.get? name).isSome) : (es.put name v).map Prod.fst = es.map Prod.fst := by
  induction es with
  | nil => simp [get?] at h
  | cons e es ih =>
    by_cases he : e.1 = name
    · simp [put, he]
    · have hes : (get? es name).isSome := by simpa [get?, List.find?_cons, he] using h
      simpa [put, he] using ih hes

theorem mem_map_fst_erase (h : other ∈ es.map Prod.fst) (hne : other ≠ name) :
    other ∈ (es.erase name).map Prod.fst := by
  obtain ⟨e, he, rfl⟩ := List.mem_map.mp h
  exact List.mem_map.mpr ⟨e, List.mem_filter.mpr ⟨he, by simpa using hne⟩, rfl⟩

variable {β : Type} {read : Value → Option β}

theorem field_put_ne {default : β} (h : other ≠ name) :
    (es.put name v).field other read default = es.field other read default := by
  rw [field, get?_put_ne h, field]

theorem read_of_field {x default : β} (h : es.field name read default = some x)
    (hv : es.get? name = some v) : read v = some x := by
  simpa [field, hv] using h

theorem read_of_optionalField {x? : Option β} (h : es.optionalField name read = some x?)
    (hv : es.get? name = some v) : ∃ x, read v = some x := by
  have hread : (read v).map some = some x? := by simpa [optionalField, hv] using h
  obtain ⟨x, hx, -⟩ := Option.map_eq_some_iff.mp hread
  exact ⟨x, hx⟩

end Entries

namespace Value

variable {β : Type} {v : Value} {place : Place} {names : List String} {es : Entries}

theorem eq_of_record? {kind : TableKind} {fields : Entries}
    (h : (Value.table kind fields).record? place names = some es) : fields = es := by
  rw [record?] at h
  exact Option.some.inj (Option.ite_none_right_eq_some.mp h).2

/-- The entries that are read off a record are its fields. -/
theorem get?_of_record? (h : v.record? place names = some es) (name : String) :
    es.get? name = v.field? names name := by
  cases v with
  | table kind fields =>
    rw [eq_of_record? h]
    rfl
  | _ =>
    simp only [record?, Option.bind_eq_bind, Option.bind_eq_some_iff] at h
    obtain ⟨items, hitems, h⟩ := h
    obtain rfl : names.zip items = es := Option.some.inj (Option.ite_none_left_eq_some.mp h).2
    simp [field?, hitems]

theorem mem_of_record? {kind : TableKind} {fields : Entries} {name : String}
    (h : (Value.table kind fields).record? place names = some es) (hname : name ∈ fields.map Prod.fst) :
    name ∈ names := by
  rw [record?] at h
  have hall := (Option.ite_none_right_eq_some.mp h).1
  obtain ⟨e, he, rfl⟩ := List.mem_map.mp hname
  simpa using List.all_eq_true.mp hall e he

theorem variant?_of_table {kind : TableKind} {fields : Entries} {tag : String} :
    (Value.table kind fields).variant? tag =
      ((fields.get? tag).bind text?).map fun shape => (shape, .table kind (fields.erase tag)) := by
  rw [Option.map_bind]
  refine Option.bind_congr fun w _ => ?_
  cases w <;> rfl

/-- The table of a variant selects a shape and holds the record of it besides. -/
theorem variant?_table {kind : TableKind} {fields : Entries} {tag shape : String} {rest : Value}
    (h : (Value.table kind fields).variant? tag = some (shape, rest)) :
    fields.get? tag = some (.string shape) ∧ rest = .table kind (fields.erase tag) := by
  rw [variant?_of_table, Option.map_eq_some_iff] at h
  obtain ⟨_, h, ⟨⟩⟩ := h
  obtain ⟨w, hw, htext⟩ := Option.bind_eq_some_iff.mp h
  cases w <;> simp only [text?, Option.some.injEq, reduceCtorEq] at htext
  exact ⟨htext ▸ hw, rfl⟩

theorem mem_of_variant? {kind : TableKind} {fields : Entries} {tag shape name : String} {rest : Value}
    (h : (Value.table kind fields).variant? tag = some (shape, rest)) (hrest : rest.record? place names = some es)
    (hname : name ∈ fields.map Prod.fst) : name = tag ∨ name ∈ names := by
  obtain ⟨-, rfl⟩ := variant?_table h
  by_cases htag : name = tag
  · exact .inl htag
  · exact .inr (mem_of_record? hrest (Entries.mem_map_fst_erase hname htag))

/-- A list is only accepted if all its items are. -/
theorem item_of_mapM {α : Type} {read : α → Option β} {items : List α} {xs : List β} {w : α}
    (h : items.mapM read = some xs) (hw : w ∈ items) : ∃ x, read w = some x := by
  induction items generalizing xs with
  | nil => simp at hw
  | cons item items ih =>
    rw [List.mapM_cons] at h
    obtain ⟨x, hx, h⟩ := Option.bind_eq_some_iff.mp h
    obtain ⟨rest, hrest, -⟩ := Option.bind_eq_some_iff.mp h
    cases hw with
    | head => exact ⟨x, hx⟩
    | tail _ hw => exact ih hrest hw

end Value

end Toml

namespace Schema

variable {v : Value}

/-! ### Clean values -/

theorem Clean.plain : Clean .plain v := by
  intro path t w name hat hname
  cases hat
  obtain ⟨kind, es, keys, -, hkeys, -⟩ := hname
  cases hkeys

/-- A record is clean if its table has no other keys and its fields are clean. -/
theorem Clean.record {place : Place} {fields : List (String × Schema)} {es : Entries}
    (hes : v.record? place (fields.map Prod.fst) = some es)
    (hfields : ∀ f ∈ fields, ∀ w, es.get? f.1 = some w → Clean f.2 w) : Clean (.record fields) v := by
  intro path t w name hat hname
  cases hat with
  | here =>
    obtain ⟨kind, entries, keys, rfl, hkeys, hmem, hnot⟩ := hname
    cases hkeys
    exact hnot (Value.mem_of_record? hes hmem)
  | field hs hw h => exact hfields _ hs _ ((Value.get?_of_record? hes _).trans hw) h hname

theorem Clean.flat {β : Type} {place : Place} {names : List String} {read : Entries → Option β} {x : β}
    (h : (v.record? place names).bind read = some x) : Clean (flat names) v := by
  obtain ⟨es, hes, -⟩ := Option.bind_eq_some_iff.mp h
  have hnames : (names.map fun name => (name, Schema.plain)).map Prod.fst = names := by
    simp [Function.comp_def]
  refine Clean.record (hnames.symm ▸ hes) fun f hf w _ => ?_
  obtain ⟨name, -, rfl⟩ := List.mem_map.mp hf
  exact Clean.plain

theorem Clean.list {β : Type} {s : Schema} {read : Value → Option β} {xs : List β}
    (h : v.listOf? read = some xs) (hread : ∀ {w x}, read w = some x → Clean s w) : Clean (.list s) v := by
  obtain ⟨items, hitems, h⟩ := Option.bind_eq_some_iff.mp h
  intro path t w name hat hname
  cases hat with
  | here =>
    obtain ⟨kind, entries, keys, -, hkeys, -⟩ := hname
    cases hkeys
  | item hv hw hat =>
    obtain rfl := Option.some.inj (hv.symm.trans hitems)
    obtain ⟨x, hx⟩ := Value.item_of_mapM h (List.mem_of_getElem? hw)
    exact hread hx hat hname

/-- A variant is clean if its table selects a shape and has no keys but those of the shape. -/
theorem Clean.variant {tag : String} {common : List String} {shapes : List (String × List String)}
    (h : ∀ kind (es : Entries), v = .table kind es → ∃ shape names, es.get? tag = some (.string shape) ∧
      shapes.lookup shape = some names ∧
      ∀ name ∈ es.map Prod.fst, name = tag ∨ name ∈ common ∨ name ∈ names) :
    Clean (.variant tag common shapes) v := by
  intro path t w name hat hname
  cases hat
  obtain ⟨kind, es, keys, rfl, hkeys, hmem, hnot⟩ := hname
  obtain ⟨shape, names, htag, hshape, hall⟩ := h kind es rfl
  obtain rfl : tag :: common ++ names = keys := by simpa [keys?, htag, Value.text?, hshape] using hkeys
  exact hnot (by simpa using hall name hmem)

/-! ### What the readers accept is clean -/

theorem clean_grid {c : GridConfig} (h : Config.grid? v = some c) : Clean grid v := by
  simp only [Config.grid?, Option.bind_eq_bind, Option.bind_eq_some_iff] at h
  obtain ⟨es, hes, meters, hmeters, relations, hrelations, -⟩ := h
  refine Clean.record hes fun f hf w hw => ?_
  simp only [List.mem_cons, List.not_mem_nil, or_false] at hf
  obtain rfl | rfl | rfl := hf
  · exact Clean.list (Entries.read_of_field hmeters hw) Clean.flat
  · exact Clean.list (Entries.read_of_field hrelations hw) Clean.flat
  · exact Clean.plain

theorem clean_grids {c : GridsConfig} (h : Config.grids? v = some c) : Clean grids v := by
  simp only [Config.grids?, Option.bind_eq_bind, Option.bind_eq_some_iff] at h
  obtain ⟨es, hes, electrical, helectrical, thermal, hthermal, -⟩ := h
  refine Clean.record hes fun f hf w hw => ?_
  simp only [List.mem_cons, List.not_mem_nil, or_false] at hf
  obtain rfl | rfl := hf
  · obtain ⟨g, hg⟩ := Entries.read_of_optionalField helectrical hw
    exact clean_grid hg
  · obtain ⟨g, hg⟩ := Entries.read_of_optionalField hthermal hw
    exact clean_grid hg

theorem clean_price {c : PriceConfig Double} (h : Config.price? v = some c) : Clean price v := by
  simp only [Config.price?, Option.bind_eq_bind, Option.bind_eq_some_iff] at h
  obtain ⟨es, hes, quantity, -, default, -, windows, hwindows, -⟩ := h
  refine Clean.record hes fun f hf w hw => ?_
  simp only [List.mem_cons, List.not_mem_nil, or_false] at hf
  obtain rfl | rfl | rfl := hf
  · exact Clean.plain
  · exact Clean.plain
  · exact Clean.list (Entries.read_of_field hwindows hw) Clean.flat

theorem clean_limit {c : LimitConfig Double} (h : Config.limit? v = some c) : Clean limit v := by
  simp only [Config.limit?, Option.bind_eq_bind, Option.bind_eq_some_iff] at h
  obtain ⟨es, hes, quantity, -, windows, hwindows, -⟩ := h
  refine Clean.record hes fun f hf w hw => ?_
  simp only [List.mem_cons, List.not_mem_nil, or_false] at hf
  obtain rfl | rfl := hf
  · exact Clean.plain
  · exact Clean.list (Entries.read_of_field hwindows hw) Clean.flat

theorem clean_algorithm {c : Search Double} (h : Config.algorithm? v = some c) : Clean algorithm v := by
  refine Clean.variant fun kind es hv => ?_
  subst hv
  simp only [Config.algorithm?, Option.bind_eq_bind, Option.bind_eq_some_iff] at h
  obtain ⟨⟨shape, rest⟩, hshape, h⟩ := h
  have htag := (Value.variant?_table hshape).1
  dsimp only at h
  split at h
  case h_3 => cases h
  all_goals
    obtain ⟨params, hparams, -⟩ := Option.bind_eq_some_iff.mp h
    obtain ⟨own, hown, -⟩ := Option.bind_eq_some_iff.mp hparams
    exact ⟨_, _, htag, rfl, fun name hname => (Value.mem_of_variant? hshape hown hname).imp_right .inr⟩

/-- A model of a device is read off the record of its kind. -/
theorem record?_of_model? {shape : String} {rest : Value} {m : DeviceModel Double}
    (h : Config.model? shape rest = some m) :
    ∃ names es, deviceShapes.lookup shape = some names ∧ rest.record? .variant names = some es := by
  unfold Config.model? at h
  split at h
  case h_8 => cases h
  all_goals
    obtain ⟨params, hparams, -⟩ := Option.map_eq_some_iff.mp h
    obtain ⟨es, hes, -⟩ := Option.bind_eq_some_iff.mp hparams
    exact ⟨_, es, rfl, hes⟩

theorem clean_device {c : DeviceConfig Double} (h : Config.device? v = some c) : Clean device v := by
  refine Clean.variant fun kind es hv => ?_
  subst hv
  simp only [Config.device?, Option.bind_eq_bind, Option.bind_eq_some_iff] at h
  obtain ⟨name, -, id?, -, ⟨shape, rest⟩, hshape, model, hmodel, -⟩ := h
  obtain ⟨names, own, hnames, hown⟩ := record?_of_model? hmodel
  have htag := (Value.variant?_table hshape).1
  rw [Entries.get?_erase (by decide), Entries.get?_erase (by decide)] at htag
  refine ⟨shape, names, htag, hnames, fun key hkey => ?_⟩
  by_cases hcommon : key ∈ ["name", "id"]
  · exact .inr (.inl hcommon)
  · obtain ⟨hname, hid⟩ : key ≠ "name" ∧ key ≠ "id" := by simpa using hcommon
    have hrest := Entries.mem_map_fst_erase (Entries.mem_map_fst_erase hkey hname) hid
    exact (Value.mem_of_variant? hshape hown hrest).imp_right .inr

/-- Of what a scenario is made of, only the ranking may have undefined keys. -/
theorem eq_ranking_of_undefined {c : Config Double} {path : List Step} {s : Schema} {w : Value} {name : String}
    (h : Config.ofValue? v = some c) (hat : At scenario v path s w) (hname : Undefined s w name) :
    path = [.field "ranking"] := by
  simp only [Config.ofValue?, Option.bind_eq_bind, Option.bind_eq_some_iff] at h
  obtain ⟨es, hes, _, hoptimization, _, -, _, halgorithms, _, hfitness, _, hdevices, _, hgrid, _, hprices,
    _, hlimits, -⟩ := h
  cases hat with
  | here =>
    obtain ⟨kind, entries, keys, rfl, hkeys, hmem, hnot⟩ := hname
    cases hkeys
    exact (hnot (Value.mem_of_record? hes hmem)).elim
  | @field _ _ x _ key _ _ path hs hw hat =>
    have hx : es.get? key = some x := (Value.get?_of_record? hes _).trans hw
    simp only [scenarioFields, List.mem_cons, List.not_mem_nil, or_false, Prod.mk.injEq] at hs
    obtain ⟨rfl, rfl⟩ | ⟨rfl, rfl⟩ | ⟨rfl, rfl⟩ | ⟨rfl, rfl⟩ | ⟨rfl, rfl⟩ | ⟨rfl, rfl⟩ | ⟨rfl, rfl⟩ |
      ⟨rfl, rfl⟩ := hs
    · exact (Clean.flat (Entries.read_of_field hoptimization hx) hat hname).elim
    · -- a variant has no place but its own
      cases hat
      rfl
    · exact (Clean.list (Entries.read_of_field halgorithms hx) clean_algorithm hat hname).elim
    · exact (Clean.flat (Entries.read_of_field hfitness hx) hat hname).elim
    · exact (Clean.list (Entries.read_of_field hdevices hx) clean_device hat hname).elim
    · exact (clean_grids (Entries.read_of_field hgrid hx) hat hname).elim
    · exact (Clean.list (Entries.read_of_field hprices hx) clean_price hat hname).elim
    · exact (Clean.list (Entries.read_of_field hlimits hx) clean_limit hat hname).elim

/-! ### The ranking -/

/-- A key that a ranking does not define makes no difference to it. -/
theorem ranking?_erase {kind : TableKind} {es : Entries} {name : String}
    (h : Undefined ranking (.table kind es) name) :
    Config.ranking? (.table kind (es.erase name)) = Config.ranking? (.table kind es) := by
  obtain ⟨_, _, keys, ⟨⟩, hkeys, -, hnot⟩ := h
  obtain rfl := Option.some.inj hkeys
  simp only [List.cons_append, List.nil_append, List.mem_cons, not_or] at hnot
  obtain ⟨htag, hown⟩ := hnot
  simp only [Config.ranking?, Value.variant?_of_table, Entries.get?_erase (Ne.symm htag), Option.bind_eq_bind,
    Option.bind_map]
  refine Option.bind_congr fun shape hshape => ?_
  rw [hshape, Option.bind_some] at hown
  have hget : ∀ key, name ≠ key → key ≠ "strategy" →
      ((es.erase name).erase "strategy").get? key = (es.erase "strategy").get? key := by
    intro key hname hkey
    rw [Entries.get?_erase hkey, Entries.get?_erase hname.symm, Entries.get?_erase hkey]
  dsimp only [Function.comp_apply, Config.rankingFields?]
  -- The shapes without fields read nothing, and the others the one field that they have.
  split <;> simp only [Option.bind_some, Option.map_some]
  · have hindex : name ≠ "index" := by simpa [List.lookup] using hown
    rw [Entries.field, hget _ hindex (by decide), Entries.field]
  · have hweights : name ≠ "weights" := by simpa [List.lookup] using hown
    rw [Entries.required, hget _ hweights (by decide), Entries.required]
  · have hweights : name ≠ "weights" := by simpa [List.lookup] using hown
    rw [Entries.required, hget _ hweights (by decide), Entries.required]

/-- A scenario stays the same if its ranking is replaced by one that is read in the same way. -/
theorem ofValue?_put {kind : TableKind} {es : Entries} {w x : Value} (hw : es.get? "ranking" = some w)
    (hranking : Config.ranking? x = Config.ranking? w) :
    Config.ofValue? (.table kind (es.put "ranking" x)) = Config.ofValue? (.table kind es) := by
  have hrecord (names : List String) : (Value.table kind (es.put "ranking" x)).record? .plain names =
      ((Value.table kind es).record? .plain names).map fun _ => es.put "ranking" x := by
    have hkeys := Entries.map_fst_put (v := x) (Option.isSome_iff_exists.mpr ⟨w, hw⟩)
    have hall (es : Entries) : (es.all fun e => names.contains e.1) = (es.map Prod.fst).all names.contains := by
      rw [List.all_map]
      rfl
    simp only [Value.record?, hall, hkeys]
    split <;> rfl
  have hself (d : Ranking Double) :
      (es.put "ranking" x).field "ranking" Config.ranking? d = es.field "ranking" Config.ranking? d := by
    rw [Entries.field, Entries.get?_put_self, Entries.field, hw]
    exact hranking
  simp only [Config.ofValue?, hrecord, Option.bind_eq_bind, Option.bind_map]
  refine Option.bind_congr fun fields hfields => ?_
  obtain rfl := Value.eq_of_record? hfields
  simp only [Function.comp_apply, hself, Entries.field_put_ne, ne_eq, String.reduceEq, not_false_eq_true]

end Schema

/-- A key that its table does not define makes a document a refused one, unless it stands in the ranking, where
it makes no difference: the document is then read as the one without the key. -/
theorem unknown_key_refused_or_ignored {text : String} {es : Entries} {path : List Schema.Step} {s : Schema}
    {w : Value} {name : String} (htext : Document.ofString? text = some es)
    (hat : Schema.scenario.At (.table .header es) path s w) (hname : s.Undefined w name) :
    (path ≠ [.field "ranking"] →
      ∃ issue, Program.configOfText text = .error issue ∧ issue.field = "toml") ∧
    (path = [.field "ranking"] → ∃ kind rs, w = .table kind rs ∧ es.get? "ranking" = some w ∧
      ∀ c, Program.configOfText text = .ok c ↔
        Config.ofValue? (.table .header (es.put "ranking" (.table kind (Entries.erase rs name)))) = some c) := by
  have hconfig : Config.ofString? text = Config.ofValue? (.table .header es) := by
    rw [Config.ofString?, htext]
    rfl
  constructor
  · intro hpath
    cases hread : Config.ofValue? (.table .header es) with
    | some c => exact (hpath (Schema.eq_ranking_of_undefined hread hat hname)).elim
    | none => exact ⟨_, by rw [Program.configOfText, hconfig, hread], rfl⟩
  · rintro rfl
    cases hat with
    | field hs hw hat =>
      cases hat
      obtain rfl : s = .ranking := by simpa [Schema.scenarioFields] using hs
      have htable := hname
      obtain ⟨kind, rs, -, rfl, -⟩ := htable
      have hget : es.get? "ranking" = some (.table kind rs) := hw
      refine ⟨kind, rs, rfl, hget, fun c => ?_⟩
      rw [Schema.ofValue?_put hget (Schema.ranking?_erase hname), Program.configOfText, hconfig]
      cases Config.ofValue? (.table .header es) <;> simp

def roofedMeter : String := "[[grid.electrical.meters]]\nname = \"house\"\nroof = []\n"

def roofedMeterEntries : Entries :=
  [("grid", .table .implied [("electrical", .table .implied
    [("meters", .tables [[("name", .string "house"), ("roof", .array [])]])])])]

theorem ofString?_roofedMeter : Document.ofString? roofedMeter = some roofedMeterEntries := by cbv

def misspelledIndex : String := "[ranking]\nstrategy = \"single_objective\"\nindx = 1\n"

def misspelledIndexEntries : Entries :=
  [("ranking", .table .header [("strategy", .string "single_objective"), ("indx", .integer 1)])]

theorem ofString?_misspelledIndex : Document.ofString? misspelledIndex = some misspelledIndexEntries := by cbv

/-- The meter with a roof is refused, and the misspelled number is as good as none. -/
theorem unknown_key_refused_or_ignored_typos :
    (∃ issue, Program.configOfText roofedMeter = .error issue ∧ issue.field = "toml") ∧
    ∀ c, Program.configOfText misspelledIndex = .ok c ↔
      Config.ofValue? (.table .header
        [("ranking", .table .header [("strategy", .string "single_objective")])]) = some c := by
  constructor
  · have hat : Schema.scenario.At (.table .header roofedMeterEntries)
        [.field "grid", .field "electrical", .field "meters", .item 0] .meter
        (.table .header [("name", .string "house"), ("roof", .array [])]) :=
      .field (s := .grids) (by simp [Schema.scenarioFields]) rfl <| .field (s := .grid) (by simp) rfl <|
        .field (s := .list .meter) (by simp) rfl <| .item rfl rfl <| .here _ _
    have hname : Schema.meter.Undefined (.table .header [("name", .string "house"), ("roof", .array [])])
        "roof" := ⟨_, _, _, rfl, rfl, by decide, by decide⟩
    exact (unknown_key_refused_or_ignored ofString?_roofedMeter hat hname).1 (by decide)
  · have hat : Schema.scenario.At (.table .header misspelledIndexEntries) [.field "ranking"] .ranking
        (.table .header [("strategy", .string "single_objective"), ("indx", .integer 1)]) :=
      .field (s := .ranking) (by simp [Schema.scenarioFields]) rfl (.here _ _)
    have hname : Schema.ranking.Undefined
        (.table .header [("strategy", .string "single_objective"), ("indx", .integer 1)]) "indx" :=
      ⟨_, _, _, rfl, rfl, by decide, by decide⟩
    obtain ⟨kind, rs, hw, -, hiff⟩ :=
      (unknown_key_refused_or_ignored ofString?_misspelledIndex hat hname).2 rfl
    cases hw
    exact hiff

/-- The misspelled number is ignored, and the first objective decides. -/
theorem misspelledIndex_ignored :
    (∃ es w, Document.ofString? misspelledIndex = some es ∧
      Schema.scenario.At (.table .header es) [.field "ranking"] .ranking w ∧ Schema.ranking.Undefined w "indx") ∧
    ∃ c, Program.configOfText misspelledIndex = .ok c ∧ c.ranking = .singleObjective 0 := by
  constructor
  · refine ⟨misspelledIndexEntries, _, ofString?_misspelledIndex,
      .field (s := .ranking) (by simp [Schema.scenarioFields]) rfl (.here _ _), ?_⟩
    exact ⟨_, _, _, rfl, rfl, by decide, by decide⟩
  · have hconfig : Config.ofString? misspelledIndex =
        some { (Config.empty : Config Double) with ranking := .singleObjective 0 } := by
      rw [Config.ofString?, ofString?_misspelledIndex]
      rfl
    rw [Program.configOfText, hconfig]
    exact ⟨_, rfl, rfl⟩

end HomeEnergy

import HomeEnergy.Export
import Mathlib

/-!
# Tables read back

A table is written to be read by others. This module has a reader of comma-separated values, and says that it finds
in a table the records that were written, whatever texts they hold.

* `Csv.Reading.step` — the reader, one character at a time. A quote opens a field in quotes if it is the first
  character of the field, and stands for itself if it is doubled in there; elsewhere it is refused. A record ends
  with a line feed.
* `Csv.Reading.run_field` — a field that was written is read back, up to the comma or the line feed behind it.
* `Csv.records?_text` — **records that were written are read back.**
* `tables_read_back` — what this says of the tables of schedules and of load profiles.
-/

namespace HomeEnergy

namespace Csv

/-- Where a reader stands in a field. -/
inductive Position where
  | start
  | bare
  | quoted
  -- behind a quote that ends the field unless another one follows
  | closing
deriving DecidableEq, Repr

/-- What a reader has read. -/
structure Reading where
  position : Position
  chars : List Char
  fields : List (List Char)
  records : List (List (List Char))
deriving DecidableEq, Repr

namespace Reading

def before (fields : List (List Char)) (records : List (List (List Char))) : Reading :=
  { position := .start, chars := [], fields, records }

def take (r : Reading) (position : Position) (c : Char) : Reading :=
  { r with position, chars := r.chars ++ [c] }

def separate? (r : Reading) (c : Char) : Option Reading :=
  if c = ',' then some (before (r.fields ++ [r.chars]) r.records)
  else if c = '\n' then some (before [] (r.records ++ [r.fields ++ [r.chars]]))
  else none

/-- Reads a character. -/
def step (r : Reading) (c : Char) : Option Reading :=
  match r.position with
  | .start =>
    if c = '"' then some { r with position := .quoted }
    else some ((r.separate? c).getD (r.take .bare c))
  | .bare => if c = '"' then none else some ((r.separate? c).getD (r.take .bare c))
  | .quoted =>
    if c = '"' then some { r with position := .closing } else some (r.take .quoted c)
  | .closing => if c = '"' then some (r.take .quoted c) else r.separate? c

def run (r : Reading) (cs : List Char) : Option Reading :=
  cs.foldlM step r

/-- The records at the end of a text. The last one may lack its line feed. -/
def finish (r : Reading) : Option (List (List (List Char))) :=
  match r.position, r.fields with
  | .quoted, _ => none
  | .start, [] => some r.records
  | _, fields => some (r.records ++ [fields ++ [r.chars]])

end Reading

def records? (text : String) : Option (List (List String)) := do
  let r ← (Reading.before [] []).run text.toList
  return (← r.finish).map fun fields => fields.map String.ofList

namespace Reading

variable {fields : List (List Char)} {records : List (List (List Char))}

theorem run_append (r : Reading) (cs cs' : List Char) :
    r.run (cs ++ cs') = (r.run cs).bind fun r' => r'.run cs' :=
  List.foldlM_append

theorem run_cons (r : Reading) (c : Char) (cs : List Char) :
    r.run (c :: cs) = (r.step c).bind fun r' => r'.run cs :=
  List.foldlM_cons

theorem separate?_of_not_special {c : Char} (h : isSpecial c = false) (r : Reading) : r.separate? c = none := by
  simp only [isSpecial, Bool.or_eq_false_iff, beq_eq_false_iff_ne] at h
  unfold separate?
  rw [if_neg h.1.1.1, if_neg h.1.2]

/-- A character that needs no quotes goes into a field without quotes. -/
theorem step_of_not_special {c : Char} (h : isSpecial c = false) {r : Reading}
    (hposition : r.position = .start ∨ r.position = .bare) : r.step c = some (r.take .bare c) := by
  have hquote : c ≠ '"' := by
    rintro rfl
    exact absurd h (by decide)
  rcases hposition with hstart | hbare
  · simp only [step, hstart, if_neg hquote, separate?_of_not_special h, Option.getD_none]
  · simp only [step, hbare, if_neg hquote, separate?_of_not_special h, Option.getD_none]

/-- A field without quotes. -/
theorem run_bare (text : List Char) :
    ∀ {r : Reading}, r.position = .start ∨ r.position = .bare → text.any isSpecial = false →
      ∃ position, (position = .start ∨ position = .bare) ∧
        r.run text = some { r with position, chars := r.chars ++ text } := by
  induction text with
  | nil =>
    intro r hposition _
    exact ⟨r.position, hposition, by rw [List.append_nil]; rfl⟩
  | cons c text ih =>
    intro r hposition htext
    rw [List.any_cons, Bool.or_eq_false_iff] at htext
    obtain ⟨position, hnext, hrun⟩ := ih (r := r.take .bare c) (Or.inr rfl) htext.2
    refine ⟨position, hnext, ?_⟩
    rw [run_cons, step_of_not_special htext.1 hposition, Option.bind_some, hrun]
    simp only [take, List.append_assoc, List.singleton_append]

/-- What stands between the quotes. -/
theorem run_doubleQuotes (text : List Char) :
    ∀ {r : Reading}, r.position = .quoted →
      r.run (doubleQuotes text) = some { r with chars := r.chars ++ text } := by
  induction text with
  | nil =>
    intro r _
    rw [List.append_nil]
    rfl
  | cons c text ih =>
    intro r hposition
    by_cases hquote : c = '"'
    · -- the quote is doubled: the first one might have ended the field, and the second one says that it has not
      subst hquote
      have hpair : r.run ['"', '"'] = some (r.take .quoted '"') := by
        simp [step, hposition, run, take]
      rw [show doubleQuotes ('"' :: text) = ['"', '"'] ++ doubleQuotes text from rfl, run_append, hpair,
        Option.bind_some, ih rfl]
      simp only [take, hposition, List.append_assoc, List.singleton_append]
    · have hstep : r.step c = some (r.take .quoted c) := by
        simp only [step, hposition, if_neg hquote]
      rw [show doubleQuotes (c :: text) = c :: doubleQuotes text by simp [doubleQuotes], run_cons,
        hstep, Option.bind_some, ih rfl]
      simp only [take, hposition, List.append_assoc, List.singleton_append]

/-- **A field that was written is read back**, and the reader is not between quotes behind it. -/
theorem run_field (text : List Char) :
    ∃ position, position ≠ .quoted ∧
      (before fields records).run (field text) = some { position, chars := text, fields, records } := by
  unfold Csv.field
  split
  · refine ⟨.closing, by decide, ?_⟩
    have hopen : (before fields records).step '"'
        = some { before fields records with position := .quoted } := rfl
    rw [quoted, List.cons_append, run_cons, hopen, Option.bind_some, run_append, run_doubleQuotes text rfl]
    rfl
  · rename_i hspecial
    obtain ⟨position, hposition, hrun⟩ := run_bare text (r := before fields records) (Or.inl rfl)
      (Bool.not_eq_true _ ▸ hspecial)
    refine ⟨position, ?_, hrun⟩
    rcases hposition with rfl | rfl <;> decide

/-- A comma or a line feed ends a field. -/
theorem step_separate {r r' : Reading} {c : Char} (hposition : r.position ≠ .quoted)
    (h : r.separate? c = some r') : r.step c = some r' := by
  have hquote : c ≠ '"' := by
    rintro rfl
    exact absurd h (by simp [separate?])
  cases hcases : r.position with
  | quoted => exact absurd hcases hposition
  | start => simp only [step, hcases, if_neg hquote, h, Option.getD_some]
  | bare => simp only [step, hcases, if_neg hquote, h, Option.getD_some]
  | closing => simp only [step, hcases, if_neg hquote, h]

/-- Fields joined by commas, and the line feed behind them. -/
theorem run_joined (texts : List (List Char)) (hne : texts ≠ []) :
    ∀ {fields : List (List Char)}, (before fields records).run (joined texts ++ ['\n'])
      = some (before [] (records ++ [fields ++ texts])) := by
  induction texts with
  | nil => exact absurd rfl hne
  | cons text texts ih =>
    intro fields
    obtain ⟨position, hposition, hfield⟩ := @run_field fields records text
    cases texts with
    | nil =>
      rw [show joined [text] = field text from rfl, run_append, hfield, Option.bind_some, run_cons,
        step_separate hposition rfl]
      rfl
    | cons next texts =>
      rw [show joined (text :: next :: texts) ++ ['\n']
          = field text ++ ',' :: (joined (next :: texts) ++ ['\n']) by
        simp [joined]]
      rw [run_append, hfield, Option.bind_some, run_cons, step_separate hposition rfl, Option.bind_some]
      show (before (fields ++ [text]) records).run (joined (next :: texts) ++ ['\n']) = _
      rw [ih (by simp), List.append_assoc, List.singleton_append]

/-- A record that was written is read back. -/
theorem run_record {texts : List (List Char)} (hne : texts ≠ []) :
    (before [] records).run (record texts) = some (before [] (records ++ [texts])) := by
  unfold record
  split
  · -- the pair of quotes of a record with a single empty field
    rfl
  · rw [run_joined texts hne, List.nil_append]

theorem run_records (all : List (List (List Char))) (hne : ∀ texts ∈ all, texts ≠ []) :
    ∀ {records : List (List (List Char))},
      (before [] records).run (all.flatMap record) = some (before [] (records ++ all)) := by
  induction all with
  | nil =>
    intro records
    rw [List.append_nil]
    rfl
  | cons texts all ih =>
    intro records
    rw [List.flatMap_cons, run_append, run_record (hne texts (by simp)), Option.bind_some,
      ih (fun texts' h => hne texts' (by simp [h])), List.append_assoc, List.singleton_append]

end Reading

/-- **Records that were written are read back**, whatever their fields hold. -/
theorem records?_text {records : List (List String)} (hne : ∀ r ∈ records, r ≠ []) :
    records? (text records) = some records := by
  have htext : (text records).toList = (records.map fun r => r.map String.toList).flatMap record := by
    rw [text, String.toList_join, List.flatMap_map, List.flatMap_map]
    simp only [String.toList_ofList]
  have hlists : ∀ texts ∈ records.map fun r => r.map String.toList, texts ≠ [] := by
    intro texts htexts
    obtain ⟨r, hr, rfl⟩ := List.mem_map.mp htexts
    exact mt List.map_eq_nil_iff.mp (hne r hr)
  have hrun := @Reading.run_records _ hlists []
  rw [← htext, List.nil_append] at hrun
  have hback : (records.map fun r => r.map String.toList).map (fun fields => fields.map String.ofList)
      = records := by
    simp only [List.map_map, Function.comp_def, String.ofList_toList, List.map_id']
  unfold records?
  rw [hrun]
  exact congrArg some hback

/-- A comma, a quote and a line feed in a field do not end it. -/
example : text [["a,b", "say \"c\"\n", ""]] = "\"a,b\",\"say \"\"c\"\"\n\",\n" ∧
    records? "\"a,b\",\"say \"\"c\"\"\n\",\n" = some [["a,b", "say \"c\"\n", ""]] := by decide

end Csv

/-! ### The tables of a run -/

namespace Schedule

/-- What the table says of a series at a tick, by the names of devices. -/
def cells (names : DeviceNames) (s : Schedule Double) (i : Nat) (tick : UInt64) (r : Series Double) :
    List String :=
  [ match names.get? s.device with
    | some name => name
    | none => s.device.toString,
    s.kind,
    toString tick,
    r.commodity.name,
    Decimal.fixedPlaces 4 (if h : i < r.powers.size then r.powers[i] else 0),
    match r.temperatures[i]? with
    | some (some t) => Decimal.fixedPlaces 2 t
    | _ => "" ]

/-- What the table says of schedules: one record for each schedule, tick and series, in this order. -/
def allCells (schedules : List (Schedule Double)) (names : DeviceNames) : List (List String) :=
  schedules.flatMap fun s =>
    s.ticks.toList.zipIdx.flatMap fun (tick, i) => s.series.map fun r => s.cells names i tick r

theorem csvRows_eq (names : DeviceNames) (s : Schedule Double) (i : Nat) (tick : UInt64) :
    csvRows ((names.get? s.device).getD s.device.toString) s i tick
      = s.series.map fun r => s.cells names i tick r := by
  unfold csvRows
  refine List.map_congr_left fun r _ => ?_
  have hname : (names.get? s.device).getD s.device.toString
      = match names.get? s.device with
        | some name => name
        | none => s.device.toString := by
    cases names.get? s.device <;> rfl
  have hpower : r.powers[i]?.getD 0 = if h : i < r.powers.size then r.powers[i] else 0 := by
    split
    · rename_i h
      rw [Array.getElem?_eq_getElem h, Option.getD_some]
    · rename_i h
      rw [Array.getElem?_eq_none (Nat.le_of_not_lt h), Option.getD_none]
  rw [cells, ← hname, ← hpower]
  rfl

theorem toCsv_eq (schedules : List (Schedule Double)) (names : DeviceNames) :
    toCsv schedules names = Csv.text (csvHeader :: allCells schedules names) := by
  simp only [toCsv, allCells, csvRows_eq]

theorem length_of_mem_allCells {schedules : List (Schedule Double)} {names : DeviceNames}
    {record : List String} (h : record ∈ allCells schedules names) : record.length = 6 := by
  obtain ⟨s, -, h⟩ := List.mem_flatMap.mp h
  obtain ⟨⟨tick, i⟩, -, h⟩ := List.mem_flatMap.mp h
  obtain ⟨r, -, rfl⟩ := List.mem_map.mp h
  rfl

end Schedule

namespace LoadProfile

def cells (p : LoadProfile Double) (i : Nat) : List String :=
  toString (p.tickAt i) :: MeterQuantity.all.map fun q => Decimal.fixedPlaces 4 (p.powerAtIndex q i)

theorem csvHeader_eq :
    csvHeader = ["tick", "activepowerexternal", "reactivepowerexternal", "naturalgaspowerexternal",
      "pvactivepowerfeedin", "pvactivepowerautoconsumption", "chpactivepowerfeedin",
      "chpactivepowerautoconsumption", "batteryactivepowerfeedin", "batteryactivepowerautoconsumption",
      "batteryactivepowerconsumption"] := by
  decide +kernel

theorem toCsv_eq (p : LoadProfile Double) :
    p.toCsv = Csv.text (csvHeader :: (List.range p.size).map p.cells) := by
  have hrows : (p.samples.map fun e => csvRow e.1 e.2) = (List.range p.size).map p.cells := by
    rw [samples, List.map_map]
    refine List.map_congr_left fun i hi => ?_
    have hlt : i < p.entries.size := List.mem_range.mp hi
    simp only [Function.comp_apply, csvRow, cells, powerAtIndex, Array.getElem?_eq_getElem hlt,
      Option.getD_some]
  rw [toCsv, hrows]

end LoadProfile

/-- **The tables of a run are read back.** A reader of comma-separated values finds in the table of schedules the
header and one record of six fields for each schedule, tick and series, whatever the names of the devices hold and
however long the series are, and in the table of a load profile the header and one record of eleven fields for each
entry. Ticks are decimal numerals. -/
theorem tables_read_back (schedules : List (Schedule Double)) (names : DeviceNames) (p : LoadProfile Double) :
    Csv.records? (Schedule.toCsv schedules names) = some
      (["device", "kind", "tick", "commodity", "power_w", "temperature_c"]
        :: Schedule.allCells schedules names) ∧
    (∀ record ∈ Schedule.allCells schedules names, record.length = 6) ∧
    Csv.records? p.toCsv = some
      (["tick", "activepowerexternal", "reactivepowerexternal", "naturalgaspowerexternal",
          "pvactivepowerfeedin", "pvactivepowerautoconsumption", "chpactivepowerfeedin",
          "chpactivepowerautoconsumption", "batteryactivepowerfeedin", "batteryactivepowerautoconsumption",
          "batteryactivepowerconsumption"]
        :: (List.range p.size).map p.cells) ∧
    (∀ i, (p.cells i).length = 11) ∧
    ∀ tick : UInt64, (toString tick).toNat? = some tick.toNat := by
  refine ⟨?_, fun record => Schedule.length_of_mem_allCells, ?_, fun i => rfl,
    fun tick => Nat.toNat?_repr tick.toNat⟩
  · rw [Schedule.toCsv_eq]
    refine Csv.records?_text fun record hrecord => ?_
    rcases List.mem_cons.mp hrecord with rfl | hrecord
    · exact List.cons_ne_nil _ _
    · exact List.ne_nil_of_length_pos (by rw [Schedule.length_of_mem_allCells hrecord]; decide)
  · rw [LoadProfile.toCsv_eq, LoadProfile.csvHeader_eq]
    refine Csv.records?_text fun record hrecord => ?_
    rcases List.mem_cons.mp hrecord with rfl | hrecord
    · exact List.cons_ne_nil _ _
    · obtain ⟨i, -, rfl⟩ := List.mem_map.mp hrecord
      exact List.cons_ne_nil _ _

end HomeEnergy

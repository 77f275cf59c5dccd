import HomeEnergy.CommandLine
import HomeEnergy.Proofs.Outcomes
import Mathlib.Data.List.Induction
import Mathlib.Data.List.Nodup

/-!
# The grammar of argument lists

An argument list that does not ask for help is read if and only if it spells flags with values, no flag twice, not
both sources of a scenario, and a decimal number as the seed. What is read is said by the pairs alone, so that
their order does not matter.

* `CommandLine.spell` — the argument list of some flags with values.
* `CommandLine.Numeral`, `Flag.Denotes` — what the text behind a flag stands for.
* `CommandLine.Admissible`, `CommandLine.Holds` — which pairs are read, and what comes of them. Neither looks at their
  order.
* `CommandLine.store_eq` — what storing one value does; `CommandLine.stores_of_storeAll`, `CommandLine.exists_storeAll` —
  and what storing a series does.
* `CommandLine.ofArguments_spell_iff` — **when a spelled list of pairs is read, and as what.**
* `CommandLine.pairs` — an argument list for what is wanted.
* `CommandLine.arguments_grammar` — which argument lists are read, and that reading undoes spelling.
-/

namespace HomeEnergy

/-! ### Texts behind flags -/

inductive Setting where
  | text (s : String)
  | seed (n : UInt64)
deriving DecidableEq

def Setting.spelled : Setting → String
  | text s => s
  | seed n => String.ofList (Nat.toDigits 10 n.toNat)

namespace CommandLine

/-- A text is a decimal number, perhaps behind a plus sign. -/
def Numeral (s : String) (n : UInt64) : Prop :=
  ∃ digits : List Char, digits ≠ [] ∧ (∀ c ∈ digits, c.isDigit = true) ∧
    (s.toList = digits ∨ s.toList = '+' :: digits) ∧ n.toNat = Nat.ofDigitChars 10 digits 0

theorem unsigned_eq_iff {cs digits : List Char} (hdigits : ∀ c ∈ digits, c.isDigit = true) :
    unsigned cs = digits ↔ cs = digits ∨ cs = '+' :: digits := by
  constructor
  · intro h
    unfold unsigned at h
    split at h
    · exact Or.inr (by rw [h])
    · exact Or.inl h
  · rintro (rfl | rfl)
    · unfold unsigned
      split
      · exact absurd (hdigits '+' (by simp)) (by decide)
      · rfl
    · rfl

/-- **A seed is read where there is a numeral of it.** -/
theorem seedOfText?_eq_some_iff {s : String} {n : UInt64} :
    seedOfText? s = some n ↔ Numeral s n := by
  have hvalue : ∀ digits, digitsValue digits = Nat.ofDigitChars 10 digits 0 := fun _ => rfl
  constructor
  · intro h
    simp only [seedOfText?, Option.ite_none_left_eq_some, Option.ite_none_right_eq_some,
      Bool.or_eq_true, Bool.not_eq_true', not_or, List.isEmpty_iff, Bool.not_eq_false,
      List.all_eq_true] at h
    obtain ⟨⟨hne, hdigits⟩, hlt, hn⟩ := h
    refine ⟨_, hne, hdigits, (unsigned_eq_iff hdigits).mp rfl, ?_⟩
    rw [← Option.some.inj hn, UInt64.toNat_ofNat_of_lt' hlt, hvalue]
  · rintro ⟨digits, hne, hdigits, hspelled, hn⟩
    have hdigits' : digits.all Char.isDigit = true := List.all_eq_true.mpr hdigits
    have hlt : digitsValue digits < UInt64.size := by
      rw [hvalue, ← hn]
      exact n.toNat_lt
    have hempty : digits.isEmpty = false := List.isEmpty_eq_false_iff.mpr hne
    simp only [seedOfText?, (unsigned_eq_iff hdigits).mpr hspelled, hempty, hdigits', Bool.not_true,
      Bool.or_self, Bool.false_eq_true, if_false, if_pos hlt, Option.some.injEq]
    rw [hvalue, ← hn, UInt64.ofNat_toNat]

/-- The decimal digits of a seed are a numeral of it. -/
theorem numeral_toDigits (n : UInt64) : Numeral (String.ofList (Nat.toDigits 10 n.toNat)) n :=
  ⟨Nat.toDigits 10 n.toNat, Nat.toDigits_ne_nil,
    fun _ hc => Nat.isDigit_of_mem_toDigits (by decide) (by decide) hc,
    Or.inl (String.toList_ofList), (Nat.ofDigitChars_toDigits (by decide) (by decide)).symm⟩

end CommandLine

/-- What a text behind a flag stands for: behind the flag of the seed a number, behind the others itself, whatever
it looks like. -/
inductive Flag.Denotes : Flag → String → Setting → Prop where
  | seed {s : String} {n : UInt64} (numeral : CommandLine.Numeral s n) : Denotes .seed s (.seed n)
  | text {f : Flag} {s : String} (other : f ≠ .seed) : Denotes f s (.text s)

def Flag.setting? (f : Flag) (s : String) : Option Setting :=
  if f = .seed then (CommandLine.seedOfText? s).map .seed else some (.text s)

theorem Flag.setting?_eq_some_iff {f : Flag} {s : String} {x : Setting} :
    f.setting? s = some x ↔ f.Denotes s x := by
  unfold setting?
  constructor
  · intro h
    split at h
    · rename_i hf
      subst hf
      obtain ⟨n, hn, rfl⟩ := Option.map_eq_some_iff.mp h
      exact .seed (CommandLine.seedOfText?_eq_some_iff.mp hn)
    · rename_i hf
      obtain rfl := Option.some.inj h
      exact .text hf
  · rintro (hnumeral | hother)
    · rw [if_pos rfl, CommandLine.seedOfText?_eq_some_iff.mpr hnumeral]
      rfl
    · rw [if_neg hother]

namespace CommandLine

/-! ### One more value -/

/-- The value of a flag. -/
def value? (c : CommandLine) : Flag → Option Setting
  | .scenario => c.scenario?.map .text
  | .preset => c.preset?.map .text
  | .seed => c.seed?.map .seed
  | .profileOut => c.profileOut?.map .text
  | .schedulesOut => c.schedulesOut?.map .text

/-- Values of all flags make up what is asked for. -/
theorem ext_value? {c d : CommandLine} (h : ∀ f, c.value? f = d.value? f) : c = d := by
  have htext : ∀ {a b : Option String}, a.map Setting.text = b.map Setting.text → a = b :=
    fun {_ _} hab => Option.map_injective (fun _ _ hs => Setting.text.inj hs) hab
  have hseed : ∀ {a b : Option UInt64}, a.map Setting.seed = b.map Setting.seed → a = b :=
    fun {_ _} hab => Option.map_injective (fun _ _ hn => Setting.seed.inj hn) hab
  obtain ⟨hscenario, hpreset, hnumber, hprofile, hschedules⟩ :
      c.scenario? = d.scenario? ∧ c.preset? = d.preset? ∧ c.seed? = d.seed? ∧
        c.profileOut? = d.profileOut? ∧ c.schedulesOut? = d.schedulesOut? :=
    ⟨htext (h .scenario), htext (h .preset), hseed (h .seed), htext (h .profileOut),
      htext (h .schedulesOut)⟩
  cases c
  cases d
  simp_all

/-- The command line with the value of a flag replaced. -/
def put (c : CommandLine) : Flag → Setting → CommandLine
  | .scenario, .text s => { c with scenario? := some s }
  | .preset, .text s => { c with preset? := some s }
  | .seed, .seed n => { c with seed? := some n }
  | .profileOut, .text s => { c with profileOut? := some s }
  | .schedulesOut, .text s => { c with schedulesOut? := some s }
  | _, _ => c

/-- A value that is put into its place is there, and the other flags keep theirs. -/
theorem value?_put (c : CommandLine) {f : Flag} {s : String} {x : Setting} (h : f.Denotes s x)
    (g : Flag) : (c.put f x).value? g = if g = f then some x else c.value? g := by
  cases h with
  | seed _ => cases g <;> rfl
  | text hother =>
    cases f with
    | seed => exact absurd rfl hother
    | _ => cases g <;> rfl

/-- **A value is stored if it stands for something and the flag has none yet.** -/
theorem store_eq (c : CommandLine) (f : Flag) (s : String) :
    c.store f s =
      (f.setting? s).elim (.error (.invalidSeed s)) fun x =>
        if (c.value? f).isSome then .error (.repeated f) else .ok (c.put f x) := by
  have hfield : ∀ {β : Type} (old? : Option β) (wrap : β → Setting) (value : β)
      (write : Option β → CommandLine),
      (do return write (← once f old? value) : Except ArgumentIssue CommandLine)
        = if (old?.map wrap).isSome then .error (.repeated f) else .ok (write (some value)) := by
    intro β old? wrap value write
    cases old? <;> rfl
  cases f with
  | seed =>
    simp only [store, Flag.setting?, if_true]
    cases seedOfText? s with
    | none => rfl
    | some n => exact hfield c.seed? .seed n fun v? => { c with seed? := v? }
  | scenario => exact hfield c.scenario? .text s fun v? => { c with scenario? := v? }
  | preset => exact hfield c.preset? .text s fun v? => { c with preset? := v? }
  | profileOut => exact hfield c.profileOut? .text s fun v? => { c with profileOut? := v? }
  | schedulesOut => exact hfield c.schedulesOut? .text s fun v? => { c with schedulesOut? := v? }

/-! ### A series of flags with values -/

/-- The flags have the values that some pairs give them, and no others. -/
def Stores (c : CommandLine) (pairs : List (Flag × String)) : Prop :=
  ∀ f x, c.value? f = some x ↔ ∃ s, (f, s) ∈ pairs ∧ f.Denotes s x

theorem Stores.value?_eq_none {c : CommandLine} {pairs : List (Flag × String)} (hc : c.Stores pairs)
    {f : Flag} (hf : f ∉ pairs.map fun p => p.1) : c.value? f = none := by
  refine Option.eq_none_iff_forall_ne_some.mpr fun x hx => ?_
  obtain ⟨s, hs, -⟩ := (hc f x).mp hx
  exact hf (List.mem_map.mpr ⟨(f, s), hs, rfl⟩)

theorem stores_empty : empty.Stores [] := by
  intro f x
  cases f <;> simp [empty, value?]

/-- One more pair, with a flag that has no value yet. -/
theorem Stores.put {c : CommandLine} {pairs : List (Flag × String)} (hc : c.Stores pairs) {f : Flag}
    {s : String} {x : Setting} (hx : f.Denotes s x) (hnone : c.value? f = none) :
    (c.put f x).Stores (pairs ++ [(f, s)]) := by
  intro g y
  rw [value?_put c hx]
  split
  · rename_i hg
    subst hg
    have hold : ∀ s', (g, s') ∈ pairs → g.Denotes s' y → False := by
      intro s' hs' hy
      rw [(hc g y).mpr ⟨s', hs', hy⟩] at hnone
      exact absurd hnone (by simp)
    constructor
    · intro h
      obtain rfl := Option.some.inj h
      exact ⟨s, by simp, hx⟩
    · rintro ⟨s', hs', hy⟩
      rcases List.mem_append.mp hs' with hs' | hs'
      · exact (hold s' hs' hy).elim
      · obtain rfl : s' = s := by simpa using hs'
        rw [← Flag.setting?_eq_some_iff] at hx hy
        exact hx ▸ hy
  · rename_i hg
    simp [hc g y, hg]

/-- The flags of the pairs are those that have a value. -/
theorem Stores.mem_iff {c : CommandLine} {pairs : List (Flag × String)} (hc : c.Stores pairs)
    (hdenote : ∀ p ∈ pairs, ∃ x, p.1.Denotes p.2 x) (f : Flag) :
    f ∈ (pairs.map fun p => p.1) ↔ (c.value? f).isSome = true := by
  constructor
  · intro hf
    obtain ⟨p, hp, rfl⟩ := List.mem_map.mp hf
    obtain ⟨x, hx⟩ := hdenote p hp
    rw [(hc p.1 x).mpr ⟨p.2, hp, hx⟩]
    rfl
  · intro h
    by_contra hf
    simp [hc.value?_eq_none hf] at h

/-- After some pairs, one more value is stored if its flag is not among theirs. -/
theorem Stores.store_eq_ok_iff {c : CommandLine} {pairs : List (Flag × String)} (hc : c.Stores pairs)
    (hdenote : ∀ p ∈ pairs, ∃ x, p.1.Denotes p.2 x) {f : Flag} {s : String} {d : CommandLine} :
    c.store f s = .ok d ↔
      f ∉ (pairs.map fun p => p.1) ∧ ∃ x, f.Denotes s x ∧ d = c.put f x := by
  have hsome := (hc.mem_iff hdenote f).symm
  rw [store_eq]
  cases hx : f.setting? s with
  | none =>
    have hnone : ∀ x, ¬f.Denotes s x := by
      intro x hx'
      rw [← Flag.setting?_eq_some_iff, hx] at hx'
      exact absurd hx' (by simp)
    simp [hnone]
  | some x =>
    have hdenotes : ∀ y, f.Denotes s y ↔ x = y := by
      intro y
      rw [← Flag.setting?_eq_some_iff, hx, Option.some.injEq]
    simp only [hsome, hdenotes]
    by_cases hf : f ∈ pairs.map fun p => p.1
    · simp [hf]
    · simp [hf, eq_comm]

def storeAll (pairs : List (Flag × String)) (c : CommandLine) : Except ArgumentIssue CommandLine :=
  pairs.foldlM (fun c p => c.store p.1 p.2) c

theorem storeAll_concat (pairs : List (Flag × String)) (f : Flag) (s : String) (c : CommandLine) :
    storeAll (pairs ++ [(f, s)]) c = storeAll pairs c >>= fun c => c.store f s := by
  simp [storeAll, List.foldlM_append]

/-- A series that is stored repeats no flag, its values stand for something, and there are no others. -/
theorem stores_of_storeAll {pairs : List (Flag × String)} {d : CommandLine}
    (h : storeAll pairs empty = .ok d) :
    (pairs.map fun p => p.1).Nodup ∧ (∀ p ∈ pairs, ∃ x, p.1.Denotes p.2 x) ∧ d.Stores pairs := by
  induction pairs using List.reverseRecOn generalizing d with
  | nil =>
    obtain rfl : empty = d := Except.ok.inj h
    exact ⟨List.nodup_nil, by simp, stores_empty⟩
  | append_singleton pairs p ih =>
    obtain ⟨f, s⟩ := p
    rw [storeAll_concat] at h
    obtain ⟨c, hc, hstore⟩ := exists_of_bind_eq_ok h
    obtain ⟨hnodup, hdenote, hstores⟩ := ih hc
    obtain ⟨hf, x, hx, rfl⟩ := (hstores.store_eq_ok_iff hdenote).mp hstore
    refine ⟨?_, ?_, hstores.put hx (hstores.value?_eq_none hf)⟩
    · rw [List.map_append, List.nodup_append_comm]
      exact List.nodup_cons.mpr ⟨hf, hnodup⟩
    · intro p hp
      rcases List.mem_append.mp hp with hp | hp
      · exact hdenote p hp
      · obtain rfl := List.mem_singleton.mp hp
        exact ⟨x, hx⟩

/-- A series that repeats no flag and whose values stand for something is stored. -/
theorem exists_storeAll {pairs : List (Flag × String)} (hnodup : (pairs.map fun p => p.1).Nodup)
    (hdenote : ∀ p ∈ pairs, ∃ x, p.1.Denotes p.2 x) : ∃ d, storeAll pairs empty = .ok d := by
  induction pairs using List.reverseRecOn with
  | nil => exact ⟨empty, rfl⟩
  | append_singleton pairs p ih =>
    obtain ⟨f, s⟩ := p
    rw [List.map_append, List.nodup_append_comm] at hnodup
    obtain ⟨hf, hnodup⟩ := List.nodup_cons.mp hnodup
    have hdenote' : ∀ p ∈ pairs, ∃ x, p.1.Denotes p.2 x := fun p hp => hdenote p (by simp [hp])
    obtain ⟨c, hc⟩ := ih hnodup hdenote'
    obtain ⟨-, -, hstores⟩ := stores_of_storeAll hc
    obtain ⟨x, hx⟩ := hdenote (f, s) (by simp)
    refine ⟨c.put f x, ?_⟩
    rw [storeAll_concat, hc]
    exact (hstores.store_eq_ok_iff hdenote').mpr ⟨hf, x, hx, rfl⟩

/-! ### Argument lists -/

def spell (pairs : List (Flag × String)) : List String :=
  pairs.flatMap fun p => [p.1.text, p.2]

/-- A request for help stands where a flag is read. -/
def AsksForHelp (arguments : List String) : Prop :=
  ∃ (i : Nat) (a : String), arguments[2 * i]? = some a ∧ isHelp a = true

/-- Pairs that an argument list may be made of: no flag is repeated, a seed is a number, and a scenario has one
source at most. -/
structure Admissible (pairs : List (Flag × String)) : Prop where
  distinct : (pairs.map fun p => p.1).Nodup
  seed : ∀ s, (.seed, s) ∈ pairs → ∃ n, Numeral s n
  source : ¬(.scenario ∈ (pairs.map fun p => p.1) ∧ .preset ∈ pairs.map fun p => p.1)

/-- A command line holds what some pairs say, and nothing else: each flag has the value of its pair. The built-in
household is run when no pair names a source. -/
def Holds (c : CommandLine) (pairs : List (Flag × String)) : Prop :=
  ∀ f x, c.value? f = some x ↔
    (∃ s, (f, s) ∈ pairs ∧ f.Denotes s x) ∨
      (f = .preset ∧ x = .text "household" ∧
        .scenario ∉ (pairs.map fun p => p.1) ∧ .preset ∉ pairs.map fun p => p.1)

theorem Holds.unique {c d : CommandLine} {pairs : List (Flag × String)} (hc : c.Holds pairs)
    (hd : d.Holds pairs) : c = d :=
  ext_value? fun f => Option.ext fun x => (hc f x).trans (hd f x).symm

/-- The order of pairs does not matter to whether they may be read. -/
theorem Admissible.of_perm {pairs pairs' : List (Flag × String)} (hperm : pairs.Perm pairs')
    (h : Admissible pairs) : Admissible pairs' where
  distinct := ((hperm.map _).nodup_iff).mp h.distinct
  seed s hs := h.seed s (hperm.mem_iff.mpr hs)
  source := by
    rw [← (hperm.map _).mem_iff, ← (hperm.map _).mem_iff]
    exact h.source

/-- The order of pairs does not matter to what they say. -/
theorem Holds.of_perm {c : CommandLine} {pairs pairs' : List (Flag × String)}
    (hperm : pairs.Perm pairs') (h : c.Holds pairs) : c.Holds pairs' := by
  intro f x
  rw [← (hperm.map _).mem_iff, ← (hperm.map _).mem_iff]
  simpa only [hperm.mem_iff] using h f x

theorem withSource_of_both {c : CommandLine} (hscenario : (c.value? .scenario).isSome = true)
    (hpreset : (c.value? .preset).isSome = true) : c.withSource = .error .twoSources := by
  obtain ⟨path, hpath⟩ : ∃ path, c.scenario? = some path := by
    simpa [value?, Option.isSome_iff_exists] using hscenario
  obtain ⟨name, hname⟩ : ∃ name, c.preset? = some name := by
    simpa [value?, Option.isSome_iff_exists] using hpreset
  simp [withSource, hpath, hname]

/-- **Settling the source** accepts one, and adds the household where there is none. -/
theorem Stores.exists_withSource {c : CommandLine} {pairs : List (Flag × String)}
    (hc : c.Stores pairs) (hdenote : ∀ p ∈ pairs, ∃ x, p.1.Denotes p.2 x)
    (hone : ¬(.scenario ∈ (pairs.map fun p => p.1) ∧ .preset ∈ pairs.map fun p => p.1)) :
    ∃ d, c.withSource = .ok d ∧ d.Holds pairs := by
  have hholds : ∀ d : CommandLine, d.Holds pairs ↔ ∀ f x, d.value? f = some x ↔ c.value? f = some x ∨
      (f = .preset ∧ x = .text "household" ∧ ¬(c.value? .scenario).isSome = true ∧
        ¬(c.value? .preset).isSome = true) := by
    intro d
    simp only [Holds, hc.mem_iff hdenote, ← hc _ _]
  simp only [hc.mem_iff hdenote, hholds] at hone ⊢
  cases hscenario : c.scenario? with
  | some path =>
    cases hpreset : c.preset? with
    | some name => exact absurd hone (by simp [value?, hscenario, hpreset])
    | none => exact ⟨c, by simp [withSource, hscenario, hpreset], by simp [value?, hscenario]⟩
  | none =>
    cases hpreset : c.preset? with
    | some name => exact ⟨c, by simp [withSource, hscenario, hpreset], by simp [value?, hpreset]⟩
    | none =>
      refine ⟨{ c with preset? := some defaultPreset }, by simp [withSource, hscenario, hpreset], ?_⟩
      intro f x
      cases f with
      | preset => simp [value?, hscenario, hpreset, defaultPreset, eq_comm]
      | _ => simp [value?]

/-- Reading flags and values is storing them, and then settling the source. -/
theorem readFlags_spell (pairs : List (Flag × String)) (c : CommandLine) :
    readFlags (spell pairs) c = (storeAll pairs c >>= withSource).map some := by
  induction pairs generalizing c with
  | nil => rfl
  | cons p pairs ih =>
    obtain ⟨f, s⟩ := p
    have hhelp : isHelp f.text = false := by cases f <;> decide
    show readFlags (f.text :: s :: spell pairs) c = _
    rw [readFlags, hhelp, Flag.ofText?_text]
    simp only [Bool.false_eq_true, if_false, storeAll, List.foldlM_cons]
    cases c.store f s with
    | error e => rfl
    | ok d => exact ih d

theorem eq_text_of_ofText? {a : String} {f : Flag} (h : Flag.ofText? a = some f) : a = f.text := by
  have hfound := List.find?_some (p := fun f : Flag => f.text == a) h
  exact (beq_iff_eq.mp hfound).symm

theorem AsksForHelp.cons_cons {arguments : List String} (h : AsksForHelp arguments) (a s : String) :
    AsksForHelp (a :: s :: arguments) := by
  obtain ⟨i, b, hb, hhelp⟩ := h
  exact ⟨i + 1, b, by simpa [Nat.mul_add] using hb, hhelp⟩

/-- An argument list that is not spelled by pairs asks for help or is refused. -/
theorem readFlags_cases (arguments : List String) (c : CommandLine) :
    (∃ pairs, arguments = spell pairs) ∨
      (AsksForHelp arguments ∧ readFlags arguments c = .ok none) ∨
      ∃ e, readFlags arguments c = .error e := by
  fun_induction readFlags arguments c with
  | case1 c => exact Or.inl ⟨[], rfl⟩
  | case2 a c hhelp => exact Or.inr (Or.inl ⟨⟨0, a, rfl, hhelp⟩, rfl⟩)
  | case3 => exact Or.inr (Or.inr ⟨_, rfl⟩)
  | case4 => exact Or.inr (Or.inr ⟨_, rfl⟩)
  | case5 a s rest c hhelp => exact Or.inr (Or.inl ⟨⟨0, a, rfl, hhelp⟩, rfl⟩)
  | case6 => exact Or.inr (Or.inr ⟨_, rfl⟩)
  | case7 a s rest c hhelp f hf ih =>
    obtain rfl := eq_text_of_ofText? hf
    cases hstore : c.store f s with
    | error e => exact Or.inr (Or.inr ⟨e, rfl⟩)
    | ok d =>
      rcases ih d with ⟨pairs, rfl⟩ | ⟨hasks, hnone⟩ | ⟨e, he⟩
      · exact Or.inl ⟨(f, s) :: pairs, rfl⟩
      · exact Or.inr (Or.inl ⟨hasks.cons_cons f.text s, hnone⟩)
      · exact Or.inr (Or.inr ⟨e, he⟩)

/-- Values that stand for something are those of admissible pairs. -/
theorem denotes_iff {pairs : List (Flag × String)} :
    (∀ p ∈ pairs, ∃ x, p.1.Denotes p.2 x) ↔ ∀ s, (.seed, s) ∈ pairs → ∃ n, Numeral s n := by
  constructor
  · intro h s hs
    obtain ⟨x, hx⟩ := h (.seed, s) hs
    cases hx with
    | seed hnumeral => exact ⟨_, hnumeral⟩
    | text hother => exact absurd rfl hother
  · rintro h ⟨f, s⟩ hs
    by_cases hf : f = .seed
    · subst hf
      obtain ⟨n, hn⟩ := h s hs
      exact ⟨_, .seed hn⟩
    · exact ⟨_, .text hf⟩

/-- Admissible pairs are read, and what is read holds what they say. -/
theorem Admissible.exists_ofArguments {pairs : List (Flag × String)} (h : Admissible pairs) :
    ∃ d, ofArguments (spell pairs) = .ok (some d) ∧ d.Holds pairs := by
  have hdenote := denotes_iff.mpr h.seed
  obtain ⟨c, hc⟩ := exists_storeAll h.distinct hdenote
  obtain ⟨-, -, hstores⟩ := stores_of_storeAll hc
  obtain ⟨d, hd, hholds⟩ := hstores.exists_withSource hdenote h.source
  refine ⟨d, ?_, hholds⟩
  rw [ofArguments, readFlags_spell, hc]
  show (c.withSource).map some = _
  rw [hd]
  rfl

/-- Other pairs are refused. -/
theorem exists_error_of_not_admissible {pairs : List (Flag × String)} (h : ¬Admissible pairs) :
    ∃ e, ofArguments (spell pairs) = .error e := by
  rw [ofArguments, readFlags_spell]
  cases hc : storeAll pairs empty with
  | error e => exact ⟨e, rfl⟩
  | ok c =>
    obtain ⟨hnodup, hdenote, hstores⟩ := stores_of_storeAll hc
    obtain ⟨hscenario, hpreset⟩ :
        .scenario ∈ (pairs.map fun p => p.1) ∧ .preset ∈ pairs.map fun p => p.1 := by
      by_contra hone
      exact h ⟨hnodup, denotes_iff.mp hdenote, hone⟩
    refine ⟨.twoSources, ?_⟩
    show (c.withSource).map some = _
    rw [withSource_of_both ((hstores.mem_iff hdenote _).mp hscenario)
      ((hstores.mem_iff hdenote _).mp hpreset)]
    rfl

/-- **What the pairs of an argument list come to.** -/
theorem ofArguments_spell_iff {pairs : List (Flag × String)} {d : CommandLine} :
    ofArguments (spell pairs) = .ok (some d) ↔ Admissible pairs ∧ d.Holds pairs := by
  by_cases hadmissible : Admissible pairs
  · obtain ⟨e, he, hholds⟩ := hadmissible.exists_ofArguments
    rw [he]
    constructor
    · rintro ⟨⟩
      exact ⟨hadmissible, hholds⟩
    · rintro ⟨-, hd⟩
      rw [hd.unique hholds]
  · obtain ⟨e, he⟩ := exists_error_of_not_admissible hadmissible
    simp [he, hadmissible]

/-! ### An argument list for what is wanted -/

def pairs (c : CommandLine) : List (Flag × String) :=
  Flag.all.filterMap fun f => (c.value? f).map fun x => (f, x.spelled)

def HasOneSource (c : CommandLine) : Prop :=
  c.scenario?.isSome = !c.preset?.isSome

instance (c : CommandLine) : Decidable c.HasOneSource :=
  inferInstanceAs (Decidable (_ = _))

theorem mem_pairs {c : CommandLine} {f : Flag} {s : String} :
    (f, s) ∈ c.pairs ↔ ∃ x, c.value? f = some x ∧ s = x.spelled := by
  have hall : f ∈ Flag.all := by cases f <;> decide
  simp only [pairs, List.mem_filterMap, Option.map_eq_some_iff, Prod.mk.injEq]
  constructor
  · rintro ⟨g, -, x, hx, rfl, rfl⟩
    exact ⟨x, hx, rfl⟩
  · rintro ⟨x, hx, rfl⟩
    exact ⟨f, hall, x, hx, rfl, rfl⟩

theorem mem_map_fst_pairs {c : CommandLine} {f : Flag} :
    f ∈ (c.pairs.map fun p => p.1) ↔ (c.value? f).isSome = true := by
  simp [mem_pairs, Option.isSome_iff_exists]

/-- What is written for the value of a flag stands for that value. -/
theorem denotes_spelled {c : CommandLine} {f : Flag} {x : Setting} (h : c.value? f = some x) :
    f.Denotes x.spelled x := by
  cases f with
  | seed =>
    obtain ⟨n, -, rfl⟩ := Option.map_eq_some_iff.mp h
    exact .seed (numeral_toDigits n)
  | _ =>
    obtain ⟨s, -, rfl⟩ := Option.map_eq_some_iff.mp h
    exact .text (by decide)

/-- What is wanted from one source is asked for by admissible pairs. -/
theorem HasOneSource.admissible_pairs {c : CommandLine} (hc : c.HasOneSource) :
    Admissible c.pairs where
  distinct := by
    have hkeys : (c.pairs.map fun p => p.1) = Flag.all.filter fun f => (c.value? f).isSome := by
      unfold pairs
      induction Flag.all with
      | nil => rfl
      | cons f flags ih =>
        cases h : c.value? f with
        | none => simpa [h] using ih
        | some x => simpa [h] using ih
    rw [hkeys]
    exact (by decide : Flag.all.Nodup).filter _
  seed s hs := by
    obtain ⟨x, hx, rfl⟩ := mem_pairs.mp hs
    obtain ⟨n, -, rfl⟩ := Option.map_eq_some_iff.mp hx
    exact ⟨n, numeral_toDigits n⟩
  source := by
    rw [mem_map_fst_pairs, mem_map_fst_pairs]
    unfold HasOneSource at hc
    cases hscenario : c.scenario? <;> cases hpreset : c.preset? <;>
      simp_all [value?]

/-- What is wanted from one source is what its pairs say. -/
theorem HasOneSource.holds_pairs {c : CommandLine} (hc : c.HasOneSource) : c.Holds c.pairs := by
  intro f x
  rw [mem_map_fst_pairs, mem_map_fst_pairs]
  have hsource : ¬(¬(c.value? .scenario).isSome = true ∧ ¬(c.value? .preset).isSome = true) := by
    unfold HasOneSource at hc
    cases hscenario : c.scenario? <;> cases hpreset : c.preset? <;>
      simp_all [value?]
  constructor
  · intro hx
    exact Or.inl ⟨x.spelled, mem_pairs.mpr ⟨x, hx, rfl⟩, denotes_spelled hx⟩
  · rintro (⟨s, hs, hx⟩ | ⟨-, -, hnone⟩)
    · obtain ⟨y, hy, rfl⟩ := mem_pairs.mp hs
      have hy' := denotes_spelled hy
      rw [← Flag.setting?_eq_some_iff] at hx hy'
      rw [hy, ← hy', hx]
    · exact absurd hnone hsource

/-- **The grammar of argument lists.**

* An argument list is read if and only if it spells pairs of flags and values in which no flag is repeated, the seed
  is a decimal number below 2^64 and not both sources are named. The values may be any texts. Every other argument list
  in which no request for help stands in the place of a flag is refused.
* What is read holds the value of each pair and nothing else, and the built-in household if no source is named.
* The order of the pairs does not matter.
* What is wanted from one source is read back from its pairs in every order. -/
theorem arguments_grammar :
    (∀ arguments, (∃ c, ofArguments arguments = .ok (some c)) ↔
      ∃ pairs, arguments = spell pairs ∧ Admissible pairs) ∧
    (∀ arguments, ¬AsksForHelp arguments → (¬∃ pairs, arguments = spell pairs ∧ Admissible pairs) →
      ∃ e, ofArguments arguments = .error e) ∧
    (∀ pairs c, ofArguments (spell pairs) = .ok (some c) → c.Holds pairs) ∧
    (∀ pairs pairs' c, pairs.Perm pairs' → ofArguments (spell pairs) = .ok (some c) →
      ofArguments (spell pairs') = .ok (some c)) ∧
    ∀ c : CommandLine, c.HasOneSource → ∀ pairs, pairs.Perm c.pairs →
      ofArguments (spell pairs) = .ok (some c) := by
  refine ⟨?_, ?_, ?_, ?_, ?_⟩
  · intro arguments
    constructor
    · rintro ⟨c, hc⟩
      rcases readFlags_cases arguments empty with ⟨pairs, rfl⟩ | ⟨-, hnone⟩ | ⟨e, he⟩
      · exact ⟨pairs, rfl, (ofArguments_spell_iff.mp hc).1⟩
      · exact absurd (hc.symm.trans hnone) (by simp)
      · exact absurd (hc.symm.trans he) (by simp)
    · rintro ⟨pairs, rfl, hadmissible⟩
      obtain ⟨c, hc, -⟩ := hadmissible.exists_ofArguments
      exact ⟨c, hc⟩
  · intro arguments hhelp hpairs
    rcases readFlags_cases arguments empty with ⟨pairs, rfl⟩ | ⟨hasks, -⟩ | herror
    · exact exists_error_of_not_admissible fun hadmissible => hpairs ⟨pairs, rfl, hadmissible⟩
    · exact absurd hasks hhelp
    · exact herror
  · intro pairs c hc
    exact (ofArguments_spell_iff.mp hc).2
  · intro pairs pairs' c hperm hc
    obtain ⟨hadmissible, hholds⟩ := ofArguments_spell_iff.mp hc
    exact ofArguments_spell_iff.mpr ⟨hadmissible.of_perm hperm, hholds.of_perm hperm⟩
  · intro c hc pairs hperm
    exact ofArguments_spell_iff.mpr
      ⟨hc.admissible_pairs.of_perm hperm.symm, hc.holds_pairs.of_perm hperm.symm⟩

/-- Values that look like flags are values, in every order of the pairs. -/
example :
    ofArguments ["--profile-out", "--help", "--seed", "+07", "--scenario", "--seed"]
      = .ok (some { scenario? := some "--seed", preset? := none, seed? := some 7,
                    profileOut? := some "--help", schedulesOut? := none }) := by
  cbv

end CommandLine

end HomeEnergy

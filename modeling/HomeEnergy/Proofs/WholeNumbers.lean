import Mathlib.Algebra.Group.Int.Defs
import Mathlib.Algebra.Group.Nat.Defs
import HomeEnergy.Config.Decode

/-!
# The whole numbers of a scenario file

A scenario file holds whole numbers of 64 bits with a sign, so that a word that is read from one is below `2 ^ 63`. This
module follows the numbers from where they are read to where a scenario takes them.

* `Reader.Yields` — what all values of a reader have in common, and how readers keep it that are made of others.
* `Value.Fits`, `Entries.Fits` — the whole numbers of a value and of a table have 64 bits with a sign.
* `Entries.Fits.modifyAt` — storing keys and tables below a path keeps it.
* `Document.fits_of_ofString?` — **the whole numbers of every document have 64 bits with a sign.**
* `Config.fits_of_ofString?` — what this says about the optimized time.
-/

namespace HomeEnergy

namespace Toml

/-! ### Readers -/

namespace Reader

variable {β γ : Type} {P : β → Prop} {Q : γ → Prop}

/-- All that a reader hands out has a property. -/
def Yields (P : β → Prop) (r : Reader β) : Prop :=
  ∀ cs x rest, r cs = some (x, rest) → P x

namespace Yields

theorem bind {r : Reader β} {f : β → Reader γ} (hr : Yields P r) (hf : ∀ x, P x → Yields Q (f x)) :
    Yields Q (r >>= f) := by
  intro cs y rest h
  obtain ⟨⟨x, rest'⟩, hx, hy⟩ := Option.bind_eq_some_iff.mp h
  exact hf x (hr cs x rest' hx) rest' y rest hy

theorem after {r : Reader β} {f : β → Reader γ} (hf : ∀ x, Yields Q (f x)) : Yields Q (r >>= f) :=
  bind (P := fun _ => True) (fun _ _ _ _ => trivial) fun x _ => hf x

theorem pure {x : β} (h : P x) : Yields P (pure x : Reader β) := by
  intro cs y rest hy
  obtain ⟨rfl, -⟩ := Prod.mk.inj (Option.some.inj hy)
  exact h

theorem failure : Yields P (failure : Reader β) :=
  fun _ _ _ h => nomatch h

theorem orElse {r s : Reader β} (hr : Yields P r) (hs : Yields P s) : Yields P (r <|> s) := by
  intro cs x rest h
  cases hread : r cs with
  | some read =>
    have hx : some read = some (x, rest) := by
      rw [← h, ← hread]
      show r cs = (r cs <|> s cs)
      rw [hread]
      rfl
    exact hr cs x rest (hread.trans hx)
  | none =>
    refine hs cs x rest ?_
    rw [← h]
    show s cs = (r cs <|> s cs)
    rw [hread]
    rfl

theorem many {r : Reader β} (hr : Yields P r) : Yields (fun xs => ∀ x ∈ xs, P x) (many r) := by
  have hfuel : ∀ fuel, Yields (fun xs => ∀ x ∈ xs, P x) (manyUpTo r fuel) := by
    intro fuel
    induction fuel with
    | zero => exact pure (by simp)
    | succ fuel ih =>
      intro cs xs rest h
      unfold manyUpTo at h
      split at h
      · obtain ⟨rfl, -⟩ := Prod.mk.inj (Option.some.inj h)
        simp
      · rename_i x rest' hx
        obtain ⟨⟨xs', rest''⟩, hxs, heq⟩ := Option.map_eq_some_iff.mp h
        obtain ⟨rfl, -⟩ := Prod.mk.inj heq
        intro y hy
        rcases List.mem_cons.mp hy with rfl | hy
        · exact hr cs _ rest' hx
        · exact ih rest' xs' rest'' hxs y hy
  exact fun cs xs rest h => hfuel cs.length cs xs rest h

theorem separated {r : Reader β} (hr : Yields P r) :
    Yields (fun xs => ∀ x ∈ xs, P x) (Expression.separated r) := by
  refine orElse (bind hr fun first hfirst => bind (many (after fun _ => hr)) fun more hmore => ?_)
    (pure (by simp))
  exact pure (by simpa using ⟨hfirst, hmore⟩)

end Yields

end Reader

/-! ### Values and tables -/

/-- A value whose whole numbers have 64 bits with a sign. -/
inductive Value.Fits : Value → Prop where
  | string (s : String) : Fits (.string s)
  | integer {n : Int} (h : n < 2 ^ 63) : Fits (.integer n)
  | float (x : Double) : Fits (.float x)
  | boolean (b : Bool) : Fits (.boolean b)
  | moment (s : String) : Fits (.moment s)
  | array {items : List Value} (h : ∀ v ∈ items, Fits v) : Fits (.array items)
  | tables {items : List (List (String × Value))} (h : ∀ es ∈ items, ∀ e ∈ es, Fits e.2) : Fits (.tables items)
  | table {kind : TableKind} {es : List (String × Value)} (h : ∀ e ∈ es, Fits e.2) : Fits (.table kind es)

def Entries.Fits (es : Entries) : Prop :=
  ∀ e ∈ es, e.2.Fits

namespace Entries

variable {es es' : Entries} {name : String} {v : Value}

theorem fits_nil : Fits [] := by
  intro e he
  exact absurd he (by simp)

namespace Fits

theorem append (hes : es.Fits) (hv : v.Fits) : Fits (es ++ [(name, v)]) := by
  intro e he
  rcases List.mem_append.mp he with he | he
  · exact hes e he
  · obtain rfl := List.mem_singleton.mp he
    exact hv

theorem get? (hes : es.Fits) (h : es.get? name = some v) : v.Fits := by
  obtain ⟨e, he, rfl⟩ := Option.map_eq_some_iff.mp h
  exact hes e (List.mem_of_find?_eq_some he)

theorem put (hes : es.Fits) (hv : v.Fits) : Fits (es.put name v) := by
  induction es with
  | nil => exact append hes hv
  | cons e es ih =>
    obtain ⟨he, hes⟩ := List.forall_mem_cons.mp hes
    unfold Entries.put
    split
    · exact List.forall_mem_cons.mpr ⟨hv, hes⟩
    · exact List.forall_mem_cons.mpr ⟨he, ih hes⟩

theorem erase (hes : es.Fits) : Fits (es.erase name) :=
  fun e he => hes e (List.mem_filter.mp he).1

theorem add? (hes : es.Fits) (hv : v.Fits) (h : es.add? name v = some es') : es'.Fits := by
  unfold Entries.add? at h
  split at h
  · exact nomatch h
  · obtain rfl := Option.some.inj h
    exact hes.append hv

/-- A change at the end of a path keeps what the changed table keeps. -/
theorem modifyAt {p : PathKind} {change : TableKind → Entries → Option Entries}
    (hchange : ∀ kind es es', Fits es → change kind es = some es' → es'.Fits) {path : List String}
    {kind : TableKind} (hes : es.Fits) (h : modifyAt p change path kind es = some es') : es'.Fits := by
  induction path generalizing kind es es' with
  | nil => exact hchange kind es es' hes h
  | cons name path ih =>
    unfold Entries.modifyAt at h
    split at h
    · obtain ⟨inner, hinner, h⟩ := Option.bind_eq_some_iff.mp h
      obtain rfl := Option.some.inj h
      exact hes.append (.table (ih fits_nil hinner))
    · rename_i kind' inner hget
      split at h
      · obtain ⟨inner', hinner, h⟩ := Option.bind_eq_some_iff.mp h
        obtain rfl := Option.some.inj h
        cases hes.get? hget with
        | table hfits => exact hes.put (.table (ih hfits hinner))
      · exact nomatch h
    · rename_i items hget
      obtain ⟨last, hlast, h⟩ := Option.bind_eq_some_iff.mp h
      obtain ⟨inner, hinner, h⟩ := Option.bind_eq_some_iff.mp h
      obtain rfl := Option.some.inj h
      cases hes.get? hget with
      | tables hfits =>
        refine hes.put (.tables fun es hes => ?_)
        rcases List.mem_append.mp hes with hes | hes
        · exact hfits es (List.dropLast_subset items hes)
        · obtain rfl := List.mem_singleton.mp hes
          exact ih (hfits last (List.mem_of_getLast? hlast)) hinner
    · exact nomatch h

theorem setKey {p : PathKind} {path : List String} (hes : es.Fits) (hv : v.Fits)
    (h : setKey p path name v es = some es') : es'.Fits := by
  refine modifyAt (fun kind es es' hes h => ?_) hes h
  split at h
  · exact hes.add? hv h
  · exact nomatch h

/-- What every step of a pass keeps, the pass keeps. -/
theorem of_foldlM {β : Type} {step : Entries → β → Option Entries} {bs : List β}
    (hstep : ∀ b ∈ bs, ∀ es es', Fits es → step es b = some es' → es'.Fits) (hes : es.Fits)
    (h : bs.foldlM step es = some es') : es'.Fits := by
  induction bs generalizing es with
  | nil =>
    obtain rfl := Option.some.inj h
    exact hes
  | cons b bs ih =>
    obtain ⟨hb, hbs⟩ := List.forall_mem_cons.mp hstep
    obtain ⟨es₁, h₁, h⟩ := Option.bind_eq_some_iff.mp h
    exact ih hbs (hb es es₁ hes h₁) h

theorem setKeys {p : PathKind} {keys : List (List String × String × Value)} (hkeys : ∀ k ∈ keys, k.2.2.Fits)
    (hes : es.Fits) (h : setKeys p keys es = some es') : es'.Fits :=
  of_foldlM (fun k hk _ _ hes h => setKey hes (hkeys k hk) h) hes h

/-- A section keeps it, whatever its header. -/
theorem addTo {s : Section} (hkeys : ∀ k ∈ s.keys, k.2.2.Fits) (hes : es.Fits) (h : s.addTo es = some es') :
    es'.Fits := by
  have hfill : ∀ {es es'}, Fits es → Entries.setKeys .key s.keys es = some es' → es'.Fits :=
    fun hes h => hes.setKeys hkeys h
  unfold Section.addTo at h
  split at h
  · exact hfill hes h
  · refine modifyAt (fun kind es es' hes h => ?_) hes h
    split at h
    · obtain ⟨inner, hinner, h⟩ := Option.bind_eq_some_iff.mp h
      obtain rfl := Option.some.inj h
      exact hes.append (.table (hfill fits_nil hinner))
    · rename_i inner hget
      obtain ⟨inner', hinner, h⟩ := Option.bind_eq_some_iff.mp h
      obtain rfl := Option.some.inj h
      cases hes.get? hget with
      | table hfits => exact hes.erase.append (.table (hfill hfits hinner))
    · exact nomatch h
  · refine modifyAt (fun kind es es' hes h => ?_) hes h
    split at h
    · obtain ⟨inner, hinner, h⟩ := Option.bind_eq_some_iff.mp h
      obtain rfl := Option.some.inj h
      exact hes.append (.tables (List.forall_mem_singleton.mpr (hfill fits_nil hinner)))
    · rename_i items hget
      obtain ⟨inner, hinner, h⟩ := Option.bind_eq_some_iff.mp h
      obtain rfl := Option.some.inj h
      cases hes.get? hget with
      | tables hfits =>
        refine hes.put (.tables fun es hes => ?_)
        rcases List.mem_append.mp hes with hes | hes
        · exact hfits es hes
        · obtain rfl := List.mem_singleton.mp hes
          exact hfill fits_nil hinner
    · exact nomatch h

end Fits

end Entries

/-! ### Documents -/

open Reader (Yields)

namespace Number

theorem fitting_yields (n : Int) : Yields Value.Fits (fitting n) := by
  unfold fitting
  split
  · rename_i h
    exact .pure (.integer (by omega))
  · exact .failure

theorem value_yields : Yields Value.Fits value := by
  have hbased : ∀ mark base, Yields Value.Fits (based mark base) :=
    fun _ _ => .after fun _ => .after fun _ => fitting_yields _
  refine .orElse ?pointed (.orElse ?special
    (.orElse (hbased _ _) (.orElse (hbased _ _) (.orElse (hbased _ _) ?decimal))))
  case pointed =>
    refine .after fun negative => .after fun whole => .after fun (fraction, power) => ?_
    dsimp only
    split
    · exact .pure (.float _)
    · split
      · exact .failure
      · exact .pure (.float _)
  case special => exact .after fun _ => .after fun _ => .pure (.float _)
  case decimal => exact .after fun _ => .after fun _ => fitting_yields _

end Number

namespace Expression

theorem scalar_yields : Yields Value.Fits scalar := by
  refine .orElse ?text (.orElse ?moment (.orElse Number.value_yields ?boolean))
  case text => exact .after fun _ => .pure (.string _)
  case moment => exact .after fun _ => .pure (.moment _)
  case boolean => exact .orElse (.after fun _ => .pure (.boolean _)) (.after fun _ => .pure (.boolean _))

variable {item : Reader Value} (hitem : Yields Value.Fits item)

include hitem

theorem array_yields : Yields Value.Fits (array item) := by
  have hitems : Yields (fun vs => ∀ v ∈ vs, v.Fits) (separated do
      Reader.filler
      let v ← item
      Reader.filler
      return v) :=
    .separated (.after fun _ => .bind hitem fun v hv => .after fun _ => .pure hv)
  refine .after fun _ => .bind hitems fun items hfits => ?_
  have hclose : ∀ r : Reader Unit, Yields Value.Fits (r >>= fun _ => do Reader.char ']'; return .array items) :=
    fun _ => .after fun _ => .after fun _ => .pure (.array hfits)
  dsimp only
  split
  · exact hclose _
  · exact .after fun _ => hclose _

theorem keyValue_yields : Yields (fun k => k.2.2.Fits) (keyValue item) :=
  .after fun (_, _) => .after fun _ => .after fun _ => .bind hitem fun _ hv => .pure hv

theorem braces_yields : Yields Value.Fits (braces item) := by
  have hkeys : Yields (fun ks => ∀ k ∈ ks, k.2.2.Fits) (separated do
      let k ← keyValue item
      Reader.blanks
      return k) :=
    .separated (.bind (keyValue_yields hitem) fun k hk => .after fun _ => .pure hk)
  refine .after fun _ => .bind hkeys fun keys hfits => .after fun _ => .after fun _ => ?_
  cases hset : Entries.setKeys .bracedKey keys [] with
  | none => exact .failure
  | some es => exact .pure (.table (Entries.fits_nil.setKeys hfits hset))

omit hitem in
theorem value_yields (depth : Nat) : Yields Value.Fits (value depth) := by
  induction depth with
  | zero => exact scalar_yields
  | succ depth ih => exact .orElse scalar_yields (.orElse (array_yields ih) (braces_yields ih))

end Expression

namespace Document

theorem keys_yields : Yields (fun ks => ∀ k ∈ ks, k.2.2.Fits) keys := by
  have hline : Yields (fun k? : Option (List String × String × Value) => ∀ k ∈ k?, k.2.2.Fits)
      ((do
        let k ← Expression.keyValue (Expression.value maxDepth)
        Reader.lineEnd
        return some k) <|>
      (do Reader.comment; Reader.newline <|> Reader.atEnd; return none) <|>
      (do Reader.newline; return none) <|>
      (do let _ ← Reader.takeWhile1 Reader.isBlank; return none)) := by
    have hnone : ∀ r : Reader Unit,
        Yields (fun k? : Option (List String × String × Value) => ∀ k ∈ k?, k.2.2.Fits) (r >>= fun _ => return none) :=
      fun _ => .after fun _ => .pure (by simp)
    refine .orElse (.bind (Expression.keyValue_yields (Expression.value_yields maxDepth)) fun k hk => ?_)
      (.orElse (.after fun _ => hnone _) (.orElse (hnone _) (.after fun _ => .pure (by simp))))
    exact .after fun _ => .pure (by simpa using hk)
  refine .bind (.many hline) fun items hitems => .pure fun k hk => ?_
  obtain ⟨k?, hmem, rfl⟩ := List.mem_filterMap.mp hk
  exact hitems _ hmem k rfl

theorem sections_yields : Yields (fun ss => ∀ s ∈ ss, ∀ k ∈ s.keys, k.2.2.Fits) sections := by
  have hheaded : Yields (fun s => ∀ k ∈ s.keys, k.2.2.Fits) headed :=
    .after fun _ => .bind keys_yields fun _ hkeys => .pure hkeys
  refine .after fun _ => .bind keys_yields fun first hfirst => .bind (.many hheaded) fun more hmore => ?_
  exact .after fun _ => .pure (List.forall_mem_cons.mpr ⟨hfirst, hmore⟩)

/-- **The whole numbers of every document have 64 bits with a sign.** -/
theorem fits_of_ofString? {text : String} {es : Entries} (h : ofString? text = some es) : es.Fits := by
  obtain ⟨⟨ss, rest⟩, hread, hfold⟩ := Option.bind_eq_some_iff.mp h
  have hsections := sections_yields _ _ _ hread
  exact Entries.Fits.of_foldlM (fun s hs _ _ hes h => hes.addTo (hsections s hs) h) Entries.fits_nil hfold

end Document

/-! ### Words -/

theorem Value.Fits.word?_lt {v : Value} {n : UInt64} (hv : v.Fits) (h : v.word? = some n) :
    n.toNat < 2 ^ 63 := by
  unfold word? at h
  split at h
  · rename_i m
    split at h
    · obtain rfl := Option.some.inj h
      cases hv with
      | integer hm =>
        rw [UInt64.toNat_ofNat']
        omega
    · exact nomatch h
  · exact nomatch h

theorem Value.Fits.items? {v : Value} {items : List Value} (hv : v.Fits) (h : v.items? = some items) :
    ∀ w ∈ items, w.Fits := by
  unfold Value.items? at h
  split at h
  · obtain rfl := Option.some.inj h
    cases hv with
    | array hitems => exact hitems
  · obtain rfl := Option.some.inj h
    cases hv with
    | tables hitems => exact List.forall_mem_map.mpr fun es hes => .table (hitems es hes)
  · exact nomatch h

/-- The fields of a record. -/
theorem Value.Fits.record? {v : Value} {place : Place} {names : List String} {es : Entries} (hv : v.Fits)
    (h : v.record? place names = some es) : es.Fits := by
  unfold Value.record? at h
  split at h
  · split at h
    · obtain rfl := Option.some.inj h
      cases hv with
      | table hes => exact hes
    · exact nomatch h
  · obtain ⟨items, hitems, h⟩ := Option.bind_eq_some_iff.mp h
    split at h
    · exact nomatch h
    · obtain rfl := Option.some.inj h
      exact fun e he => hv.items? hitems _ (List.of_mem_zip he).2

/-- A field with a word, or its default. -/
theorem Entries.Fits.field_word?_lt {es : Entries} {name : String} {default n : UInt64} (hes : es.Fits)
    (hdefault : default.toNat < 2 ^ 63) (h : es.field name Value.word? default = some n) : n.toNat < 2 ^ 63 := by
  unfold Entries.field at h
  split at h
  · rename_i v hget
    exact (hes.get? hget).word?_lt h
  · obtain rfl := Option.some.inj h
    exact hdefault

end Toml

open Toml

/-! ### Scenarios -/

/-- The words of an optimized time that a scenario file can hold. -/
structure OptimizationConfig.Fits (o : OptimizationConfig) : Prop where
  referenceTime : o.referenceTime.toNat < 2 ^ 63
  horizon : o.horizon.toNat < 2 ^ 63
  stepSize : o.stepSize.toNat < 2 ^ 63

namespace Config

theorem fits_default : OptimizationConfig.default.Fits where
  referenceTime := by decide
  horizon := by decide
  stepSize := by decide

theorem fits_of_optimization? {v : Value} {o : OptimizationConfig} (hv : v.Fits) (h : optimization? v = some o) :
    o.Fits := by
  obtain ⟨es, hes, h⟩ := Option.bind_eq_some_iff.mp h
  obtain ⟨r, hr, h⟩ := Option.bind_eq_some_iff.mp h
  obtain ⟨e, he, h⟩ := Option.bind_eq_some_iff.mp h
  obtain ⟨s, hs, h⟩ := Option.bind_eq_some_iff.mp h
  obtain ⟨_, -, h⟩ := Option.bind_eq_some_iff.mp h
  obtain ⟨_, -, h⟩ := Option.bind_eq_some_iff.mp h
  obtain ⟨_, -, h⟩ := Option.bind_eq_some_iff.mp h
  obtain rfl := Option.some.inj h
  have hfits := hv.record? hes
  exact ⟨hfits.field_word?_lt fits_default.referenceTime hr, hfits.field_word?_lt fits_default.horizon he,
    hfits.field_word?_lt fits_default.stepSize hs⟩

/-- **The words of the optimized time of a scenario file** are below `2 ^ 63`. -/
theorem fits_of_ofString? {text : String} {c : Config Double} (h : ofString? text = some c) :
    c.optimization.Fits := by
  obtain ⟨es, htext, h⟩ := Option.bind_eq_some_iff.mp h
  obtain ⟨fields, hfields, h⟩ := Option.bind_eq_some_iff.mp h
  obtain ⟨o, ho, h⟩ := Option.bind_eq_some_iff.mp h
  have hc : c.optimization = o := by
    simp only [bind, Option.bind_eq_some_iff, pure, Option.some.injEq] at h
    obtain ⟨_, -, _, -, _, -, _, -, _, -, _, -, _, -, rfl⟩ := h
    rfl
  rw [hc]
  have hes : Entries.Fits fields := Value.Fits.record? (.table (Document.fits_of_ofString? htext)) hfields
  unfold Entries.field at ho
  split at ho
  · rename_i v hget
    exact fits_of_optimization? (hes.get? hget) ho
  · obtain rfl := Option.some.inj ho
    exact fits_default

end Config

end HomeEnergy

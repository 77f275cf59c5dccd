/-!
# What computations come to

Building a problem, a scenario or a grid may fail, and so may every exchange. The lemmas of this module take
such computations apart, once for all places that do so.

* `exists_of_bind_eq_ok`, `exists_of_map_eq_ok` — a computation that succeeds has succeeded at every step.
* `mapM_eq_error_iff`, `map_eq_of_mapM_eq_ok` — **how a pass over a list fails, and what it keeps of the list**;
  `foldlM_keeps` — what a pass keeps of its state.
* `Agree` — computations that fail alike, or succeed with related results; `Agree.foldlM` — **loops agree if
  their steps do.**
-/

namespace HomeEnergy

section Steps

variable {ε β γ : Type}

theorem exists_of_bind_eq_ok {r : Except ε β} {f : β → Except ε γ} {y : γ} (h : (r >>= f) = .ok y) :
    ∃ x, r = .ok x ∧ f x = .ok y := by
  cases r with
  | error e => exact nomatch h
  | ok x => exact ⟨x, rfl, h⟩

theorem exists_of_map_eq_ok {r : Except ε β} {f : β → γ} {y : γ} (h : r.map f = .ok y) :
    ∃ x, r = .ok x ∧ f x = y := by
  cases r with
  | error e => exact nomatch h
  | ok x => exact ⟨x, rfl, Except.ok.inj h⟩

theorem map_eq_error_iff {f : β → γ} {r : Except ε β} {e : ε} : r.map f = .error e ↔ r = .error e := by
  cases r <;> simp [Except.map]

theorem eq_of_ite_eq_ok {p : Prop} [Decidable p] {x y : β} {e : ε}
    (h : (if p then .ok x else .error e) = Except.ok y) : x = y := by
  split at h
  · exact Except.ok.inj h
  · exact nomatch h

end Steps

/-! ### Passes over a list -/

/-- If elements fail in one way only, a pass over a list fails in that way as soon as some element does. -/
theorem mapM_eq_error_iff {ε β γ : Type} {f : β → Except ε γ} {Fails : β → Prop} {e₀ : ε} :
    ∀ {l : List β}, (∀ x ∈ l, ∀ e, f x = .error e ↔ e = e₀ ∧ Fails x) → ∀ e,
      (l.mapM f = .error e ↔ e = e₀ ∧ ∃ x ∈ l, Fails x) := by
  intro l
  induction l with
  | nil => intro _ e; simp [pure, Except.pure]
  | cons x l ih =>
    intro h e
    have hx := h x (by simp)
    have hrest := ih (fun y hy => h y (by simp [hy])) e
    rw [List.mapM_cons]
    cases hfx : f x with
    | error e' =>
      obtain ⟨rfl, hfails⟩ := (hx e').mp hfx
      show Except.error e' = .error e ↔ _
      rw [Except.error.injEq]
      exact ⟨fun h => ⟨h.symm, x, by simp, hfails⟩, fun h => h.1.symm⟩
    | ok y =>
      have hnot : ¬ Fails x := by
        intro hfails
        exact absurd (hfx.symm.trans ((hx e₀).mpr ⟨rfl, hfails⟩)) (by simp)
      show (l.mapM f >>= fun ys => pure (y :: ys)) = .error e ↔ _
      have hmap : (l.mapM f >>= fun ys => pure (y :: ys)) = (l.mapM f).map fun ys => y :: ys := by
        cases l.mapM f <;> rfl
      rw [hmap, map_eq_error_iff, hrest]
      simp [hnot]

/-- What a pass over a list keeps of each element, it keeps of the list. -/
theorem map_eq_of_mapM_eq_ok {ε β γ δ : Type} {f : β → Except ε γ} {view : γ → δ} {view' : β → δ}
    (hview : ∀ x y, f x = .ok y → view y = view' x) :
    ∀ {l : List β} {ys : List γ}, l.mapM f = .ok ys → ys.map view = l.map view' := by
  intro l
  induction l with
  | nil =>
    intro ys h
    obtain rfl : [] = ys := Except.ok.inj h
    rfl
  | cons x l ih =>
    intro ys h
    rw [List.mapM_cons] at h
    obtain ⟨y, hy, h⟩ := exists_of_bind_eq_ok h
    obtain ⟨ys', hys, h⟩ := exists_of_bind_eq_ok h
    obtain rfl : y :: ys' = ys := Except.ok.inj h
    rw [List.map_cons, List.map_cons, hview x y hy, ih hys]

/-- What every step of a pass keeps, the pass keeps. -/
theorem foldlM_keeps {σ β ε : Type} (R : σ → Prop) {step : σ → β → Except ε σ} :
    ∀ {l : List β}, (∀ b ∈ l, ∀ s s', R s → step s b = .ok s' → R s') →
      ∀ {s s'}, R s → l.foldlM step s = .ok s' → R s' := by
  intro l
  induction l with
  | nil =>
    intro _ s s' hs h
    obtain rfl : s = s' := Except.ok.inj h
    exact hs
  | cons b l ih =>
    intro hstep s s' hs h
    rw [List.foldlM_cons] at h
    obtain ⟨s₁, h₁, h⟩ := exists_of_bind_eq_ok h
    exact ih (fun b hb => hstep b (by simp [hb])) (hstep b (by simp) s s₁ hs h₁) h

/-! ### Computations that agree -/

/-- Computations that fail alike, or succeed with related results. -/
inductive Agree {ε α β : Type} (R : α → β → Prop) : Except ε α → Except ε β → Prop where
  | error (e : ε) : Agree R (.error e) (.error e)
  | ok {a : α} {b : β} (h : R a b) : Agree R (.ok a) (.ok b)

namespace Agree

variable {ε α β γ δ : Type} {R : α → β → Prop} {S : γ → δ → Prop}

theorem refl {R : α → α → Prop} (hR : ∀ a, R a a) (x : Except ε α) : Agree R x x := by
  cases x with
  | error e => exact .error e
  | ok a => exact .ok (hR a)

theorem map_right (f : α → β) (x : Except ε α) : Agree (fun a b => b = f a) x (x.map f) := by
  cases x with
  | error e => exact .error e
  | ok a => exact .ok rfl

theorem symm {x : Except ε α} {y : Except ε β} (h : Agree R x y) : Agree (fun b a => R a b) y x := by
  cases h with
  | error e => exact .error e
  | ok h => exact .ok h

theorem mono {R' : α → β → Prop} (hR : ∀ a b, R a b → R' a b) {x : Except ε α} {y : Except ε β}
    (h : Agree R x y) : Agree R' x y := by
  cases h with
  | error e => exact .error e
  | ok h => exact .ok (hR _ _ h)

theorem exists_of {x : Except ε α} {y : Except ε β} (h : Agree R x y) :
    (∃ e, x = .error e ∧ y = .error e) ∨ ∃ a b, x = .ok a ∧ y = .ok b ∧ R a b := by
  cases h with
  | error e => exact Or.inl ⟨e, rfl, rfl⟩
  | ok h => exact Or.inr ⟨_, _, rfl, rfl, h⟩

theorem bind {x : Except ε α} {y : Except ε β} (h : Agree R x y) {f : α → Except ε γ}
    {g : β → Except ε δ} (hfg : ∀ a b, R a b → Agree S (f a) (g b)) : Agree S (x >>= f) (y >>= g) := by
  cases h with
  | error e => exact .error e
  | ok h => exact hfg _ _ h

/-- **Loops over one list agree if their steps do.** -/
theorem foldlM {R : β → γ → Prop} {f : β → α → Except ε β} {g : γ → α → Except ε γ} :
    ∀ (l : List α), (∀ x ∈ l, ∀ b c, R b c → Agree R (f b x) (g c x)) → ∀ b c, R b c →
      Agree R (l.foldlM f b) (l.foldlM g c) := by
  intro l
  induction l with
  | nil =>
    intro _ b c h
    exact .ok h
  | cons x l ih =>
    intro hstep b c h
    rw [List.foldlM_cons, List.foldlM_cons]
    exact (hstep x (by simp) b c h).bind (ih fun y hy => hstep y (by simp [hy]))

end Agree

end HomeEnergy

import HomeEnergy.Pool
import Mathlib.Data.List.Nodup
import Mathlib.Data.List.Perm.Subperm

/-!
# Loans of a pool

Any number of clients take containers out of a pooled pool and give them back. An acquisition has two steps, and
the steps of others may come between them: it asks the queue of the idle containers for the one that has been idle
longest, and if the queue is empty it copies the master. Asking and giving back are single steps.

* `Pool.acquire_eq` — an acquisition is these two steps.
* `Lending`, `Lending.Move`, `Lending.run` — a pool and what is out of it, and every interleaving of the steps.
* `Lending.Accounted` — the invariant: **the numbers of the idle containers and of those on loan are the numbers of
  the copies, each once**, and copies are made only as long as demand reaches a new peak.
* `Lending.step_accounted`, `Lending.run_accounted` — each step keeps it, and so does every history.
* `Lending.peak_live_le_created`, `Lending.peak_live` — how the copies compare with the guards live at the same time.
* `containers_exclusively_owned` — what this says of the pool; `interrupted_acquisition_overcounts` — a history with
  more copies than guards live at the same time.
-/

namespace HomeEnergy

variable {C : Type}

namespace Pool

def idle : Pool C → List (Loan C)
  | shared _ => []
  | pooled _ idle _ => idle

def created : Pool C → Nat
  | shared _ => 0
  | pooled _ _ created => created

def pop? : Pool C → Option (Loan C × Pool C)
  | pooled master (loan :: idle) created => some (loan, pooled master idle created)
  | _ => none

/-- Hands out a new copy of the master. A shared pool has one container for all. -/
def copy : Pool C → Loan C × Pool C
  | shared c => ({ number := 0, container := c }, shared c)
  | pooled master idle created =>
    ({ number := created, container := master }, pooled master idle (created + 1))

theorem created_pop {pool : Pool C} {handed : Loan C × Pool C} (h : pool.pop? = some handed) :
    handed.2.created = pool.created := by
  match pool with
  | shared _ => exact nomatch h
  | pooled _ [] _ => exact nomatch h
  | pooled _ (_ :: _) _ =>
    obtain rfl := Option.some.inj h
    rfl

theorem created_le_copy (pool : Pool C) : pool.created ≤ pool.copy.2.created := by
  match pool with
  | shared _ => exact Nat.le_refl _
  | pooled _ _ created => exact Nat.le_succ created

theorem created_release (pool : Pool C) (loan : Loan C) :
    (pool.release loan).created = pool.created := by
  cases pool <;> rfl

/-- An acquisition takes an idle container or else makes a copy. -/
theorem acquire_eq (pool : Pool C) : pool.acquire = pool.pop?.getD pool.copy := by
  match pool with
  | shared _ => rfl
  | pooled _ [] _ => rfl
  | pooled _ (_ :: _) _ => rfl

end Pool

/-- A pool, and what clients have taken out of it. -/
structure Lending (C : Type) where
  pool : Pool C
  -- acquisitions that have found no idle container and have not copied the master yet
  copying : Nat
  guards : List (Loan C)

namespace Lending

/-- What a client can do. An acquisition is a move by itself if nobody else moves meanwhile. Otherwise it begins by
asking for an idle container, and ends with a copy of the master if there is none. Whoever has a guard may work on its
container and drop it. A move that is not possible does nothing. -/
inductive Move (C : Type) where
  | acquire
  | ask
  | copy
  | work (k : Nat) (c : C)
  | drop (k : Nat)

/-- A move that leaves no acquisition halfway. -/
def Move.IsWhole : Move C → Prop
  | ask | copy => False
  | _ => True

def new (master : C) : Lending C :=
  { pool := .new master true, copying := 0, guards := [] }

def lend (l : Lending C) (handed : Loan C × Pool C) : Lending C :=
  { l with pool := handed.2, guards := l.guards ++ [handed.1] }

/-- One move. -/
def step (l : Lending C) : Move C → Lending C
  | .acquire => l.lend l.pool.acquire
  | .ask =>
    match l.pool.pop? with
    | some handed => l.lend handed
    | none => { l with copying := l.copying + 1 }
  | .copy =>
    if l.copying = 0 then l else lend { l with copying := l.copying - 1 } l.pool.copy
  | .work k c =>
    match l.guards[k]? with
    | some loan => { l with guards := l.guards.set k { loan with container := c } }
    | none => l
  | .drop k =>
    match l.guards[k]? with
    | some loan => { l with pool := l.pool.release loan, guards := l.guards.eraseIdx k }
    | none => l

def run (l : Lending C) (moves : List (Move C)) : Lending C :=
  moves.foldl step l

def live (l : Lending C) : Nat := l.guards.length

/-- The number of containers that are asked for at the same time: one for each live guard and one for each
acquisition that has begun. -/
def demand (l : Lending C) : Nat := l.live + l.copying

/-- The greatest value that a measure has had in a history, its beginning and its end included. -/
def peak (measure : Lending C → Nat) (l : Lending C) : List (Move C) → Nat
  | [] => measure l
  | move :: moves => max (measure l) (peak measure (l.step move) moves)

def idleCount (l : Lending C) (n : Nat) : Nat := (l.pool.idle.map Loan.number).count n

def heldCount (l : Lending C) (n : Nat) : Nat := (l.guards.map Loan.number).count n

/-- The numbers of all containers, those of the idle ones first. -/
def numbers (l : Lending C) : List Nat := (l.pool.idle ++ l.guards).map Loan.number

/-- The invariant: the pool is that of its master, every copy is idle or on loan, and the copies that have been made
or begun are as many as the containers that have been asked for at the same time. -/
structure Accounted (l : Lending C) (master : C) (peak : Nat) : Prop where
  pooled : ∃ idle created, l.pool = .pooled master idle created
  numbers_perm : l.numbers.Perm (List.range l.pool.created)
  copies : l.pool.created + l.copying = peak

theorem new_accounted (master : C) : (new master).Accounted master 0 where
  pooled := ⟨[], 0, rfl⟩
  numbers_perm := List.Perm.refl []
  copies := rfl

/-! ### One move -/

section Step

variable {l : Lending C} {master : C} {p : Nat}

theorem Accounted.idle_add_live (h : l.Accounted master p) :
    l.pool.idle.length + l.live = l.pool.created := by
  have hlength := h.numbers_perm.length_eq
  rwa [numbers, List.length_map, List.length_append, List.length_range] at hlength

theorem Accounted.demand_le (h : l.Accounted master p) : l.demand ≤ p := by
  have hcopies := h.copies
  have hall := h.idle_add_live
  unfold demand
  omega

/-- A loan of an idle container moves its number from one list to the other. -/
theorem Accounted.lend_idle (h : l.Accounted master p) {handed : Loan C × Pool C}
    (hpop : l.pool.pop? = some handed) :
    (l.lend handed).Accounted master p := by
  obtain ⟨idle, created, hpool⟩ := h.pooled
  cases idle with
  | nil => rw [hpool] at hpop; exact absurd hpop (by simp [Pool.pop?])
  | cons loan idle =>
    rw [hpool] at hpop
    obtain rfl : (loan, .pooled master idle created) = handed := Option.some.inj hpop
    refine ⟨⟨idle, created, rfl⟩, ?_, ?_⟩
    · have hperm := h.numbers_perm
      simp only [numbers, hpool, Pool.idle, Pool.created] at hperm
      show ((idle ++ (l.guards ++ [loan])).map Loan.number).Perm (List.range created)
      refine (List.Perm.map _ ?_).trans hperm
      rw [← List.append_assoc]
      exact List.perm_append_singleton loan (idle ++ l.guards)
    · have hcopies := h.copies
      rwa [hpool] at hcopies

/-- An acquisition that finds the queue empty brings demand to a new peak: everything that there is is on loan. -/
theorem Accounted.begin_copy (h : l.Accounted master p) (hpop : l.pool.pop? = none) :
    Accounted { l with copying := l.copying + 1 } master (p + 1) ∧
      demand { l with copying := l.copying + 1 } = p + 1 := by
  obtain ⟨idle, created, hpool⟩ := h.pooled
  have hidle : l.pool.idle = [] := by
    cases idle with
    | nil => rw [hpool]; rfl
    | cons loan idle => rw [hpool] at hpop; exact absurd hpop (by simp [Pool.pop?])
  have hcopies := h.copies
  have hall := h.idle_add_live
  rw [hidle, List.length_nil] at hall
  refine ⟨⟨h.pooled, h.numbers_perm, ?_⟩, ?_⟩
  · show l.pool.created + (l.copying + 1) = p + 1
    omega
  · show l.live + (l.copying + 1) = p + 1
    omega

/-- A copy that was begun is made. -/
theorem Accounted.end_copy (h : l.Accounted master p) (hcopying : l.copying ≠ 0) :
    (lend { l with copying := l.copying - 1 } l.pool.copy).Accounted master p := by
  obtain ⟨idle, created, hpool⟩ := h.pooled
  rw [hpool]
  refine ⟨⟨idle, created + 1, rfl⟩, ?_, ?_⟩
  · have hperm := h.numbers_perm
    simp only [numbers, hpool, Pool.idle, Pool.created] at hperm
    show ((idle ++ (l.guards ++ [({ number := created, container := master } : Loan C)])).map Loan.number).Perm
      (List.range (created + 1))
    rw [← List.append_assoc, List.map_append, List.range_succ]
    exact hperm.append_right _
  · have hcopies := h.copies
    rw [hpool] at hcopies
    show created + 1 + (l.copying - 1) = p
    simp only [Pool.created] at hcopies
    omega

/-- An acquisition while nobody else moves is its two steps, or the first of them. -/
theorem step_acquire (l : Lending C) :
    l.step .acquire = l.step .ask ∨ l.step .acquire = (l.step .ask).step .copy := by
  cases hpop : l.pool.pop? with
  | some handed =>
    refine Or.inl ?_
    simp only [step, hpop, Pool.acquire_eq, Option.getD_some]
  | none =>
    refine Or.inr ?_
    simp only [step, hpop, Pool.acquire_eq, Option.getD_none, if_neg (Nat.succ_ne_zero _)]
    rfl

/-- Changes to the container of a guard leave its number alone. -/
theorem Accounted.work (h : l.Accounted master p) {k : Nat} {loan : Loan C}
    (hk : l.guards[k]? = some loan) (c : C) :
    Accounted { l with guards := l.guards.set k { loan with container := c } } master p := by
  refine ⟨h.pooled, ?_, h.copies⟩
  have hsame : (l.guards.set k { loan with container := c }).map Loan.number
      = l.guards.map Loan.number := by
    obtain ⟨hlt, rfl⟩ := List.getElem?_eq_some_iff.mp hk
    rw [List.map_set]
    exact (congrArg _ (List.getElem_map _).symm).trans (List.set_getElem_self (by simpa using hlt))
  have hperm := h.numbers_perm
  rw [numbers, List.map_append] at hperm ⊢
  rwa [hsame]

/-- A container that is given back is idle. -/
theorem Accounted.drop (h : l.Accounted master p) {k : Nat} {loan : Loan C}
    (hk : l.guards[k]? = some loan) :
    Accounted { l with pool := l.pool.release loan, guards := l.guards.eraseIdx k } master p := by
  obtain ⟨idle, created, hpool⟩ := h.pooled
  have hperm := h.numbers_perm
  have hcopies := h.copies
  simp only [numbers, hpool, Pool.idle, Pool.created] at hperm hcopies
  obtain ⟨hlt, rfl⟩ := List.getElem?_eq_some_iff.mp hk
  rw [hpool]
  refine ⟨⟨idle ++ [l.guards[k]], created, rfl⟩, ?_, hcopies⟩
  show ((idle ++ [l.guards[k]] ++ l.guards.eraseIdx k).map Loan.number).Perm (List.range created)
  refine (List.Perm.map _ ?_).trans hperm
  rw [List.append_assoc, List.singleton_append]
  exact (List.getElem_cons_eraseIdx_perm hlt).append_left idle

theorem Accounted.stays (h : l.Accounted master p) : l.Accounted master (max p l.demand) := by
  rwa [Nat.max_eq_left h.demand_le]

theorem ask_accounted (h : l.Accounted master p) :
    (l.step .ask).Accounted master (max p (l.step .ask).demand) := by
  cases hpop : l.pool.pop? with
  | some handed =>
    simp only [step, hpop]
    exact (h.lend_idle hpop).stays
  | none =>
    obtain ⟨hnext, hdemand⟩ := h.begin_copy hpop
    simp only [step, hpop, hdemand]
    rwa [Nat.max_eq_right (Nat.le_succ p)]

theorem copy_accounted (h : l.Accounted master p) : (l.step .copy).Accounted master p := by
  by_cases hcopying : l.copying = 0
  · simpa only [step, if_pos hcopying] using h
  · simpa only [step, if_neg hcopying] using h.end_copy hcopying

/-- Whoever copies the master has asked for a container before. -/
theorem demand_copy (l : Lending C) : (l.step .copy).demand = l.demand := by
  by_cases hcopying : l.copying = 0
  · simp only [step, if_pos hcopying]
  · simp only [step, if_neg hcopying, demand, live, lend, List.length_append, List.length_singleton]
    omega

/-- **Every move keeps the account**, with demand at its new peak. -/
theorem step_accounted (h : l.Accounted master p) (move : Move C) :
    (l.step move).Accounted master (max p (l.step move).demand) := by
  cases move with
  | acquire =>
    rcases l.step_acquire with hacquire | hacquire
    · rw [hacquire]
      exact ask_accounted h
    · rw [hacquire, demand_copy]
      exact copy_accounted (ask_accounted h)
  | ask => exact ask_accounted h
  | copy => exact (copy_accounted h).stays
  | work k c =>
    simp only [step]
    split
    · rename_i loan hk
      exact (h.work hk c).stays
    · exact h.stays
  | drop k =>
    simp only [step]
    split
    · rename_i loan hk
      exact (h.drop hk).stays
    · exact h.stays

end Step

/-! ### A history -/

/-- **Every history keeps the account**: it closes at the greatest demand that there has been. -/
theorem run_accounted {master : C} (moves : List (Move C)) :
    ∀ {l : Lending C} {p : Nat}, l.Accounted master p →
      (l.run moves).Accounted master (max p (peak demand l moves)) := by
  induction moves with
  | nil => intro l p h; exact h.stays
  | cons move moves ih =>
    intro l p h
    have hstart := h.demand_le
    have hrun := ih (step_accounted h move)
    have hfirst : (l.step move).demand ≤ peak demand (l.step move) moves := by
      cases moves with
      | nil => exact Nat.le_refl _
      | cons _ _ => exact Nat.le_max_left _ _
    show ((l.step move).run moves).Accounted master (max p (max l.demand (peak demand (l.step move) moves)))
    rwa [show max p (max l.demand (peak demand (l.step move) moves))
        = max (max p (l.step move).demand) (peak demand (l.step move) moves) by omega]

/-! ### Copies and live guards -/

theorem created_le_ask (l : Lending C) : l.pool.created ≤ (l.step .ask).pool.created := by
  cases hpop : l.pool.pop? with
  | some handed =>
    simp only [step, hpop, lend, Pool.created_pop hpop]
    exact Nat.le_refl _
  | none =>
    simp only [step, hpop]
    exact Nat.le_refl _

theorem created_le_copy (l : Lending C) : l.pool.created ≤ (l.step .copy).pool.created := by
  by_cases hcopying : l.copying = 0
  · simp only [step, if_pos hcopying]
    exact Nat.le_refl _
  · simp only [step, if_neg hcopying]
    exact l.pool.created_le_copy

/-- No move destroys a copy. -/
theorem created_le_step (l : Lending C) (move : Move C) : l.pool.created ≤ (l.step move).pool.created := by
  cases move with
  | acquire =>
    rcases l.step_acquire with hacquire | hacquire
    · rw [hacquire]
      exact created_le_ask l
    · rw [hacquire]
      exact Nat.le_trans (created_le_ask l) (created_le_copy _)
  | ask => exact created_le_ask l
  | copy => exact created_le_copy l
  | work k c =>
    simp only [step]
    split
    · exact Nat.le_refl _
    · exact Nat.le_refl _
  | drop k =>
    simp only [step]
    split
    · exact Nat.le_of_eq (Pool.created_release _ _).symm
    · exact Nat.le_refl _

theorem created_le_run (moves : List (Move C)) :
    ∀ l : Lending C, l.pool.created ≤ (l.run moves).pool.created := by
  induction moves with
  | nil => exact fun l => Nat.le_refl _
  | cons move moves ih => exact fun l => Nat.le_trans (l.created_le_step move) (ih (l.step move))

/-- **There are never fewer copies than guards that have been live at the same time.** -/
theorem peak_live_le_created {master : C} (moves : List (Move C)) :
    ∀ {l : Lending C} {p : Nat}, l.Accounted master p → peak live l moves ≤ (l.run moves).pool.created := by
  have hlive : ∀ {l : Lending C} {p : Nat}, l.Accounted master p → l.live ≤ l.pool.created := by
    intro l p h
    have hall := h.idle_add_live
    omega
  induction moves with
  | nil => exact hlive
  | cons move moves ih =>
    intro l p h
    have hfirst := hlive h
    have hstay := created_le_run (move :: moves) l
    exact Nat.max_le.mpr ⟨Nat.le_trans hfirst hstay, ih (step_accounted h move)⟩

/-- Without halfway acquisitions, the guards alone make up the demand. -/
theorem copying_step {l : Lending C} (h : l.copying = 0) {move : Move C} (hmove : move.IsWhole) :
    (l.step move).copying = 0 := by
  cases move with
  | acquire => exact h
  | ask => exact hmove.elim
  | copy => exact hmove.elim
  | work k c =>
    simp only [step]
    split <;> exact h
  | drop k =>
    simp only [step]
    split <;> exact h

theorem peak_live (moves : List (Move C)) :
    ∀ {l : Lending C}, l.copying = 0 → (∀ move ∈ moves, move.IsWhole) →
      (l.run moves).copying = 0 ∧ peak demand l moves = peak live l moves := by
  induction moves with
  | nil =>
    intro l h _
    exact ⟨h, by simp [peak, demand, h]⟩
  | cons move moves ih =>
    intro l h hmoves
    obtain ⟨hend, hpeak⟩ := ih (copying_step h (hmoves move (by simp)))
      fun move' hmove' => hmoves move' (by simp [hmove'])
    refine ⟨hend, ?_⟩
    simp only [peak, hpeak, demand, h, Nat.add_zero]

end Lending

/-- **Containers are exclusively owned.** Whatever moves have been made, in whatever order and by however many
clients:

* every copy of the master is idle or on loan to a single guard, and never both;
* there are no other containers, so that the master, which has no number, is not handed out, and it is what it was
  in the beginning, whatever has become of the copies;
* as many copies are made or begun as containers have been asked for at the same time. These are at least as many as
  guards have been live at the same time, and just as many if no acquisition is interrupted. -/
theorem containers_exclusively_owned (master : C) (moves : List (Lending.Move C)) :
    let l := (Lending.new master).run moves
    (∀ n < l.pool.created,
      (l.idleCount n = 1 ∧ l.heldCount n = 0) ∨ (l.idleCount n = 0 ∧ l.heldCount n = 1)) ∧
    (∀ loan ∈ l.pool.idle ++ l.guards, loan.number < l.pool.created) ∧
    l.pool.master = master ∧
    l.pool.created + l.copying = Lending.peak Lending.demand (.new master) moves ∧
    Lending.peak Lending.live (.new master) moves ≤ l.pool.created ∧
    ((∀ move ∈ moves, move.IsWhole) →
      l.pool.created = Lending.peak Lending.live (.new master) moves) := by
  intro l
  have h : l.Accounted master (max 0 (Lending.peak Lending.demand (.new master) moves)) :=
    Lending.run_accounted moves (Lending.new_accounted master)
  rw [Nat.zero_max] at h
  obtain ⟨idle, created, hpool⟩ := h.pooled
  refine ⟨?_, ?_, ?_, h.copies, ?_, ?_⟩
  · intro n hn
    have hone : l.idleCount n + l.heldCount n = 1 := by
      rw [Lending.idleCount, Lending.heldCount, ← List.count_append, ← List.map_append]
      rw [show (l.pool.idle ++ l.guards).map Loan.number = l.numbers from rfl, h.numbers_perm.count_eq]
      exact List.count_eq_one_of_mem List.nodup_range (List.mem_range.mpr hn)
    omega
  · intro loan hloan
    exact List.mem_range.mp (h.numbers_perm.mem_iff.mp (List.mem_map_of_mem hloan))
  · rw [hpool]
    rfl
  · exact Lending.peak_live_le_created moves (Lending.new_accounted master)
  · intro hmoves
    obtain ⟨hcopying, hpeak⟩ := Lending.peak_live moves (l := .new master) rfl hmoves
    have hcopies := h.copies
    rw [show l.copying = 0 from hcopying, hpeak] at hcopies
    exact hcopies

/-- Two clients of which the second gives its container back, and a third that takes it over: two copies are enough
for two guards at a time. -/
theorem containers_exclusively_owned_relay :
    let moves : List (Lending.Move Nat) := [.acquire, .acquire, .work 0 7, .drop 1, .acquire]
    let l := (Lending.new 5).run moves
    (∀ move ∈ moves, move.IsWhole) ∧ l.pool.master = 5 ∧ l.heldCount 0 = 1 ∧ l.heldCount 1 = 1 ∧
      Lending.peak Lending.live (.new 5) moves = 2 ∧ l.pool.created = 2 := by
  intro moves l
  have hwhole : ∀ move ∈ moves, move.IsWhole := by
    simp [moves, Lending.Move.IsWhole]
  have hpeak : Lending.peak Lending.live (.new 5) moves = 2 := by decide
  obtain ⟨hplace, -, hmaster, -, -, hcopies⟩ := containers_exclusively_owned 5 moves
  have hcreated : l.pool.created = 2 := (hcopies hwhole).trans hpeak
  have hheld : ∀ n < 2, l.heldCount n = 1 := by
    intro n hn
    have hidle : l.idleCount n = 0 := by
      have hnone : l.pool.idle = [] := rfl
      rw [Lending.idleCount, hnone, List.map_nil, List.count_nil]
    rcases hplace n (hcreated ▸ hn) with ⟨hone, -⟩ | ⟨-, hone⟩
    · exact absurd (hidle.symm.trans hone) (by decide)
    · exact hone
  exact ⟨hwhole, hmaster, hheld 0 (by decide), hheld 1 (by decide), hpeak, hcreated⟩

/-- **An interrupted acquisition makes a copy too many.** A client finds the queue empty because the only container is
on loan. It is given back before the client copies the master: two copies, for one guard at a time. -/
theorem interrupted_acquisition_overcounts :
    let moves : List (Lending.Move Nat) := [.acquire, .ask, .drop 0, .copy]
    let l := (Lending.new 5).run moves
    l.copying = 0 ∧ l.pool.created = 2 ∧ Lending.peak Lending.live (.new 5) moves = 1 ∧
      l.pool.created ≠ Lending.peak Lending.live (.new 5) moves := by
  decide

end HomeEnergy

/-!
# Pools

Where evaluations get the container they work on. A shared pool has a single container, used by one
evaluation after the other. A pooled one keeps a master that is never handed out: an evaluation gets the
container that has been idle longest, or a copy of the master, and gives it back afterwards.

Every container of a pooled pool carries a number, so that two containers with equal contents are told
apart.
-/

namespace HomeEnergy

/-- A container on loan from a pool. -/
structure Loan (C : Type) where
  number : Nat
  container : C
deriving DecidableEq

/-- A source of containers. -/
inductive Pool (C : Type) where
  | shared (container : C)
  -- the idle copies, longest idle first, and the number of copies made
  | pooled (master : C) (idle : List (Loan C)) (created : Nat)
deriving DecidableEq

namespace Pool

variable {C : Type}

/-- The pool of a master. -/
def new (master : C) (pooled : Bool) : Pool C :=
  if pooled then .pooled master [] 0 else .shared master

def acquire : Pool C → Loan C × Pool C
  | shared c => ({ number := 0, container := c }, shared c)
  | pooled master (loan :: idle) created => (loan, pooled master idle created)
  | pooled master [] created =>
    ({ number := created, container := master }, pooled master [] (created + 1))

def release (pool : Pool C) (loan : Loan C) : Pool C :=
  match pool with
  | shared _ => shared loan.container
  | pooled master idle created => pooled master (idle ++ [loan]) created

def idleCount : Pool C → Nat
  | shared _ => 0
  | pooled _ idle _ => idle.length

/-- The master, or the shared container. -/
def master : Pool C → C
  | shared c => c
  | pooled master _ _ => master

end Pool

end HomeEnergy

import QueryLease.Proofs.Session.Runs

namespace QueryLease

/-- A lawful journal, that ends with the link once nobody owns the pool. -/
def Pool.InOrder {S : Source} (p : Pool S) : Prop :=
  LawfulCalls p.calls ∧ (p.owners = 0 → p.Ended)

namespace Session

open Pool

variable {V : Venue} {K : Kept V} {p : Nat}

inductive Outside (V : Venue) where
  | connect (link : V.source.Link) (mode : Mode) (keep : String)
  | work (act : V.source.State → V.source.State)

def Outside.perform : Outside V → StepM V Answer
  | connect link mode name => do
    Session.connect link mode name
    return .nothing
  | work act => onEngine fun s => (.nothing, act s)

def Object.pool? : Object V → Option Nat
  | connection p | result p _ | cursor p _ | row p _ | guard p _ | handle p _ => some p
  | rawRow _ | base _ => none

theorem Object.holding_of_ne {x : Object V} (h : x.pool? ≠ some p) : x.holding.1 p = 0 := by
  have other {q : Nat} (G : Stake) (h : some q ≠ some p) : (inPool q G : Holding V).1 p = 0 := by
    rw [inPool_fst, if_neg fun e => h (congrArg some e.symm)]
  cases x with
  | connection q => exact other _ h
  | result q k => exact other _ h
  | cursor q c => exact other _ h
  | row q r => exact other _ h
  | guard q k => exact other _ h
  | handle q k => exact other _ h
  | rawRow token => rfl
  | base b => rfl

theorem held_of_ne (h : ∀ e ∈ K, e.2.pool? ≠ some p) : (held K).1 p = 0 := by
  induction K with
  | nil => rfl
  | cons e K ih =>
    show e.2.holding.1 p + (held K).1 p = 0
    rw [Object.holding_of_ne (h e List.mem_cons_self),
      ih fun e he => h e (List.mem_cons_of_mem _ he), add_zero]

def Venue.Upkeep.free (V : Venue) : V.Upkeep where
  Good _ _ := True
  Pools _ := True
  execute_ok _ _ := trivial
  execute_error _ _ := trivial
  fetch _ := trivial
  read _ := trivial
  dispose _ := trivial
  close _ _ := trivial
  dropBase _ := trivial
  report _ := trivial

variable {U : Venue.Upkeep V} {E : Holding V} {s : Session V}

theorem Holds.pool_inOrder (hs : Holds U E s) : ∀ pool ∈ s.pools, pool.InOrder := by
  intro pool hpool
  obtain ⟨p, hp⟩ := Array.getElem?_of_mem hpool
  have sound := hs.held.sound p pool hp
  exact ⟨sound.leased.lawful, sound.ended_of_owners⟩

theorem Holds.pool_ended {pool : Pool V.source} (hs : Holds U 0 s) (hp : s.pools[p]? = some pool)
    (hk : ∀ e ∈ s.kept, e.2.pool? ≠ some p) : pool.Ended := by
  have sound := hs.held.sound p pool hp
  rw [add_zero, held_of_ne hk] at sound
  exact sound.ended_of_owners (sound.owners_eq_zero rfl fun _ => rfl)

theorem Outside.perform_neutral (x : Outside V) :
    NeutralStep (Venue.Upkeep.free V) x.perform x.perform := by
  intro E hE
  cases x with
  | connect link mode name =>
    refine ((connect_acts hE link mode name).pre fun s hs => ⟨⟨?_, ?_, trivial, trivial⟩, ?_⟩).bind
      fun _ => done
    · exact hs.held.sound
    · exact hs.held.absent
    · exact hs.ordered
  | work act =>
    exact Alike.keeps fun s hs => ⟨hs.held.of_fst rfl trivial, hs.ordered⟩

/-- In every state of a run the calls of every pool have been lawful, and have come to their end if
nobody owns the pool; which nobody does if nothing of it is kept. -/
theorem calls_in_order (engine : V.source.State) (prompt stop : Bool)
    (steps : List (Step (Attended (Outside V)))) :
    let act := Attended.perform Outside.perform
    Always act (fun s => ∀ pool ∈ s.pools, pool.InOrder) { engine, prompt } ∧
      let s := ((performAll act stop steps).run { engine, prompt }).2
      (∀ p pool, s.pools[p]? = some pool →
        pool.InOrder ∧ ((∀ e ∈ s.kept, e.2.pool? ≠ some p) → pool.Ended)) ∧
      ∀ pool ∈ (dropAll.run s).2.pools, pool.InOrder ∧ pool.Ended := by
  have start := holds_nothing (U := .free V) engine prompt trivial trivial
  have neutral := Attended.perform_neutral (Outside.perform_neutral (V := V))
  have after := (performAll_neutral neutral stop steps 0 Backed.zero).post start
  obtain ⟨last, empty⟩ := (dropAll_keeps Backed.zero).post after
  refine ⟨always_of_holds neutral (fun _ _ _ => Holds.pool_inOrder) start, ?_, ?_⟩
  · intro p pool hp
    exact ⟨after.pool_inOrder pool (Array.mem_of_getElem? hp), after.pool_ended hp⟩
  · intro pool hpool
    obtain ⟨p, hp⟩ := Array.getElem?_of_mem hpool
    refine ⟨last.pool_inOrder pool hpool, last.pool_ended hp ?_⟩
    rw [empty]
    exact fun _ => nofun

end Session

end QueryLease

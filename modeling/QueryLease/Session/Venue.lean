import QueryLease.Pool.Outline
import QueryLease.Session.Answer
import QueryLease.Session.Step

/-! Where a session is held, and the objects that it keeps by name. An object owns what it was made
from: a handle keeps its pool, rows and cursors keep their handle, a guard keeps its read and its
handle. A name that is used again is given to the new object before the old one is dropped. -/

namespace QueryLease.Session

/-- A source, and what beside it can be kept: the base that connections stand on. -/
structure Venue where
  source : Source
  Base : Type
  dropBase : Base → source.State → source.State
  baseOutline : Base → source.State → Option String
  numbered : Nat → Option source.Row
  report : source.State → Report × source.State

variable {V : Venue}

inductive Object (V : Venue) where
  | connection (pool : Nat)
  | result (pool handle : Nat)
  | cursor (pool : Nat) (c : Cursor V.source)
  | row (pool : Nat) (r : Row V.source)
  | guard (pool handle : Nat)
  | handle (pool handle : Nat)
  | rawRow (token : V.source.Row)
  | base (b : V.Base)

end Session

open Session

structure Session (V : Venue) where
  pools : Array (Pool V.source) := #[]
  engine : V.source.State
  kept : List (String × Object V) := []
  /-- Whether what an action leaves to a reaper is gone before the next action. -/
  prompt : Bool := true

abbrev SessionM (V : Venue) := StateM (Session V)

abbrev StepM (V : Venue) := ExceptT (Interrupt Trouble) (SessionM V)

namespace Session

def bad {α : Type} : StepM V α := throw (.failed .badStep)

def fail {α : Type} (e : Error) : StepM V α := throw (.failed (.failed e))

def ofExcept {α : Type} : Except Error α → StepM V α
  | .ok a => return a
  | .error e => fail e

def onEngine {α : Type} (act : V.source.State → α × V.source.State) : StepM V α := do
  let s ← get
  let (a, engine) := act s.engine
  set { s with engine }
  return a

/-- Works on one pool and on the source behind it; then its reaper does, if it is prompt. -/
def onPool (p : Nat) {α : Type} (act : PoolM V.source α) : StepM V α := do
  let s ← get
  match s.pools[p]? with
  | none => bad
  | some pool =>
    let (a, desk) := (act <* Pool.settle s.prompt).run ⟨pool, s.engine⟩
    set { s with pools := s.pools.setIfInBounds p desk.pool, engine := desk.engine }
    return a

def Object.drop : Object V → StepM V Unit
  | .connection p => onPool p Pool.leave
  | .result p h | .handle p h => onPool p (Pool.drop h)
  | .cursor p c => onPool p c.drop
  | .row p r => onPool p r.drop
  | .guard p h => onPool p do
    Pool.endRead h
    Pool.drop h
  | .rawRow _ => return ()
  | .base b => onEngine fun s => ((), V.dropBase b s)

def insert (name : String) (x : Object V) :
    List (String × Object V) → List (String × Object V) × Option (Object V)
  | [] => ([(name, x)], none)
  | (k, y) :: rest =>
    if name < k then ((name, x) :: (k, y) :: rest, none)
    else if name = k then ((name, x) :: rest, some y)
    else let (rest, old) := insert name x rest; ((k, y) :: rest, old)

def keep (name : String) (x : Object V) : StepM V Unit := do
  let s ← get
  let (kept, old) := insert name x s.kept
  set { s with kept }
  if let some old := old then old.drop

def connect (link : V.source.Link) (mode : Mode) (name : String) : StepM V Unit := do
  let p := (← get).pools.size
  modify fun s => { s with pools := s.pools.push { link, mode } }
  keep name (.connection p)

def replace (name : String) (x : Object V) : StepM V Unit :=
  modify fun s => { s with kept := (insert name x s.kept).1 }

def find (name : String) : StepM V (Object V) := do
  match (← get).kept.lookup name with
  | some x => return x
  | none => bad

def forget (name : String) : StepM V Unit := do
  let x ← find name
  modify fun s => { s with kept := s.kept.filter (·.1 != name) }
  x.drop

def connection (name : String) : StepM V Nat := do
  match ← find name with
  | .connection p => return p
  | _ => bad

def result (name : String) : StepM V (Nat × Nat) := do
  match ← find name with
  | .result p h => return (p, h)
  | _ => bad

def cursor (name : String) : StepM V (Nat × Cursor V.source) := do
  match ← find name with
  | .cursor p c => return (p, c)
  | _ => bad

def row (name : String) : StepM V (Nat × Row V.source) := do
  match ← find name with
  | .row p r => return (p, r)
  | _ => bad

def guard (name : String) : StepM V (Nat × Nat) := do
  match ← find name with
  | .guard p h => return (p, h)
  | _ => bad

def base (name : String) : StepM V V.Base := do
  match ← find name with
  | .base b => return b
  | _ => bad

def owned (name : String) : StepM V (Nat × Nat) := do
  match ← find name with
  | .result p h | .handle p h | .guard p h => return (p, h)
  | _ => bad

def rawRow : RawRow → StepM V V.source.Row
  | .kept name => do
    match ← find name with
    | .rawRow token => return token
    | _ => bad
  | .numbered n =>
    match V.numbered n with
    | some token => return token
    | none => bad

end Session

end QueryLease

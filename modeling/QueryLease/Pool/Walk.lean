import QueryLease.Pool.Read

namespace QueryLease

inductive Position (S : Source) where
  | ready
  | onRow (index : Nat) (token : S.Row)
  | exhausted

structure Cursor (S : Source) where
  handle : Nat
  position : Position S := .ready
  fetched : Nat := 0

namespace Cursor

variable {S : Source}

def index? (c : Cursor S) : Option Nat :=
  match c.position with
  | .onRow index _ => some index
  | _ => none

def exhausted (c : Cursor S) : Bool :=
  match c.position with
  | .exhausted => true
  | _ => false

def exhaust (c : Cursor S) : Cursor S := { c with position := .exhausted }

def take (h : Nat) : PoolM S (Except Error (Cursor S)) := do
  if ← Pool.claimCursor h then
    Pool.retain h
    return .ok { handle := h }
  else return .error (.invalidState .cursorTaken)

def drop (c : Cursor S) : PoolM S Unit := Pool.drop c.handle

def advance (c : Cursor S) : PoolM S (Except Error Bool × Cursor S) := do
  match c.position with
  | .exhausted => return (.ok false, c)
  | .ready | .onRow _ _ =>
    match ← Pool.acquire c.handle with
    | .error e => return (.error e, c.exhaust)
    | .ok () =>
      let fetched ← Pool.fetch c.handle
      Pool.endRead c.handle
      match fetched with
      | .ok (some token) =>
        return (.ok true, { c with position := .onRow c.fetched token, fetched := c.fetched + 1 })
      | .ok none => return (.ok false, c.exhaust)
      | .error fault => return (.error (.iteration c.fetched fault), c.exhaust)

def currentRow (c : Cursor S) : PoolM S (Except Error (Row S)) := do
  match c.position with
  | .onRow index token =>
    Pool.retain c.handle
    return .ok { handle := c.handle, token, index }
  | .ready => return .error (.invalidState .notAdvanced)
  | .exhausted => return .error (.invalidState .exhausted)

def next (c : Cursor S) : PoolM S (Option (Except Error (Row S)) × Cursor S) := do
  match ← c.advance with
  | (.ok true, c) => return (some (← c.currentRow), c)
  | (.ok false, c) => return (none, c)
  | (.error e, c) => return (some (.error e), c)

end Cursor

/-- How a walk was cut short: by an error, or by a caller that gave up in the middle. -/
inductive Interrupt (ε : Type) where
  | failed (e : ε)
  | panicked

namespace Pool

variable {S : Source} {m : Type → Type} [Monad m] {σ ε : Type}

/-- Visits the next row, if there is one, and goes on with `rest`. The row is dropped when it has
been visited, and the cursor when there is nothing to go on with. -/
def visitRow (onPool : {β : Type} → PoolM S β → m β) (fail : Error → ε)
    (visit : σ → Row S → m (σ × Except ε Unit)) (rest : σ → Cursor S → m (σ × Except ε Unit))
    (acc : σ) (c : Cursor S) : m (σ × Except ε Unit) := do
  match ← onPool c.next with
  | (none, c) =>
    onPool c.drop
    return (acc, .ok ())
  | (some (.error e), c) =>
    onPool c.drop
    return (acc, .error (fail e))
  | (some (.ok row), c) =>
    let (acc, outcome) ← visit acc row
    onPool row.drop
    match outcome with
    | .ok () => rest acc c
    | .error e =>
      onPool c.drop
      return (acc, .error e)

def visitRows (onPool : {β : Type} → PoolM S β → m β) (fail : Error → ε)
    (visit : σ → Row S → m (σ × Except ε Unit)) : Nat → σ → Cursor S → m (σ × Except ε Unit)
  | 0 => visitRow onPool fail visit fun acc c => do
    onPool c.drop
    return (acc, .ok ())
  | n + 1 => visitRow onPool fail visit (visitRows onPool fail visit n)

/-- Walks a result to its end or to the first failure. The source bounds the rows to come when the
walk begins, and only fetching uses them up. -/
def fold (onPool : {β : Type} → PoolM S β → m β) (fail : Error → ε) (h : Nat) (acc : σ)
    (visit : σ → Row S → m (σ × Except ε Unit)) : m (σ × Except ε Unit) := do
  match ← onPool (Cursor.take h) with
  | .error e => return (acc, .error (fail e))
  | .ok c => visitRows onPool fail visit (← onPool (rowsLeft h)) acc c

def forEachRow (onPool : {β : Type} → PoolM S β → m β) (h : Nat)
    (visit : Row S → m (Except Error Unit)) : m (Except Error Unit) := do
  let (_, outcome) ← fold onPool id h () fun _ row => return ((), ← visit row)
  return outcome

def collectRows {α : Type} (onPool : {β : Type} → PoolM S β → m β) (h : Nat)
    (map : Row S → m (Except Error α)) : m (Except Error (List α)) := do
  let (found, outcome) ← fold onPool id h [] fun found row => do
    match ← map row with
    | .ok a => return (a :: found, .ok ())
    | .error e => return (found, .error e)
  return outcome.map fun _ => found.reverse

def skipRow (rest : Cursor S → PoolM S (Except Error Unit × Cursor S)) (c : Cursor S) :
    PoolM S (Except Error Unit × Cursor S) := do
  match ← c.advance with
  | (.ok true, c) => rest c
  | (.ok false, c) => return (.ok (), c)
  | (.error e, c) => return (.error e, c)

def skipRows : Nat → Cursor S → PoolM S (Except Error Unit × Cursor S)
  | 0 => skipRow fun c => return (.ok (), c)
  | n + 1 => skipRow (skipRows n)

def run (text : String) : PoolM S (Except Error Unit) := do
  match ← query text with
  | .error e => return .error e
  | .ok h =>
    match ← Cursor.take h with
    | .error e =>
      drop h
      return .error e
    | .ok c =>
      let (outcome, c) ← skipRows (← rowsLeft h) c
      if let .ok () := outcome then discard (requestRelease h)
      c.drop
      drop h
      return outcome

end Pool

end QueryLease

import QueryLease.Pool

namespace QueryLease

structure Row (S : Source) where
  handle : Nat
  token : S.Row
  index : Nat

namespace Row

variable {S : Source}

def columns (r : Row S) : PoolM S (List String) := return (← get).pool.columns r.handle

def drop (r : Row S) : PoolM S Unit := Pool.drop r.handle

def clone (r : Row S) : PoolM S (Row S) := do
  Pool.retain r.handle
  return r

def checkColumn (r : Row S) (column : Nat) : PoolM S (Except Error Unit) := do
  let count := (← r.columns).length
  return if column < count then .ok () else .error (.indexOutOfRange column count)

/-- Starts a read and hands out the cell; the read is still in flight iff there is one. -/
def beginRead (r : Row S) (column : Nat) : PoolM S (Except Error Cell) := do
  match ← Pool.acquire r.handle with
  | .error e => return .error e
  | .ok () =>
    let cell ← Pool.readCell r.handle r.token column
    if let .error _ := cell then Pool.endRead r.handle
    return cell

section Callback

variable {m : Type → Type} [Monad m] {α : Type}

def withCell (onPool : {β : Type} → PoolM S β → m β) (r : Row S) (column : Nat)
    (look : Cell → m α) : m (Except Error α) := do
  match ← onPool (r.beginRead column) with
  | .error e => return .error e
  | .ok cell =>
    let a ← look cell
    onPool (Pool.endRead r.handle)
    return .ok a

end Callback

def read {α : Type} (r : Row S) (column : Nat) (take : Cell → Except Fault α) :
    PoolM S (Except Error α) := do
  let taken ← r.withCell id column fun cell => return (take cell).mapError Error.engine
  return taken >>= id

def isNull (r : Row S) (column : Nat) : PoolM S (Except Error Bool) :=
  r.read column fun cell => .ok cell.isNull

def value (r : Row S) (column : Nat) : PoolM S (Except Error Value) := r.read column Cell.toValue

def getValue (r : Row S) (column : Nat) : PoolM S (Except Error Value) := do
  match ← r.checkColumn column with
  | .error e => return .error e
  | .ok () => r.value column

def getByName (r : Row S) (name : String) : PoolM S (Except Error Value) := do
  match (← r.columns).idxOf? name with
  | none => return .error (.unknownColumn name)
  | some column => r.getValue column

def readColumns (r : Row S) : List Nat → PoolM S (Except Error (List Value))
  | [] => return .ok []
  | column :: rest => do
    let cell ← Pool.readCell r.handle r.token column
    match cell >>= fun c => c.toValue.mapError Error.engine with
    | .error e => return .error e
    | .ok v => return (v :: ·) <$> (← r.readColumns rest)

def values (r : Row S) : PoolM S (Except Error (List Value)) := do
  match ← Pool.acquire r.handle with
  | .error e => return .error e
  | .ok () =>
    let vs ← r.readColumns (List.range (← r.columns).length)
    Pool.endRead r.handle
    return vs

end Row

end QueryLease

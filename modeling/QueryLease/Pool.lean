import QueryLease.Lease.Word
import QueryLease.Source

/-! The results of one connection. A pool owns the buffers that its link has produced, each under a
lease, and sees each of them to its disposal: at once, on a collection pass, or by a reaper, as its
mode says. Handles are numbered from 1 in the order of their queries and stay in the pool's list
when their owners are gone. -/

namespace QueryLease

inductive Mode where
  | inline
  | deferred
  | background
  deriving DecidableEq

def Mode.name : Mode → String
  | inline => "Inline"
  | deferred => "Deferred"
  | background => "Background"

structure Stats where
  released : Nat
  disposed : Nat
  pending : Nat
  live : Nat
  deriving DecidableEq

structure Handle (S : Source) where
  buffer : S.Buffer
  columns : List String
  word : Lease.Word := .fresh
  cursorTaken : Bool := false
  owners : Nat := 1

/-- What a pool asks of its source for the buffer of a handle, with the lease's word at that
moment, and the end of the link. -/
inductive Pool.Call where
  | fetch (h : Nat) (word : Lease.Word)
  | read (h : Nat) (word : Lease.Word)
  | dispose (h : Nat) (word : Lease.Word)
  | close
  deriving DecidableEq

structure Pool (S : Source) where
  link : S.Link
  mode : Mode
  /-- Connections and owned handles. -/
  owners : Nat := 1
  handles : Array (Handle S) := #[]
  /-- Handles that may still be owned, in order. -/
  tracked : List Nat := []
  /-- Closed buffers that wait for their disposal, first come first. -/
  queue : List (Nat × S.Buffer) := []
  released : Nat := 0
  disposed : Nat := 0
  /-- Latest call first. -/
  calls : List Pool.Call := []

/-- A pool beside the state of the source that it draws on. -/
structure Desk (S : Source) where
  pool : Pool S
  engine : S.State

abbrev PoolM (S : Source) := StateM (Desk S)

namespace Pool

variable {S : Source}

def number (h : Nat) : Nat := h + 1

def owned (p : Pool S) (h : Nat) : Bool := p.handles[h]?.any (·.owners != 0)

def stats (p : Pool S) : Stats where
  released := p.released
  disposed := p.disposed
  pending := p.queue.length
  live := p.tracked.countP p.owned

def columns (p : Pool S) (h : Nat) : List String := p.handles[h]?.elim [] (·.columns)

/-- A handle that is not there counts as one long closed. -/
def word (p : Pool S) (h : Nat) : Lease.Word :=
  p.handles[h]?.elim .shut (·.word)

def update (p : Pool S) (h : Nat) (f : Handle S → Handle S) : Pool S :=
  { p with handles := p.handles.modify h f }

def note (p : Pool S) (call : Call) : Pool S := { p with calls := call :: p.calls }

def prune (p : Pool S) : Pool S := { p with tracked := p.tracked.filter p.owned }

/-- The list of tracked handles is pruned before it grows past a power of two. -/
def crowded (p : Pool S) : Bool :=
  64 ≤ p.tracked.length && Nat.pow 2 p.tracked.length.log2 == p.tracked.length

def track (p : Pool S) (h : Nat) : Pool S :=
  let p := if p.crowded then p.prune else p
  { p with tracked := p.tracked ++ [h] }

def enrol (p : Pool S) (buffer : S.Buffer) (columns : List String) : Pool S :=
  let p := p.track p.handles.size
  { p with handles := p.handles.push { buffer, columns }, owners := p.owners + 1 }

def edit (f : Pool S → Pool S) : PoolM S Unit := modify fun d => { d with pool := f d.pool }

def handle? (h : Nat) : PoolM S (Option (Handle S)) := return (← get).pool.handles[h]?

def disposeNow (h : Nat) (buffer : S.Buffer) : PoolM S Unit :=
  modify fun d =>
    { pool := { d.pool with disposed := d.pool.disposed + 1 }.note (.dispose h (d.pool.word h))
      engine := S.dispose d.pool.link buffer d.engine }

def reap (n : Nat) : PoolM S Unit := do
  let queue := (← get).pool.queue
  edit fun p => { p with queue := queue.drop n }
  (queue.take n).forM fun entry => disposeNow entry.1 entry.2

def collect : PoolM S Nat := do
  let n := (← get).pool.queue.length
  reap n
  return n

def handOver (h : Nat) (buffer : S.Buffer) : PoolM S Unit := do
  match (← get).pool.mode with
  | .inline => disposeNow h buffer
  | .deferred | .background => edit fun p => { p with queue := p.queue ++ [(h, buffer)] }

def finish (h : Nat) : PoolM S Unit := do
  match ← handle? h with
  | none => return ()
  | some x =>
    match x.word.finish? with
    | none => return ()
    | some w =>
      edit fun p => p.update h fun x => { x with word := w }
      handOver h x.buffer

def acquire (h : Nat) : PoolM S (Except Error Unit) := do
  match (← get).pool.word h |>.acquire with
  | .error refusal => return .error refusal.error
  | .ok w =>
    edit fun p => p.update h fun x => { x with word := w }
    return .ok ()

def endRead (h : Nat) : PoolM S Unit := do
  let (last, w) := (← get).pool.word h |>.endRead
  edit fun p => p.update h fun x => { x with word := w }
  if last then finish h

def requestRelease (h : Nat) : PoolM S Lease.Release := do
  let (first, w) := (← get).pool.word h |>.request
  edit fun p => p.update h fun x => { x with word := w }
  match first with
  | none => return .alreadyRequested
  | some reads =>
    edit fun p => { p with released := p.released + 1 }
    if reads = 0 then
      finish h
      return .freed
    else return .deferred reads

def releaseAll : PoolM S Nat := do
  edit prune
  let outcomes ← (← get).pool.tracked.mapM requestRelease
  return outcomes.countP (· != .alreadyRequested)

/-- One owner of the pool less. With the last one the waiting buffers are disposed of, and then the
link is closed. -/
def leave : PoolM S Unit := do
  edit fun p => { p with owners := p.owners - 1 }
  if (← get).pool.owners = 0 then
    discard collect
    modify fun d => { pool := d.pool.note .close, engine := S.close d.pool.link d.engine }

def join : PoolM S Unit := edit fun p => { p with owners := p.owners + 1 }

def retain (h : Nat) : PoolM S Unit :=
  edit fun p => p.update h fun x => { x with owners := x.owners + 1 }

def drop (h : Nat) : PoolM S Unit := do
  edit fun p => p.update h fun x => { x with owners := x.owners - 1 }
  if !(← get).pool.owned h then
    discard (requestRelease h)
    leave

def attend (n : Nat) : PoolM S Unit := do
  if (← get).pool.owners ≠ 0 then reap n

/-- What a prompt reaper does, if there is one. -/
def settle (prompt : Bool) : PoolM S Unit := do
  let p := (← get).pool
  if prompt ∧ p.mode = .background then attend p.queue.length

def query (text : String) : PoolM S (Except Error Nat) := do
  let d ← get
  let (outcome, engine) := S.execute d.pool.link text d.engine
  match outcome with
  | .error fault =>
    set { d with engine }
    return .error (.engine fault)
  | .ok (buffer, columns) =>
    set (Desk.mk (d.pool.enrol buffer columns) engine)
    return .ok d.pool.handles.size

def fetch (h : Nat) : PoolM S (Except Fault (Option S.Row)) := do
  match ← handle? h with
  | none => return .ok none
  | some x =>
    let d ← get
    let (outcome, buffer, engine) := S.fetch d.pool.link x.buffer d.engine
    set (Desk.mk ((d.pool.note (.fetch h x.word)).update h fun x => { x with buffer }) engine)
    return outcome

def readCell (h : Nat) (row : S.Row) (column : Nat) : PoolM S (Except Error Cell) := do
  match ← handle? h with
  | none => return .error .released
  | some x =>
    let d ← get
    let (outcome, engine) := S.read d.pool.link x.buffer row column d.engine
    set (Desk.mk (d.pool.note (.read h x.word)) engine)
    return outcome.mapError .engine

def rowsLeft (h : Nat) : PoolM S Nat := return (← handle? h).elim 0 fun x => S.rowsLeft x.buffer

def claimCursor (h : Nat) : PoolM S Bool := do
  match ← handle? h with
  | none => return false
  | some x =>
    edit fun p => p.update h fun x => { x with cursorTaken := true }
    return !x.cursorTaken

end Pool

end QueryLease

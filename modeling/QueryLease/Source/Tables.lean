import QueryLease.Source
import QueryLease.Table

namespace QueryLease.Tables

structure Bound where
  table : Table
  failAt : Option Nat := none

/-- Calls counted. A disposal in the middle of a read would be a violation. -/
structure Counters where
  executions : Nat := 0
  fetches : Nat := 0
  reads : Nat := 0
  disposals : Nat := 0
  violations : Nat := 0
  live : Nat := 0
  deriving DecidableEq

structure State where
  queries : List (String × Bound) := []
  counters : Counters := {}

structure Buffer where
  bound : Bound
  next : Nat := 0
  inFlight : Nat := 0

namespace Buffer

def rowsLeft (b : Buffer) : Nat := b.bound.table.rows.length - b.next

def enter (b : Buffer) : Buffer := { b with inFlight := b.inFlight + 1 }

def leave (b : Buffer) : Buffer := { b with inFlight := b.inFlight - 1 }

@[simp] theorem leave_enter (b : Buffer) : b.enter.leave = b := rfl

/-- The next row's number; the row that fails is never passed. -/
def advance (b : Buffer) : Except Fault (Option Nat) × Buffer :=
  if b.bound.failAt = some b.next then (.error (.scanFailed b.next), b)
  else if b.bound.table.rows.length ≤ b.next then (.ok none, b)
  else (.ok (some b.next), { b with next := b.next + 1 })

def fetch (b : Buffer) : Except Fault (Option Nat) × Buffer :=
  (b.enter.advance.1, b.enter.advance.2.leave)

def read (b : Buffer) (row column : Nat) : Except Fault Cell :=
  match b.bound.table.get? row column with
  | some v => .ok (.ofValue v)
  | none => .error (.noCell row column)

theorem rowsLeft_advance_le (b : Buffer) : b.advance.2.rowsLeft ≤ b.rowsLeft := by
  unfold advance
  split
  · exact Nat.le_refl _
  · split
    · exact Nat.le_refl _
    · exact Nat.sub_le_sub_left (Nat.le_succ _) _

theorem rowsLeft_advance_lt {b : Buffer} {row : Nat} (h : b.advance.1 = .ok (some row)) :
    b.advance.2.rowsLeft < b.rowsLeft := by
  by_cases hfail : b.bound.failAt = some b.next
  · simp [advance, hfail] at h
  by_cases hend : b.bound.table.rows.length ≤ b.next
  · simp [advance, hfail, hend] at h
  · simp only [advance, hfail, hend, if_false, rowsLeft]
    omega

theorem rowsLeft_fetch_le (b : Buffer) : b.fetch.2.rowsLeft ≤ b.rowsLeft :=
  b.enter.rowsLeft_advance_le

theorem rowsLeft_fetch_lt {b : Buffer} {row : Nat} (h : b.fetch.1 = .ok (some row)) :
    b.fetch.2.rowsLeft < b.rowsLeft :=
  rowsLeft_advance_lt h

end Buffer

namespace State

def register (s : State) (query : String) (bound : Bound) : State :=
  { s with queries := (query, bound) :: s.queries.filter (·.1 != query) }

def count (s : State) (f : Counters → Counters) : State := { s with counters := f s.counters }

def execute (query : String) (s : State) : Except Fault (Buffer × List String) × State :=
  match s.queries.lookup query with
  | none => (.error (.unknownQuery query), s)
  | some bound =>
    (.ok ({ bound }, bound.table.columns),
      s.count fun c => { c with executions := c.executions + 1, live := c.live + 1 })

def fetch (b : Buffer) (s : State) : Except Fault (Option Nat) × Buffer × State :=
  (b.fetch.1, b.fetch.2, s.count fun c => { c with fetches := c.fetches + 1 })

def read (b : Buffer) (row column : Nat) (s : State) : Except Fault Cell × State :=
  (b.read row column, s.count fun c => { c with reads := c.reads + 1 })

def dispose (b : Buffer) (s : State) : State :=
  s.count fun c =>
    { c with
      violations := if b.inFlight = 0 then c.violations else c.violations + 1
      disposals := c.disposals + 1
      live := c.live - 1 }

end State

end Tables

def Source.tables : Source where
  State := Tables.State
  Link := Unit
  Buffer := Tables.Buffer
  Row := Nat
  execute _ query s := s.execute query
  fetch _ b s := s.fetch b
  read _ b row column s := s.read b row column
  dispose _ b s := s.dispose b
  close _ s := s
  rowsLeft := Tables.Buffer.rowsLeft
  rowsLeft_fetch_le _ b _ := b.rowsLeft_fetch_le
  rowsLeft_fetch_lt h := Tables.Buffer.rowsLeft_fetch_lt h

end QueryLease

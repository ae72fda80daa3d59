import QueryLease.Engine.Config
import QueryLease.Engine.Ledger
import QueryLease.Pool.Walk
import QueryLease.Source.Tables

namespace QueryLease.Session

inductive Trouble where
  | badStep
  | failed (error : Error)

inductive Report where
  | counters (c : Tables.Counters)
  | calls (calls : List Engine.Call) (live : Nat)

/-- How matters stand between two steps. -/
structure Snapshot where
  /-- One entry for each pool that ever was, none for those that are gone. -/
  pools : List (Option Stats)
  results : List (String × Lease.Stage × Nat)
  report : Report

structure Record (A : Type) where
  outcome : Except Trouble A
  snapshot : Snapshot

inductive Ending where
  | done
  | failed (trouble : Trouble)
  | panicked

structure CursorInfo where
  position : Option Nat
  exhausted : Bool
  fetched : Nat
  columns : List String

structure HandleInfo where
  number : Nat
  word : Lease.Word
  columns : List String

structure ColumnView where
  column : Nat
  name : String
  isNull : Except Error Bool
  value : Except Error Value

structure Totals where
  rows : Nat := 0
  cells : Nat := 0
  errors : Nat := 0

inductive Answer where
  | nothing
  | flag (b : Bool)
  | count (n : Nat)
  | text (s : String)
  | opened (number : Nat) (columns : List String)
  | result (columns : List String) (stage : Lease.Stage)
  | release (r : Lease.Release)
  | row (index : Nat)
  | exhausted
  | cursor (info : CursorInfo)
  | rowInfo (index : Nat) (columns : List String)
  | value (v : Value)
  | values (vs : List Value)
  | list (answers : List Answer)
  | column (view : ColumnView)
  | cell (c : Cell)
  | looked (panicked : Bool) (cell : Cell) (inside : List (Record Answer))
  | visited (inside : List (List (Record Answer))) (ending : Ending)
  | handle (info : HandleInfo)
  | guard (info : HandleInfo)
  | mode (m : Mode)
  | records (records : List (Record Answer))
  | counters (c : Tables.Counters)
  | totals (t : Totals)
  | config (c : Engine.Config)

end QueryLease.Session

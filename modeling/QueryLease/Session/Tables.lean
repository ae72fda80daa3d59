import QueryLease.Session.Run

namespace QueryLease

def Session.Venue.tables : Session.Venue where
  source := .tables
  Base := Empty
  dropBase e := nomatch e
  baseOutline e := nomatch e
  numbered n := some n
  report s := (.counters s.counters, s)

namespace Session.Tables

/-- The readers of `parallel` share nothing but the tables, so one after the other reads what all
read at once; a spin only makes a read last. -/
inductive Move where
  | register (connection text : String) (bound : QueryLease.Tables.Bound)
  | spin (connection : String)
  | counters (connection : String)
  | parallel (connection text : String) (readers : Nat)

def readRow (t : Totals) (r : Row .tables) : PoolM .tables (Totals × Except Error Unit) := do
  match ← r.values with
  | .ok vs => return ({ t with rows := t.rows + 1, cells := t.cells + vs.length }, .ok ())
  | .error e => return (t, .error e)

def reader (text : String) (t : Totals) : PoolM .tables Totals := do
  match ← Pool.query text with
  | .error _ => return { t with errors := t.errors + 1 }
  | .ok h =>
    let (t, outcome) ← Pool.fold id id h t readRow
    Pool.drop h
    match outcome with
    | .ok () => return t
    | .error _ => return { t with errors := t.errors + 1 }

def readers (text : String) : Nat → Totals → PoolM .tables Totals
  | 0, t => return t
  | n + 1, t => do readers text n (← reader text t)

def parallel (text : String) (n : Nat) : PoolM .tables Totals := do
  let totals ← readers text n {}
  if let .ok h := ← Pool.query text then Pool.drop h
  discard Pool.collect
  return totals

def Move.perform : Move → StepM .tables Answer
  | register c text bound => do
    let _ ← connection c
    onEngine fun s => (.nothing, QueryLease.Tables.State.register s text bound)
  | spin c => do
    let _ ← connection c
    return .nothing
  | counters c => do
    let _ ← connection c
    onEngine fun s => (.counters s.counters, s)
  | parallel c text n => do
    let p ← connection c
    return .totals (← onPool p (Tables.parallel text n))

def opened (mode : Mode) (tables : List (String × QueryLease.Tables.Bound)) : Session .tables where
  pools := #[{ link := (), mode }]
  engine := tables.foldl (fun s (text, bound) => s.register text bound) {}
  kept := [("c", .connection 0)]

end Session.Tables

end QueryLease

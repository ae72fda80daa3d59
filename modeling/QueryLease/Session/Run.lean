import QueryLease.Session.Move

namespace QueryLease.Session

variable {V : Venue} {P : Type}

abbrev Running (V : Venue) := SessionM V (List (Record Answer) × Except (Interrupt Trouble) Unit)

def shown (s : Session V) (name : String) : Object V → Option (String × Lease.Stage × Nat)
  | .result p h => s.pools[p]?.map fun pool => (name, (pool.word h).stage, (pool.word h).reads)
  | _ => none

def snapshot : SessionM V Snapshot := do
  let s ← get
  let (report, engine) := V.report s.engine
  set { s with engine }
  return {
    pools := s.pools.toList.map fun p => if p.owners = 0 then none else some p.stats
    results := s.kept.filterMap fun (name, x) => s.shown name x
    report }

def Ending.ofExcept : Except (Interrupt Trouble) Unit → Ending
  | .ok () => done
  | .error (.failed t) => failed t
  | .error .panicked => panicked

def lookAt (p : Nat) (r : Row V.source) (column : Nat) (inside : Running V) :
    StepM V (Except Error (Cell × List (Record Answer) × Except (Interrupt Trouble) Unit)) := do
  match ← onPool p (r.checkColumn column) with
  | .error e => return .error e
  | .ok () => r.withCell (onPool p) column fun cell => return (cell, ← inside)

def withRaw (w : String) (column : Nat) (inside : Running V) : StepM V Answer := do
  let (p, r) ← row w
  let r ← onPool p r.clone
  let looked ← lookAt p r column inside
  onPool p r.drop
  let (cell, records, ended) ← ofExcept looked
  match ended with
  | .error .panicked => return .looked true cell records
  | _ => return .looked false cell records

def forEach (x name : String) (inside : Running V) : StepM V Answer := do
  let (p, h) ← result x
  onPool p (Pool.retain h)
  let (visits, ended) ← Pool.fold (onPool p) (fun e => .failed (.failed e)) h [] fun visits r => do
    keep name (.row p (← onPool p r.clone))
    let (records, ended) ← inside
    return (records :: visits, ended)
  onPool p (Pool.drop h)
  return .visited visits.reverse (.ofExcept ended)

def rounds (inside : Running V) : Nat → List (Record Answer) → StepM V (List (Record Answer))
  | 0, last => return last
  | n + 1, _ => do
    let (records, ended) ← inside
    match ended with
    | .ok () => rounds inside n records
    | .error i => throw i

mutual

def Step.perform (peculiar : P → StepM V Answer) : Step P → StepM V Answer
  | .move m => m.perform
  | .peculiar p => peculiar p
  | .withRaw w column inside => withRaw w column (performAll peculiar false inside)
  | .forEach x name inside stop => forEach x name (performAll peculiar stop inside)
  | .rounds n inside => .records <$> rounds (performAll peculiar false inside) n []
  | .panic => throw .panicked
  | .malformed => bad

def performAll (peculiar : P → StepM V Answer) (stop : Bool) : List (Step P) → Running V
  | [] => return ([], .ok ())
  | step :: rest => do
    match ← (step.perform peculiar).run with
    | .error .panicked => return ([], .error .panicked)
    | .error (.failed t) =>
      let record := { outcome := .error t, snapshot := ← snapshot }
      if stop then return ([record], .error (.failed t))
      let (records, ended) ← performAll peculiar stop rest
      return (record :: records, ended)
    | .ok a =>
      let record := { outcome := .ok a, snapshot := ← snapshot }
      let (records, ended) ← performAll peculiar stop rest
      return (record :: records, ended)

end

def dropAll : SessionM V Unit := do
  (← get).kept.forM fun (name, _) => discard (forget (V := V) name).run

/-- The records of all steps, and how matters stand when nothing is kept any more. -/
def run (peculiar : P → StepM V Answer) (steps : List (Step P)) (s : Session V) :
    List (Record Answer) × Snapshot :=
  let act : SessionM V (List (Record Answer) × Snapshot) := do
    let (records, _) ← performAll peculiar false steps
    dropAll
    return (records, ← snapshot)
  (act.run s).1

end QueryLease.Session

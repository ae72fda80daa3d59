import QueryLease.Session.Run
import QueryLease.Source.Foreign

namespace QueryLease

open Engine (Host HostM)

def Session.Venue.foreign (E : Engine) : Session.Venue where
  source := .foreign E
  Base := Nat
  dropBase n (s : Host E) := (Host.dropDatabase n s).2
  baseOutline n (s : Host E) := s.databases[n]?.map (·.outline)
  numbered _ := none
  report (s : Host E) :=
    let (calls, ledger) := s.ledger.tell
    (.calls calls ledger.live.length, { s with ledger })

namespace Session.Foreign

variable {E : Engine}

inductive Move where
  | plainConfig
  | engineConfig
  | openDatabase (path : Option String) (config : Engine.Config) (keep : String)
  | cloneDatabase (database keep : String)
  | connect (database : String) (mode : Mode) (keep : String)

def onHost {α : Type} (act : HostM E α) : StepM (.foreign E) α := onEngine act.run

def Move.perform : Move → StepM (.foreign E) Answer
  | plainConfig => return .config {}
  | engineConfig => do
    return .config (← ofExcept (← onHost Host.engineDefault))
  | openDatabase path config name => do
    let n ← ofExcept (← onHost (Host.openDatabase path config))
    keep name (.base n)
    return .nothing
  | cloneDatabase d name => do
    let n ← base d
    onHost (Host.retainDatabase n)
    keep name (.base n)
    return .nothing
  | connect d mode name => do
    let n ← base d
    let link ← ofExcept (← onHost (Host.connect n))
    Session.connect link mode name
    return .nothing

def opened (host : Host E) : Session (.foreign E) where
  engine := host

end Session.Foreign

end QueryLease

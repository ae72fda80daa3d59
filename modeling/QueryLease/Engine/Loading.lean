import QueryLease.Engine.Host

namespace QueryLease.Engine.Loading

inductive Step where
  | library
  | setNamed (name : Option String)
  | openDatabase (path : Option String)
  | engineDefault
  | load (name : String)
  | malformed

inductive Answer where
  | library (l : Library)
  | nothing
  | outline (s : String)
  | config (c : Config)
  | failed (e : Error)
  | malformed

def Answer.ofLibrary : Except LoadError Library → Answer
  | .ok l => .library l
  | .error e => .failed (.runtime e)

variable {E : Engine}

def Step.perform : Step → HostM E Answer
  | library => return .ofLibrary (← Host.library)
  | setNamed name => do
    Host.setNamed name
    return .nothing
  | openDatabase path => do
    match ← Host.openDatabase path {} with
    | .error e => return .failed e
    | .ok n =>
      let outline := (← get).databases[n]?.elim "" (·.outline)
      Host.dropDatabase n
      return .outline outline
  | engineDefault => do
    match ← Host.engineDefault with
    | .error e => return .failed e
    | .ok c => return .config c
  | load name => return .ofLibrary ((← get).load name)
  | malformed => return .malformed

def run (steps : List Step) (p : Host E) : List Answer :=
  ((steps.mapM Step.perform).run p).1

end QueryLease.Engine.Loading

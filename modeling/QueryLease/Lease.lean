import QueryLease.Error

namespace QueryLease

structure Lease where
  requested : Bool := false
  reads : Nat := 0
  deriving DecidableEq

namespace Lease

inductive Stage where
  | opened
  | closing
  | closed
  deriving DecidableEq

def Stage.name : Stage → String
  | opened => "Open"
  | closing => "Closing"
  | closed => "Closed"

/-- Why a read is not granted. A count that is full ends the program, so nobody sees that refusal.
-/
inductive Refusal where
  | closing
  | released
  | overflow
  deriving DecidableEq

def Refusal.error : Refusal → Error
  | closing => .closing
  | released => .released
  | overflow => .invalidState .tooManyReads

inductive Release where
  | freed
  | deferred (reads : Nat)
  | alreadyRequested
  deriving DecidableEq

def stage (l : Lease) : Stage :=
  if !l.requested then .opened else if l.reads = 0 then .closed else .closing

def acquire (l : Lease) : Except Refusal Lease :=
  match l.stage with
  | .opened => .ok { l with reads := l.reads + 1 }
  | .closing => .error .closing
  | .closed => .error .released

def endRead (l : Lease) : Lease := { l with reads := l.reads - 1 }

def request (l : Lease) : Release × Lease :=
  if l.requested then (.alreadyRequested, l)
  else (if l.reads = 0 then .freed else .deferred l.reads, { l with requested := true })

end Lease

end QueryLease

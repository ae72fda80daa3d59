import Mathlib.Algebra.BigOperators.Group.Finset.Basic
import Mathlib.Data.Fintype.BigOperators
import QueryLease.Proofs.Lease.Packing

/-! One lease shared by threads. Every step is one operation on the word, or the hand-over of the
buffer, and the schedule may take the steps of different threads in any order. -/

namespace QueryLease.Lease

/-- What a thread does next. A task that belongs to a request carries its number. -/
inductive Task where
  | idle
  | acquire (seen : Word)
  | close (request : Option Nat)
  | handOver (request : Option Nat)
  deriving DecidableEq

def Task.request? : Task → Option Nat
  | idle | acquire _ => none
  | close request | handOver request => request

structure Thread where
  reads : Nat := 0
  task : Task := .idle
  deriving DecidableEq

/-- Requests are numbered in the order in which they reach the word. -/
structure Shared (ι : Type) where
  word : Word := .fresh
  threads : ι → Thread := fun _ => {}
  /-- For each request, the reads in flight when it reached the word. -/
  requests : List Nat := []
  answers : List (Nat × Release) := []
  handedOver : Nat := 0
  dropped : Bool := false

/-- An idle thread starts a call, any other one proceeds with its own. An exchange of the word may
fail for no reason, and is then tried again. -/
inductive Act where
  | acquire
  | endRead
  | request
  | drop
  | proceed
  | retry
  deriving DecidableEq

variable {ι : Type} [Fintype ι] [DecidableEq ι]

def total (f : Thread → Nat) (threads : ι → Thread) : Nat := ∑ i, f (threads i)

namespace Shared

def reads (s : Shared ι) : Nat := total Thread.reads s.threads

def put (s : Shared ι) (i : ι) (t : Thread) : Shared ι :=
  { s with threads := Function.update s.threads i t }

def finish (s : Shared ι) (i : ι) (answer : Option (Nat × Release)) : Shared ι :=
  { s.put i { s.threads i with task := .idle } with answers := answer.toList ++ s.answers }

def answer (s : Shared ι) (i : ι) (n : Nat) : Option Nat → Shared ι
  | none => s.finish i (some (n, .alreadyRequested))
  | some 0 => s.put i { s.threads i with task := .close (some n) }
  | some (reads + 1) => s.finish i (some (n, .deferred (reads + 1)))

def ask (s : Shared ι) (i : ι) : Shared ι :=
  let (first, word) := s.word.request
  { s with word, requests := s.requests ++ [s.reads] }.answer i s.requests.length first

def look (s : Shared ι) (i : ι) (seen : Word) : Shared ι :=
  match seen.acquire with
  | .error _ => s.finish i none
  | .ok _ => s.put i { s.threads i with task := .acquire s.word }

def exchange (s : Shared ι) (i : ι) (seen : Word) : Shared ι :=
  match seen.acquire with
  | .error _ => s.finish i none
  | .ok word =>
    if s.word = seen then { s.put i { reads := (s.threads i).reads + 1 } with word }
    else s.look i seen

def endRead (s : Shared ι) (i : ι) : Shared ι :=
  let (last, word) := s.word.endRead
  let task := if last then .close none else .idle
  { s.put i { reads := (s.threads i).reads - 1, task } with word }

def close (s : Shared ι) (i : ι) (request : Option Nat) : Shared ι :=
  match s.word.finish? with
  | none => s.finish i (request.map (·, .freed))
  | some word => { s.put i { s.threads i with task := .handOver request } with word }

def handOver (s : Shared ι) (i : ι) (request : Option Nat) : Shared ι :=
  { s.finish i (request.map (·, .freed)) with handedOver := s.handedOver + 1 }

def drop (s : Shared ι) (i : ι) : Shared ι :=
  if ∀ j, s.threads j = {} then { s.ask i with dropped := true } else s

/-- A thread that cannot take the step stays where it is. -/
def step (s : Shared ι) (i : ι) (a : Act) : Shared ι :=
  match (s.threads i).task, a with
  | .idle, .acquire => if s.dropped then s else s.put i { s.threads i with task := .acquire s.word }
  | .idle, .endRead => if (s.threads i).reads = 0 then s else s.endRead i
  | .idle, .request => if s.dropped then s else s.ask i
  | .idle, .drop => if s.dropped then s else s.drop i
  | .acquire seen, .proceed => s.exchange i seen
  | .acquire seen, .retry => s.look i seen
  | .close request, .proceed => s.close i request
  | .handOver request, .proceed => s.handOver i request
  | _, _ => s

def run (s : Shared ι) (schedule : List (ι × Act)) : Shared ι :=
  schedule.foldl (fun s (i, a) => s.step i a) s

end Shared

end QueryLease.Lease

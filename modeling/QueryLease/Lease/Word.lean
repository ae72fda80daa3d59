import QueryLease.Lease

/-! A lease packed into one machine word: the top bit says that release was requested, the next that
the buffer is gone, and the others count the reads in flight. The word reaches its last state from
exactly one other, requested and unread, so that step is taken once. -/

namespace QueryLease.Lease

structure Word where
  bits : UInt64
  deriving DecidableEq

namespace Word

def closingBit : UInt64 := 0x8000000000000000

def closedBit : UInt64 := 0x4000000000000000

def countMask : UInt64 := closedBit - 1

def fresh : Word := ⟨0⟩

def shut : Word := ⟨closingBit ||| closedBit⟩

def requested (w : Word) : Bool := w.bits &&& closingBit != 0

def closed (w : Word) : Bool := w.bits &&& closedBit != 0

def reads (w : Word) : Nat := (w.bits &&& countMask).toNat

def full (w : Word) : Bool := w.bits &&& countMask == countMask

def stage (w : Word) : Stage :=
  if w.closed then .closed else if w.requested then .closing else .opened

def acquire (w : Word) : Except Refusal Word :=
  if w.closed then .error .released
  else if w.requested then .error .closing
  else if w.full then .error .overflow
  else .ok ⟨w.bits + 1⟩

def endRead (w : Word) : Bool × Word := (w.bits == closingBit ||| 1, ⟨w.bits - 1⟩)

def request (w : Word) : Option Nat × Word :=
  (if w.requested then none else some w.reads, ⟨w.bits ||| closingBit⟩)

/-- The last step, from requested and unread only. -/
def finish? (w : Word) : Option Word :=
  if w.bits == closingBit then some shut else none

end Word

end QueryLease.Lease

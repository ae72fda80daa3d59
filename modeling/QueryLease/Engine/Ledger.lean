import QueryLease.Engine.Answers
import QueryLease.Engine.Entry

/-! The books on a foreign engine: every call made, every object handed out and not yet destroyed.
An object is known by its kind and its number, which counts from 1 in each kind. -/

namespace QueryLease.Engine

inductive Kind where
  | database
  | connection
  | result
  | tuple
  | value
  | type
  | string
  deriving DecidableEq

def Kind.letter : Kind → String
  | database => "d"
  | connection => "c"
  | result => "r"
  | tuple => "t"
  | value => "v"
  | type => "y"
  | string => "s"

structure Object where
  kind : Kind
  number : Nat
  deriving DecidableEq

def Object.label (o : Object) : String := o.kind.letter ++ toString o.number

def Object.label? : Option Object → String
  | none => "null"
  | some o => o.label

inductive Reply where
  | silent
  | status (s : Status)
  | handed (s : Status) (object : Option Object)
  | flag (b : Bool)
  | count (n : Nat)
  | object (object : Option Object)
  deriving DecidableEq

def Reply.words : Reply → List String
  | silent => []
  | status s => ["->", s.text]
  | handed s o => ["->", s.text, Object.label? o]
  | flag b => ["->", toString b]
  | count n => ["->", toString n]
  | object o => ["->", Object.label? o]

/-- A call: the entry point, the object it was made on if it takes one, the rest of its arguments,
and what came back. -/
structure Call where
  entry : Entry
  subject : Option (Option Object) := none
  details : List String := []
  reply : Reply := .silent
  deriving DecidableEq

def Call.text (c : Call) : String :=
  " ".intercalate
    (c.entry.name :: (c.subject.map Object.label?).toList ++ c.details ++ c.reply.words)

structure Tally where
  databases : Nat := 0
  connections : Nat := 0
  results : Nat := 0
  tuples : Nat := 0
  values : Nat := 0
  types : Nat := 0
  strings : Nat := 0

namespace Tally

def count (t : Tally) : Kind → Nat
  | .database => t.databases
  | .connection => t.connections
  | .result => t.results
  | .tuple => t.tuples
  | .value => t.values
  | .type => t.types
  | .string => t.strings

def add (t : Tally) : Kind → Tally
  | .database => { t with databases := t.databases + 1 }
  | .connection => { t with connections := t.connections + 1 }
  | .result => { t with results := t.results + 1 }
  | .tuple => { t with tuples := t.tuples + 1 }
  | .value => { t with values := t.values + 1 }
  | .type => { t with types := t.types + 1 }
  | .string => { t with strings := t.strings + 1 }

end Tally

structure Ledger where
  issued : Tally := {}
  live : List Object := []
  /-- Latest call first. -/
  calls : List Call := []
  told : Nat := 0

abbrev LedgerM := StateM Ledger

namespace Ledger

def now (l : Ledger) : Nat := l.calls.length

def tell (l : Ledger) : List Call × Ledger :=
  ((l.calls.take (l.calls.length - l.told)).reverse, { l with told := l.calls.length })

def record (call : Call) : LedgerM Unit := modify fun l => { l with calls := call :: l.calls }

def receive (kind : Kind) (given : Bool) : LedgerM (Option Object) :=
  modifyGet fun l =>
    if given then
      let issued := l.issued.add kind
      let object := ⟨kind, issued.count kind⟩
      (some object, { l with issued, live := object :: l.live })
    else (none, l)

def handOut (entry : Entry) (kind : Kind) (handing : Handing) (subject : Option (Option Object))
    (details : List String) : LedgerM (Option Object) := do
  let object ← receive kind handing.given
  record { entry, subject, details, reply := .handed handing.status object }
  return object

def destroy (entry : Entry) (object : Option Object) : LedgerM Unit := do
  modify fun l => { l with live := object.elim l.live l.live.erase }
  record { entry, subject := some object }

/-- The bytes of a string, up to its first NUL, and the string destroyed; none for a missing one. -/
def takeBytes (string : Option Object) (bytes : Option Utf8.Octets) : LedgerM Utf8.Octets := do
  match string, bytes with
  | some _, some bytes =>
    destroy .destroyString string
    return bytes.takeWhile (· != 0)
  | _, _ => return []

def takeName (entry : Entry) (naming : Naming) (subject : Option Object) (details : List String) :
    LedgerM Utf8.Octets := do
  let string ← handOut entry .string ⟨naming.status, naming.bytes.isSome⟩ (some subject) details
  takeBytes string naming.bytes

def takeText (entry : Entry) (bytes : Option Utf8.Octets) (subject : Option Object) :
    LedgerM Utf8.Octets := do
  let string ← receive .string bytes.isSome
  record { entry, subject := some subject, reply := .object string }
  takeBytes string bytes

end Ledger

end QueryLease.Engine

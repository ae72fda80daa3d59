import QueryLease.Engine.Config
import QueryLease.Number.Binary64
import QueryLease.Text.Utf8

namespace QueryLease.Engine

inductive Status where
  | success
  | failure
  deriving DecidableEq

def Status.text : Status → String
  | success => "0"
  | failure => "1"

structure Handing where
  status : Status := .success
  given : Bool := true
  deriving DecidableEq

def Handing.refusal : Handing := ⟨.failure, false⟩

structure Naming where
  status : Status := .success
  bytes : Option Utf8.Octets
  deriving DecidableEq

inductive Payload where
  | none
  | bool (b : Bool)
  | integer (i : Int)
  | single (x : Binary32)
  | double (x : Binary64)
  | text (naming : Naming)

/-- The answers about one value, from whether it is null down to its parts. -/
inductive Answers where
  | null
  | untyped (given : Bool)
  | plain (type : UInt32) (given : Bool) (payload : Payload)
  | items (type : UInt32) (given : Bool) (items : List (Handing × Answers))
  | fields (type : UInt32) (given : Bool) (fields : List ((Naming × Handing) × Answers))

instance : Inhabited Answers := ⟨.null⟩

/-- What a result does when it is asked for its next row: say that there is none, or try to give
one. A row's columns answer by the moment at which they are asked. -/
inductive Turn where
  | pause
  | row (handing : Handing) (column : Nat → Nat → Handing × Answers)

structure ResultAnswers where
  handing : Handing
  success : Bool
  message : Option Utf8.Octets
  columns : List Naming
  turns : List Turn

end Engine

structure Engine where
  State : Type
  defaults : State → Engine.Config
  openDatabase : String → Engine.Config → State → Engine.Handing × State
  openConnection : State → Engine.Handing × State
  query : String → State → Engine.ResultAnswers × State

end QueryLease

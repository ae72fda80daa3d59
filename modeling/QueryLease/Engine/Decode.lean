import QueryLease.Cell
import QueryLease.Engine.Ledger

namespace QueryLease.Engine

inductive Width where
  | int8
  | int16
  | int32
  | int64
  | uint8
  | uint16
  | uint32
  | uint64
  deriving DecidableEq

namespace Width

def entry : Width → Entry
  | int8 => .valueGetInt8
  | int16 => .valueGetInt16
  | int32 => .valueGetInt32
  | int64 => .valueGetInt64
  | uint8 => .valueGetUInt8
  | uint16 => .valueGetUInt16
  | uint32 => .valueGetUInt32
  | uint64 => .valueGetUInt64

def bits : Width → Nat
  | int8 | uint8 => 8
  | int16 | uint16 => 16
  | int32 | uint32 => 32
  | int64 | uint64 => 64

def signed : Width → Bool
  | int8 | int16 | int32 | int64 => true
  | uint8 | uint16 | uint32 | uint64 => false

def holds (w : Width) (i : Int) : Bool :=
  let half : Int := Nat.pow 2 (w.bits - 1)
  if w.signed then -half ≤ i && i < half else 0 ≤ i && i < 2 * half

end Width

/-- The getters that a type's values are read with. Types without one of their own are read as the
text that the engine makes of them. -/
inductive Shape where
  | bool
  | integer (w : Width)
  | single
  | double
  | string
  | items
  | fields
  | other
  deriving DecidableEq

def Shape.ofType (id : UInt32) : Shape :=
  match id.toNat with
  | 10 | 11 | 54 => .fields
  | 13 | 23 => .integer .int64
  | 22 => .bool
  | 24 => .integer .int32
  | 25 => .integer .int16
  | 26 => .integer .int8
  | 27 => .integer .uint64
  | 28 => .integer .uint32
  | 29 => .integer .uint16
  | 30 => .integer .uint8
  | 32 => .double
  | 33 => .single
  | 50 => .string
  | 52 | 53 | 55 => .items
  | _ => .other

namespace Payload

def bool? : Payload → Option Bool
  | bool b => some b
  | _ => Option.none

def integer? (w : Width) : Payload → Option Int
  | integer i => if w.holds i then some i else Option.none
  | _ => Option.none

def single? : Payload → Option Binary32
  | single x => some x
  | _ => Option.none

def double? : Payload → Option Binary64
  | double x => some x
  | _ => Option.none

def naming : Payload → Naming
  | text n => n
  | _ => ⟨.failure, Option.none⟩

end Payload

def keepInt (i : Int) : Except Fault Cell :=
  if i < 0x8000000000000000 then .ok (.integer (Int64.ofInt i))
  else .error (.aboveInt64 (UInt64.ofNat i.toNat))

namespace Ledger

def check (s : Status) (entry : Entry) : Except Fault Unit :=
  match s with
  | .success => .ok ()
  | .failure => .error (.refused entry)

def get {α : Type} (entry : Entry) (v : Option Object) (found : Option α)
    (keep : α → Except Fault Cell) : LedgerM (Except Fault Cell) := do
  match found with
  | some a =>
    record { entry, subject := some v, reply := .status .success }
    return keep a
  | none =>
    record { entry, subject := some v, reply := .status .failure }
    return .error (.refused entry)

def typeOf (v : Option Object) (id : UInt32) (given : Bool) : LedgerM Unit := do
  let type ← handOut .valueGetDataType .type ⟨.success, given⟩ (some v) []
  record { entry := .dataTypeGetId, subject := some type, reply := .count id.toNat }
  destroy .dataTypeDestroy type

/-- Asks for a value, which is destroyed once it has been copied, and also if asking for it failed.
-/
def withValue (entry : Entry) (subject : Option Object) (details : List String) (handing : Handing)
    (copy : Option Object → LedgerM (Except Fault Cell)) : LedgerM (Except Fault Cell) := do
  let value ← handOut entry .value handing (some subject) details
  let cell ← match handing.status with
    | .failure => pure (.error (.refused entry))
    | .success => copy value
  destroy .valueDestroy value
  return cell

def decodePlain (v : Option Object) (shape : Shape) (payload : Payload) :
    LedgerM (Except Fault Cell) := do
  match shape with
  | .bool => get .valueGetBool v payload.bool? fun b => .ok (.bool b)
  | .integer w => get w.entry v (payload.integer? w) keepInt
  | .single => get .valueGetFloat v payload.single? fun x => .ok (.float x.widen)
  | .double => get .valueGetDouble v payload.double? fun x => .ok (.float x)
  | .string =>
    let bytes ← takeName .valueGetString payload.naming v []
    return (check payload.naming.status .valueGetString).map fun _ => .text bytes
  | .items => get (α := Empty) .valueGetListSize v none fun e => nomatch e
  | .fields => get (α := Empty) .valueGetStructNumFields v none fun e => nomatch e
  | .other => return .ok (.text (← takeText .valueToString payload.naming.bytes v))

mutual

def decode (v : Option Object) : Answers → LedgerM (Except Fault Cell)
  | .null => do
    record { entry := .valueIsNull, subject := some v, reply := .flag true }
    return .ok .null
  | .untyped given => do
    record { entry := .valueIsNull, subject := some v, reply := .flag false }
    discard (handOut .valueGetDataType .type ⟨.failure, given⟩ (some v) [])
    return .error (.refused .valueGetDataType)
  | .plain id given payload => do
    record { entry := .valueIsNull, subject := some v, reply := .flag false }
    typeOf v id given
    decodePlain v (Shape.ofType id) payload
  | .items id given items => do
    record { entry := .valueIsNull, subject := some v, reply := .flag false }
    typeOf v id given
    match Shape.ofType id with
    | .items =>
      record { entry := .valueGetListSize, subject := some v, reply := .status .success }
      return .list <$> (← decodeItems v 0 items)
    | shape => decodePlain v shape .none
  | .fields id given fields => do
    record { entry := .valueIsNull, subject := some v, reply := .flag false }
    typeOf v id given
    match Shape.ofType id with
    | .fields =>
      record { entry := .valueGetStructNumFields, subject := some v, reply := .status .success }
      return .struct <$> (← decodeFields v 0 fields)
    | shape => decodePlain v shape .none

def decodeItems (v : Option Object) (i : Nat) :
    List (Handing × Answers) → LedgerM (Except Fault (List Cell))
  | [] => return .ok []
  | (handing, answers) :: rest => do
    match ← withValue .valueGetListElement v [toString i] handing (decode · answers) with
    | .error f => return .error f
    | .ok cell => return (cell :: ·) <$> (← decodeItems v (i + 1) rest)

def decodeFields (v : Option Object) (i : Nat) :
    List ((Naming × Handing) × Answers) → LedgerM (Except Fault (List (Utf8.Octets × Cell)))
  | [] => return .ok []
  | ((naming, handing), answers) :: rest => do
    let name ← takeName .valueGetStructFieldName naming v [toString i]
    match naming.status with
    | .failure => return .error (.refused .valueGetStructFieldName)
    | .success =>
      match ← withValue .valueGetStructFieldValue v [toString i] handing (decode · answers) with
      | .error f => return .error f
      | .ok cell => return ((name, cell) :: ·) <$> (← decodeFields v (i + 1) rest)

end

end Ledger

end QueryLease.Engine

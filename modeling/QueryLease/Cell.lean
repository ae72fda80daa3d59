import QueryLease.Error
import QueryLease.Text.Utf8
import QueryLease.Value

namespace QueryLease

inductive Cell where
  | null
  | bool (b : Bool)
  | integer (i : Int64)
  | float (x : Binary64)
  | text (bytes : Utf8.Octets)
  | list (items : List Cell)
  | struct (fields : List (Utf8.Octets × Cell))

def TextRole.decode (role : TextRole) (bytes : Utf8.Octets) : Except Fault String :=
  (Utf8.decode bytes).mapError fun _ => .notUtf8 role

namespace Cell

def isNull : Cell → Bool
  | null => true
  | _ => false

def asUtf8 : Cell → Option (Except Utf8.Fault String)
  | text bytes => some (Utf8.decode bytes)
  | _ => none

mutual

def toValue : Cell → Except Fault Value
  | null => .ok .null
  | bool b => .ok (.bool b)
  | integer i => .ok (.integer i)
  | float x => .ok (.float x)
  | text bytes => .string <$> TextRole.stringValue.decode bytes
  | list items => .list <$> toValues items
  | struct fields => .struct <$> toFields fields

def toValues : List Cell → Except Fault (List Value)
  | [] => .ok []
  | c :: rest => return (← c.toValue) :: (← toValues rest)

def toFields : List (Utf8.Octets × Cell) → Except Fault (List (String × Value))
  | [] => .ok []
  | (k, c) :: rest =>
    return (← TextRole.fieldName.decode k, ← c.toValue) :: (← toFields rest)

end

mutual

def ofValue : Value → Cell
  | .null => null
  | .bool b => bool b
  | .integer i => integer i
  | .float x => float x
  | .string s => text (Utf8.encode s)
  | .list items => list (ofValues items)
  | .struct fields => struct (ofFields fields)

def ofValues : List Value → List Cell
  | [] => []
  | v :: rest => ofValue v :: ofValues rest

def ofFields : List (String × Value) → List (Utf8.Octets × Cell)
  | [] => []
  | (k, v) :: rest => (Utf8.encode k, ofValue v) :: ofFields rest

end

end Cell

end QueryLease

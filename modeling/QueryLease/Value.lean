import QueryLease.Number.Binary64

namespace QueryLease

inductive Value where
  | null
  | bool (b : Bool)
  | integer (i : Int64)
  | float (x : Binary64)
  | string (s : String)
  | list (items : List Value)
  | struct (fields : List (String × Value))

namespace Value

def isNull : Value → Bool
  | null => true
  | _ => false

def asInt : Value → Option Int64
  | integer i => some i
  | _ => none

def asFloat : Value → Option Binary64
  | float x => some x
  | integer i => some (.ofInt64 i)
  | _ => none

def asString : Value → Option String
  | string s => some s
  | _ => none

def asBool : Value → Option Bool
  | bool b => some b
  | _ => none

def field? (name : String) : Value → Option Value
  | struct fields => fields.lookup name
  | _ => none

mutual

def eqv : Value → Value → Bool
  | null, null => true
  | bool a, bool b => a == b
  | integer a, integer b => a == b
  | float a, float b => a.eqv b
  | string a, string b => a == b
  | list a, list b => eqvItems a b
  | struct a, struct b => eqvFields a b
  | _, _ => false

def eqvItems : List Value → List Value → Bool
  | [], [] => true
  | a :: as, b :: bs => a.eqv b && eqvItems as bs
  | _, _ => false

def eqvFields : List (String × Value) → List (String × Value) → Bool
  | [], [] => true
  | (k, a) :: as, (l, b) :: bs => k == l && a.eqv b && eqvFields as bs
  | _, _ => false

end

instance : BEq Value := ⟨eqv⟩

instance : Inhabited Value := ⟨null⟩

end Value

class ToValue (α : Type) where
  toValue : α → Value

export ToValue (toValue)

instance : ToValue Value := ⟨id⟩

instance : ToValue Int64 := ⟨.integer⟩

instance : ToValue Binary64 := ⟨.float⟩

instance : ToValue Bool := ⟨.bool⟩

instance : ToValue String := ⟨.string⟩

instance {α : Type} [ToValue α] : ToValue (Option α) := ⟨fun x => x.elim .null toValue⟩

instance {α : Type} [ToValue α] : ToValue (List α) := ⟨fun xs => .list (xs.map toValue)⟩

end QueryLease

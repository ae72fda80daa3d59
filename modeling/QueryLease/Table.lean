import QueryLease.Value

namespace QueryLease

structure Table where
  columns : List String
  rows : List (List Value) := []
  width : ∀ r ∈ rows, r.length = columns.length := by simp

namespace Table

def fit : Nat → List Value → List Value
  | 0, _ => []
  | n + 1, [] => .null :: fit n []
  | n + 1, v :: rest => v :: fit n rest

@[simp] theorem length_fit (n : Nat) (vs : List Value) : (fit n vs).length = n := by
  induction n generalizing vs with
  | zero => rfl
  | succ n ih => cases vs <;> simp [fit, ih]

def push (t : Table) (values : List Value) : Table where
  columns := t.columns
  rows := t.rows ++ [fit t.columns.length values]
  width := by
    intro r h
    rcases List.mem_append.1 h with h | h
    · exact t.width r h
    · simp [List.mem_singleton.1 h]

def ofRows (columns : List String) (rows : List (List Value)) : Table :=
  rows.foldl push { columns }

def get? (t : Table) (row column : Nat) : Option Value := t.rows[row]? >>= (·[column]?)

def eqv (t u : Table) : Bool := t.columns == u.columns && t.rows == u.rows

instance : BEq Table := ⟨eqv⟩

end Table

end QueryLease

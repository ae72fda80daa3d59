import QueryLease.Value
import QueryLease.Number.Positional

namespace QueryLease.Value

mutual

def text : Value → String
  | null => "NULL"
  | bool b => if b then "true" else "false"
  | integer i => toString i.toInt
  | float x => x.text
  | string s => s
  | list items => "[" ++ ", ".intercalate (textItems items) ++ "]"
  | struct fields => "\x7b" ++ ", ".intercalate (textFields fields) ++ "\x7d"

def textItems : List Value → List String
  | [] => []
  | v :: rest => v.text :: textItems rest

def textFields : List (String × Value) → List String
  | [] => []
  | (k, v) :: rest => (k ++ ": " ++ v.text) :: textFields rest

end

end QueryLease.Value

import QueryLease.Engine.Answers

namespace QueryLease.Engine

structure Script where
  defaults : Config := .usual
  database : Handing := {}
  connection : Handing := {}
  queries : List (String × ResultAnswers) := []

namespace Script

def row (handing : Handing) (cells : List (Handing × Answers)) : Turn :=
  .row handing fun _ column =>
    if handing.given then cells[column]?.getD (.refusal, .null) else (.refusal, .null)

def unknown (text : String) : ResultAnswers where
  handing := { status := .failure }
  success := true
  message := some (Utf8.encode ("no such query: " ++ text))
  columns := []
  turns := []

def engine (s : Script) : Engine where
  State := Unit
  defaults _ := s.defaults
  openDatabase _ _ u := (s.database, u)
  openConnection u := (s.connection, u)
  query text u := ((s.queries.lookup text).getD (unknown text), u)

end Script

end QueryLease.Engine

import QueryLease.Engine.Decode

namespace QueryLease.Engine

structure Tuple where
  object : Option Object
  column : Nat → Nat → Handing × Answers

structure Result where
  object : Object
  turns : List Turn
  tuple : Option Tuple := none
  fetches : Nat := 0

namespace Result

open Ledger

def columnNames (result : Object) (i : Nat) : List Naming → LedgerM (Except Fault (List String))
  | [] => return .ok []
  | naming :: rest => do
    let bytes ← takeName .resultGetColumnName naming (some result) [toString i]
    match check naming.status .resultGetColumnName >>= fun _ =>
        TextRole.columnName.decode bytes with
    | .error f => return .error f
    | .ok name => return (name :: ·) <$> (← columnNames result (i + 1) rest)

def succeeded (result : Object) (answers : ResultAnswers) : LedgerM Bool := do
  match answers.handing.status with
  | .failure => return false
  | .success =>
    record
      { entry := .resultIsSuccess, subject := some (some result), reply := .flag answers.success }
    return answers.success

def ofGiven (result : Object) (answers : ResultAnswers) :
    LedgerM (Except Fault (Result × List String)) := do
  if ← succeeded result answers then
    record
      { entry := .resultGetNumColumns, subject := some (some result)
        reply := .count answers.columns.length }
    match ← columnNames result 0 answers.columns with
    | .ok columns => return .ok ({ object := result, turns := answers.turns }, columns)
    | .error f =>
      destroy .resultDestroy (some result)
      return .error f
  else
    let message ← takeText .resultGetErrorMessage answers.message (some result)
    destroy .resultDestroy (some result)
    return .error (.reported 1 (Utf8.decodeLossy message))

def ofAnswers (connection : Object) (answers : ResultAnswers) :
    LedgerM (Except Fault (Result × List String)) := do
  let given ← handOut .connectionQuery .result answers.handing (some (some connection)) []
  match given, answers.handing.status with
  | none, .failure => return .error (.refused .connectionQuery)
  | none, .success => return .error (.ungiven .result)
  | some result, _ => ofGiven result answers

def rowsLeft (r : Result) : Nat := r.turns.length

def dropTuple (r : Result) : LedgerM Unit :=
  match r.tuple with
  | none => return ()
  | some tuple => destroy .tupleDestroy tuple.object

def hasNext (r : Result) (b : Bool) : LedgerM Unit :=
  record { entry := .resultHasNext, subject := some (some r.object), reply := .flag b }

/-- Gives up the row the result is on, then asks for the next. -/
def fetch (r : Result) : LedgerM (Except Fault (Option Nat) × Result) := do
  r.dropTuple
  match r.turns with
  | [] =>
    r.hasNext false
    return (.ok none, { r with tuple := none })
  | .pause :: turns =>
    r.hasNext false
    return (.ok none, { r with tuple := none, turns })
  | .row handing column :: turns =>
    r.hasNext true
    let object ← handOut .resultGetNext .tuple handing (some (some r.object)) []
    match handing.status with
    | .success =>
      let fetches := r.fetches + 1
      return (.ok (some fetches), { r with tuple := some ⟨object, column⟩, turns, fetches })
    | .failure =>
      if object.isSome then destroy .tupleDestroy object
      return (.error (.refused .resultGetNext), { r with tuple := none, turns })

/-- The row of fetch number `row`, if it is the one the result is on. -/
def tuple? (r : Result) (row : Nat) : Option Tuple := r.tuple.filter fun _ => r.fetches = row

def read (r : Result) (row column : Nat) : LedgerM (Except Fault Cell) := do
  match r.tuple? row with
  | none => return .error (.staleRow row)
  | some tuple =>
    let (handing, answers) := tuple.column (← get).now column
    withValue .tupleGetValue tuple.object [toString column] handing (decode · answers)

def dispose (r : Result) : LedgerM Unit := do
  r.dropTuple
  destroy .resultDestroy (some r.object)

end Result

end QueryLease.Engine

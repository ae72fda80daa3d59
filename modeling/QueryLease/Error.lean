import QueryLease.Engine.Entry

namespace QueryLease

inductive TextRole where
  | stringValue
  | fieldName
  | columnName
  deriving DecidableEq

def TextRole.name : TextRole → String
  | stringValue => "string value"
  | fieldName => "struct field name"
  | columnName => "column name"

inductive Argument where
  | path
  | query
  deriving DecidableEq

def Argument.name : Argument → String
  | path => "path"
  | query => "query"

/-- An object that the engine reports success for and does not give. -/
inductive Ungiven where
  | database
  | connection
  | result
  deriving DecidableEq

def Ungiven.name : Ungiven → String
  | database => "database"
  | connection => "connection"
  | result => "result"

def Ungiven.entry : Ungiven → Engine.Entry
  | database => .databaseInit
  | connection => .connectionInit
  | result => .connectionQuery

inductive Fault where
  | reported (code : Int32) (message : String)
  | notUtf8 (role : TextRole)
  | containsNul (argument : Argument)
  | staleRow (row : Nat)
  | refused (entry : Engine.Entry)
  | ungiven (object : Ungiven)
  | aboveInt64 (n : UInt64)
  | unknownQuery (query : String)
  | scanFailed (row : Nat)
  | noCell (row column : Nat)
  deriving DecidableEq

namespace Fault

def code : Fault → Int
  | reported code _ => code.toInt
  | refused _ | scanFailed _ => 1
  | ungiven _ | aboveInt64 _ | unknownQuery _ | noCell _ _ => -1
  | notUtf8 _ => -2
  | containsNul _ => -3
  | staleRow _ => -4

def message : Fault → String
  | reported _ message => message
  | notUtf8 role => role.name ++ " is not utf-8"
  | containsNul argument => argument.name ++ " contains NUL"
  | staleRow row => "row " ++ toString row ++ " was replaced by a later fetch"
  | refused entry => entry.symbol ++ " failed"
  | ungiven object => object.entry.symbol ++ " returned null " ++ object.name
  | aboveInt64 n => "UINT64 value " ++ toString n ++ " exceeds INT64"
  | unknownQuery query => "unknown query: " ++ query
  | scanFailed row => "scan failed at row " ++ toString row
  | noCell row column => "no cell at (" ++ toString row ++ ", " ++ toString column ++ ")"

def text (f : Fault) : String :=
  let head := "lbug error (code " ++ toString f.code ++ ")"
  if f.message.isEmpty then head else head ++ ": " ++ f.message

end Fault

inductive LoadError where
  | load (path detail : String)
  | symbols (path detail : String)
  deriving DecidableEq

def LoadError.message : LoadError → String
  | load path detail => "failed to load lbug runtime '" ++ path ++ "': " ++ detail
  | symbols path detail =>
    "failed to resolve lbug ABI symbols from '" ++ path ++ "': " ++ detail

inductive Misuse where
  | cursorTaken
  | notAdvanced
  | exhausted
  | tooManyReads
  | other (reason : String)
  deriving DecidableEq

def Misuse.message : Misuse → String
  | cursorTaken => "result already has a cursor"
  | notAdvanced => "cursor has not been advanced"
  | exhausted => "cursor is exhausted"
  | tooManyReads => "too many reads in flight"
  | other reason => reason

inductive Error where
  | released
  | closing
  | iteration (row : Nat) (source : Fault)
  | invalidState (misuse : Misuse)
  | indexOutOfRange (index count : Nat)
  | unknownColumn (name : String)
  | engine (fault : Fault)
  | runtime (error : LoadError)
  deriving DecidableEq

namespace Error

def message : Error → String
  | released => "query result has been released"
  | closing => "query result is closing"
  | iteration row source => "iteration failed at row " ++ toString row ++ ": " ++ source.text
  | invalidState misuse => "invalid state: " ++ misuse.message
  | indexOutOfRange index count =>
    "column index " ++ toString index ++ " out of range for " ++ toString count ++ " columns"
  | unknownColumn name => "no column named '" ++ name ++ "'"
  | engine fault => fault.text
  | runtime error => error.message

def fault? : Error → Option Fault
  | iteration _ fault | engine fault => some fault
  | _ => none

def source? : Error → Option Fault
  | iteration _ fault => some fault
  | _ => none

end Error

end QueryLease

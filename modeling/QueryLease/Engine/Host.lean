import QueryLease.Engine.Library
import QueryLease.Engine.Result

namespace QueryLease.Engine

structure Database where
  object : Object
  library : Library
  owners : Nat := 1

def Database.outline (d : Database) : String :=
  Outline.record "Database" [("runtime", Outline.quoted d.library.path)]

structure Link where
  connection : Object
  database : Nat

structure Host (E : Engine) where
  loader : Loader
  named : Option String
  first : Option (Except LoadError Library) := none
  engine : E.State
  ledger : Ledger := {}
  databases : Array Database := #[]

abbrev HostM (E : Engine) := StateM (Host E)

namespace Host

variable {E : Engine}

def booked {α : Type} (act : LedgerM α) (p : Host E) : α × Host E :=
  let (a, ledger) := act p.ledger
  (a, { p with ledger })

instance : MonadLift LedgerM (HostM E) := ⟨fun act => modifyGet (booked act)⟩

def load (p : Host E) (path : String) : Except LoadError Library := Library.load p.loader path

def setNamed (name : Option String) : HostM E Unit := modify fun p => { p with named := name }

def library : HostM E (Except LoadError Library) := do
  let p ← get
  match p.first with
  | some found => return found
  | none =>
    let found := p.load (p.named.getD Library.usual)
    set { p with first := some found }
    return found

def defaults : HostM E Config := do
  Ledger.record { entry := .defaultSystemConfig }
  return E.defaults (← get).engine

def engineDefault : HostM E (Except Error Config) := do
  match ← library with
  | .error e => return .error (.runtime e)
  | .ok _ => return .ok (← defaults)

/-- An object that a call was to give; a missing one is a failure even if the call succeeded. -/
def require (status : Status) (object : Option Object) (kind : Ungiven) : Except Fault Object :=
  match status, object with
  | .failure, _ => .error (.refused kind.entry)
  | .success, none => .error (.ungiven kind)
  | .success, some object => .ok object

/-- Opens a database, in memory unless a path is given. A library that cannot be used decides before
the path is looked at, and the path before the engine is asked for anything. -/
def openDatabase (path : Option String) (config : Config) : HostM E (Except Error Nat) := do
  match ← library with
  | .error e => return .error (.runtime e)
  | .ok library =>
    let path := path.getD ":memory:"
    if path.toList.contains '\x00' then return .error (.engine (.containsNul .path))
    let config := config.overlay (← defaults)
    let (handing, engine) := E.openDatabase path config (← get).engine
    modify fun p => { p with engine }
    let given ← Ledger.handOut .databaseInit .database handing none [path, config.text]
    match require handing.status given .database with
    | .error f => return .error (.engine f)
    | .ok object =>
      let n := (← get).databases.size
      modify fun p => { p with databases := p.databases.push { object, library } }
      return .ok n

def editOwners (n : Nat) (f : Nat → Nat) : HostM E Unit :=
  modify fun p =>
    { p with databases := p.databases.modify n fun d => { d with owners := f d.owners } }

def retainDatabase (n : Nat) : HostM E Unit := editOwners n (· + 1)

def dropDatabase (n : Nat) : HostM E Unit := do
  editOwners n (· - 1)
  match (← get).databases[n]? with
  | none => return ()
  | some d => if d.owners = 0 then Ledger.destroy .databaseDestroy (some d.object)

def connect (n : Nat) : HostM E (Except Error Link) := do
  let subject := (← get).databases[n]?.map (·.object)
  let (handing, engine) := E.openConnection (← get).engine
  modify fun p => { p with engine }
  let given ← Ledger.handOut .connectionInit .connection handing (some subject) []
  match require handing.status given .connection with
  | .error f => return .error (.engine f)
  | .ok connection =>
    retainDatabase n
    return .ok { connection, database := n }

def disconnect (l : Link) : HostM E Unit := do
  Ledger.destroy .connectionDestroy (some l.connection)
  dropDatabase l.database

/-- Runs a query; a text that the engine would cut short at a NUL does not reach it. -/
def execute (l : Link) (text : String) : HostM E (Except Fault (Result × List String)) := do
  if text.toList.contains '\x00' then return .error (.containsNul .query)
  let (answers, engine) := E.query text (← get).engine
  modify fun p => { p with engine }
  Result.ofAnswers l.connection answers

end Host

end QueryLease.Engine

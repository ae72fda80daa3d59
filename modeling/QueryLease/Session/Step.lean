namespace QueryLease.Session

inductive Wanted where
  | all
  | column (n : Nat)
  | named (name : String)

/-- A row of the source itself, kept under a name or told by its number. -/
inductive RawRow where
  | kept (name : String)
  | numbered (n : Nat)

inductive Move where
  | query (connection text keep : String)
  | run (connection text : String)
  | cloneConnection (connection keep : String)
  | drop (name : String)
  | close (result : String)
  | info (result : String)
  | cursor (result keep : String)
  | advance (cursor : String)
  | next (cursor : String) (keep : Option String)
  | currentRow (cursor keep : String)
  | cursorInfo (cursor : String)
  | rowInfo (row : String)
  | cloneRow (row keep : String)
  | get (row : String) (column : Nat)
  | getByName (row name : String)
  | values (row : String)
  | view (row : String) (column : Nat)
  | collectRows (result : String) (wanted : Wanted)
  | handle (owner keep : String)
  | acquire (owner keep : String)
  | release (owner : String)
  | handleInfo (owner : String)
  | guardInfo (guard : String)
  | rawFetch (guard keep : String)
  | rawRead (row : RawRow) (guard : String) (column : Nat)
  | collect (connection : String)
  | releaseAll (connection : String)
  | mode (connection : String)
  | outline (name : String)

/-- A step, beside those that are peculiar to the place where the session is held. -/
inductive Step (P : Type) where
  | move (m : Move)
  | peculiar (p : P)
  | withRaw (row : String) (column : Nat) (inside : List (Step P))
  | forEach (result keep : String) (inside : List (Step P)) (stop : Bool)
  | rounds (n : Nat) (inside : List (Step P))
  | panic
  | malformed

instance {P : Type} : Inhabited (Step P) := ⟨.malformed⟩

end QueryLease.Session

import QueryLease.Session.Venue

namespace QueryLease.Session

variable {V : Venue}

def pool (p : Nat) : StepM V (Pool V.source) := onPool p do return (← get).pool

def handleInfo (p h : Nat) : StepM V HandleInfo := do
  let pool ← pool p
  return { number := Pool.number h, word := pool.word h, columns := pool.columns h }

def outline : Object V → StepM V String
  | .connection p => return (← pool p).outline
  | .result p h => return (← pool p).resultOutline h
  | .handle p h => return (← pool p).handleOutline h
  | .cursor _ c => return c.outline
  | .row _ r => return r.outline
  | .guard _ _ | .rawRow _ => bad
  | .base b => do
    match V.baseOutline b (← get).engine with
    | some s => return s
    | none => bad

def keepRow (p : Nat) (r : Row V.source) : Option String → StepM V Unit
  | some name => keep name (.row p r)
  | none => onPool p r.drop

def view (p : Nat) (r : Row V.source) (column : Nat) : StepM V ColumnView := do
  ofExcept (← onPool p (r.checkColumn column))
  let columns ← onPool p r.columns
  let isNull ← onPool p (r.isNull column)
  let value ← onPool p (r.value column)
  return { column, name := columns.getD column "", isNull, value }

def collectRows (p h : Nat) : Wanted → StepM V (List Answer)
  | .all => do
    let rows ← onPool p (Pool.collectRows id h Row.values)
    return (← ofExcept rows).map .values
  | .column n => do
    let values ← onPool p (Pool.collectRows id h fun r => r.getValue n)
    return (← ofExcept values).map .value
  | .named name => do
    let values ← onPool p (Pool.collectRows id h fun r => r.getByName name)
    return (← ofExcept values).map .value

def rawFetch (p h : Nat) (name : String) : StepM V Bool := do
  match ← onPool p (Pool.fetch h) with
  | .error f => fail (.engine f)
  | .ok none => return false
  | .ok (some token) =>
    keep name (.rawRow token)
    return true

def Move.perform : Move → StepM V Answer
  | query c text name => do
    let p ← connection c
    let h ← ofExcept (← onPool p (Pool.query text))
    let columns := (← pool p).columns h
    keep name (.result p h)
    return .opened (Pool.number h) columns
  | run c text => do
    let p ← connection c
    ofExcept (← onPool p (Pool.run text))
    return .nothing
  | cloneConnection c name => do
    let p ← connection c
    onPool p Pool.join
    keep name (.connection p)
    return .nothing
  | drop name => do
    forget name
    return .nothing
  | close r => do
    let (p, h) ← result r
    return .release (← onPool p (Pool.requestRelease h))
  | info r => do
    let (p, h) ← result r
    let pool ← pool p
    return .result (pool.columns h) (pool.word h).stage
  | cursor r name => do
    let (p, h) ← result r
    keep name (.cursor p (← ofExcept (← onPool p (Cursor.take h))))
    return .nothing
  | advance k => do
    let (p, c) ← Session.cursor k
    let (moved, c) ← onPool p c.advance
    replace k (.cursor p c)
    return .flag (← ofExcept moved)
  | next k name => do
    let (p, c) ← Session.cursor k
    let (found, c) ← onPool p c.next
    replace k (.cursor p c)
    match found with
    | none => return .exhausted
    | some found =>
      let r ← ofExcept found
      keepRow p r name
      return .row r.index
  | currentRow k name => do
    let (p, c) ← Session.cursor k
    let r ← ofExcept (← onPool p c.currentRow)
    keep name (.row p r)
    return .row r.index
  | cursorInfo k => do
    let (p, c) ← Session.cursor k
    return .cursor
      { position := c.index?, exhausted := c.exhausted, fetched := c.fetched
        columns := (← pool p).columns c.handle }
  | rowInfo w => do
    let (p, r) ← row w
    return .rowInfo r.index (← onPool p r.columns)
  | cloneRow w name => do
    let (p, r) ← row w
    keep name (.row p (← onPool p r.clone))
    return .nothing
  | get w column => do
    let (p, r) ← row w
    return .value (← ofExcept (← onPool p (r.getValue column)))
  | getByName w name => do
    let (p, r) ← row w
    return .value (← ofExcept (← onPool p (r.getByName name)))
  | values w => do
    let (p, r) ← row w
    return .values (← ofExcept (← onPool p r.values))
  | view w column => do
    let (p, r) ← row w
    return .column (← Session.view p r column)
  | collectRows r wanted => do
    let (p, h) ← result r
    return .list (← Session.collectRows p h wanted)
  | handle x name => do
    let (p, h) ← owned x
    onPool p (Pool.retain h)
    keep name (.handle p h)
    return .nothing
  | acquire x name => do
    let (p, h) ← owned x
    ofExcept (← onPool p (Pool.acquire h))
    onPool p (Pool.retain h)
    keep name (.guard p h)
    return .nothing
  | release x => do
    let (p, h) ← owned x
    return .release (← onPool p (Pool.requestRelease h))
  | handleInfo x => do
    let (p, h) ← owned x
    return .handle (← Session.handleInfo p h)
  | guardInfo g => do
    let (p, h) ← guard g
    return .guard (← Session.handleInfo p h)
  | rawFetch g name => do
    let (p, h) ← guard g
    return .flag (← Session.rawFetch p h name)
  | rawRead w g column => do
    let token ← rawRow w
    let (p, h) ← guard g
    return .cell (← ofExcept (← onPool p (Pool.readCell h token column)))
  | collect c => do
    let p ← connection c
    return .count (← onPool p Pool.collect)
  | releaseAll c => do
    let p ← connection c
    return .count (← onPool p Pool.releaseAll)
  | mode c => do
    let p ← connection c
    return .mode (← pool p).mode
  | outline name => return .text (← Session.outline (← find name))

end QueryLease.Session

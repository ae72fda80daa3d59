import QueryLease.Pool.Walk
import QueryLease.Text.Outline

namespace QueryLease

open Outline

def Stats.outline (s : Stats) : String :=
  record "ReclaimStats"
    [("released", toString s.released), ("disposed", toString s.disposed),
      ("pending", toString s.pending), ("live", toString s.live)]

namespace Pool

variable {S : Source}

def outline (p : Pool S) : String :=
  record "Connection"
    [("reclaimer", record "ReclaimCoordinator"
      [("mode", p.mode.name), ("stats", p.stats.outline)])]

def handleOutline (p : Pool S) (h : Nat) : String :=
  record "ResourceHandle"
    [("id", toString (number h)), ("state", (p.word h).stage.name),
      ("active_borrows", toString (p.word h).reads),
      ("columns", list ((p.columns h).map quoted))]

def resultOutline (p : Pool S) (h : Nat) : String :=
  record "QueryResult" [("handle", p.handleOutline h)]

end Pool

def Cursor.outline {S : Source} (c : Cursor S) : String :=
  record "Cursor"
    [("handle", toString (Pool.number c.handle)),
      ("position", optional (c.index?.map toString)),
      ("exhausted", toString c.exhausted), ("fetched", toString c.fetched)]

def Row.outline {S : Source} (r : Row S) : String :=
  record "RowView"
    [("handle", toString (Pool.number r.handle)), ("index", toString r.index)]

end QueryLease

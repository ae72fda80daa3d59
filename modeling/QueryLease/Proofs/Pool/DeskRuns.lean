import Mathlib.Tactic.SplitIfs
import QueryLease.Pool
import QueryLease.Source.Tables

namespace QueryLease

open Tables

def Tables.Bound.buffer (bound : Bound) : Source.tables.Buffer := Buffer.mk bound 0 0

namespace Tables.Counters

def executed (c : Counters) : Counters :=
  { c with executions := c.executions + 1, live := c.live + 1 }

def fetched (c : Counters) : Counters := { c with fetches := c.fetches + 1 }

def read (c : Counters) : Counters := { c with reads := c.reads + 1 }

def disposed (b : Buffer) (c : Counters) : Counters :=
  { c with
    violations := if b.inFlight = 0 then c.violations else c.violations + 1
    disposals := c.disposals + 1
    live := c.live - 1 }

end Tables.Counters

namespace Pool

section

variable {S : Source} {d : Desk S} {h : Nat}

theorem handOver_inline (b : S.Buffer) (hm : d.pool.mode = .inline) :
    (handOver h b).run d = (disposeNow h b).run d := by
  simp only [handOver, StateT.run_bind, StateT.run_get, pure_bind, hm]

theorem handOver_later (b : S.Buffer) (hm : d.pool.mode ≠ .inline) : (handOver h b).run d =
    ((), { d with pool := { d.pool with queue := d.pool.queue ++ [(h, b)] } }) := by
  have later : (handOver h b).run d =
      (edit fun p => { p with queue := p.queue ++ [(h, b)] }).run d := by
    cases he : d.pool.mode with
    | inline => exact absurd he hm
    | deferred | background =>
      simp only [handOver, StateT.run_bind, StateT.run_get, pure_bind, he]
  exact later

theorem reap_empty (hq : d.pool.queue = []) (n : Nat) : (reap n).run d = ((), d) := by
  unfold reap
  simp only [StateT.run_bind, StateT.run_get, pure_bind, hq, List.drop_nil, List.take_nil]
  have same : { d with pool := { d.pool with queue := [] } } = d := by rw [← hq]
  exact congrArg _ same

theorem collect_eq_reap (d : Desk S) :
    (collect.run d).2 = ((reap d.pool.queue.length).run d).2 := rfl

theorem leave_run (d : Desk S) :
    let left : Desk S := { d with pool.owners := d.pool.owners - 1 }
    leave.run d = ((), if d.pool.owners - 1 = 0 then
      let done := (collect.run left).2
      { pool := done.pool.note .close, engine := S.close done.pool.link done.engine }
      else left) := by
  show StateT.run (if d.pool.owners - 1 = 0 then _ else pure ())
    { d with pool.owners := d.pool.owners - 1 } = _
  split_ifs
  · rfl
  · rfl

theorem enrol_eq (p : Pool S) (b : S.Buffer) (columns : List String) : p.enrol b columns =
    { p with
      handles := p.handles.push { buffer := b, columns }
      owners := p.owners + 1
      tracked := (p.track p.handles.size).tracked } := by
  unfold enrol track
  split_ifs
  · rfl
  · rfl

theorem owned_congr {p q : Pool S} (handles : q.handles = p.handles) : q.owned = p.owned := by
  funext h
  rw [owned, owned, handles]

theorem track_congr {p q : Pool S} (handles : q.handles = p.handles)
    (tracked : q.tracked = p.tracked) (h : Nat) : (q.track h).tracked = (p.track h).tracked := by
  unfold track
  rw [crowded, crowded, tracked]
  split_ifs
  · show q.tracked.filter q.owned ++ [h] = p.tracked.filter p.owned ++ [h]
    rw [tracked, owned_congr handles]
  · exact congrArg (· ++ [h]) tracked

end

variable {d : Desk .tables} {h : Nat} {x : Handle .tables}

theorem query_unknown {text : String} (hl : d.engine.queries.lookup text = none) :
    (query text).run d = (.error (.engine (.unknownQuery text)), d) := by
  have he : Source.tables.execute d.pool.link text d.engine =
      (.error (.unknownQuery text), d.engine) := by
    show State.execute text d.engine = _
    unfold State.execute
    rw [hl]
    rfl
  simp only [query, StateT.run_bind, StateT.run_get, pure_bind, he]
  rfl

theorem query_known {text : String} {bound : Bound}
    (hl : d.engine.queries.lookup text = some bound) : (query text).run d =
      (.ok d.pool.handles.size,
        ⟨d.pool.enrol bound.buffer bound.table.columns, d.engine.count Counters.executed⟩) := by
  have he : Source.tables.execute d.pool.link text d.engine =
      (.ok (bound.buffer, bound.table.columns), d.engine.count Counters.executed) := by
    show State.execute text d.engine = _
    unfold State.execute
    rw [hl]
    rfl
  simp only [query, StateT.run_bind, StateT.run_get, pure_bind, he]
  rfl

theorem fetch_absent (hx : d.pool.handles[h]? = none) : (fetch h).run d = (.ok none, d) := by
  simp only [fetch, handle?, StateT.run_bind, StateT.run_get, pure_bind, hx]
  rfl

theorem fetch_present (hx : d.pool.handles[h]? = some x) : (fetch h).run d =
    (x.buffer.fetch.1,
      ⟨(d.pool.note (.fetch h x.word)).update h fun y => { y with buffer := x.buffer.fetch.2 },
        d.engine.count Counters.fetched⟩) := by
  simp only [fetch, handle?, StateT.run_bind, StateT.run_get, pure_bind, hx]
  rfl

theorem readCell_absent (hx : d.pool.handles[h]? = none) (row column : Nat) :
    (readCell h row column).run d = (.error .released, d) := by
  simp only [readCell, handle?, StateT.run_bind, StateT.run_get, pure_bind, hx]
  rfl

theorem readCell_present (hx : d.pool.handles[h]? = some x) (row column : Nat) :
    (readCell h row column).run d =
      ((x.buffer.read row column).mapError .engine,
        ⟨d.pool.note (.read h x.word), d.engine.count Counters.read⟩) := by
  simp only [readCell, handle?, StateT.run_bind, StateT.run_get, pure_bind, hx]
  rfl

end Pool

end QueryLease

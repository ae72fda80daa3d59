import QueryLease.Proofs.Engine.Answering
import QueryLease.Proofs.Pool.Standing
import QueryLease.Source.Foreign

namespace QueryLease

open Engine

variable {S : Source}

namespace Pool

variable {d : Desk S} {text : String} {engine : S.State}

theorem query_failed {fault : Fault}
    (he : S.execute d.pool.link text d.engine = (.error fault, engine)) :
    (query text).run d = (.error (.engine fault), ⟨d.pool, engine⟩) := by
  simp only [query, StateT.run_bind, StateT.run_get, pure_bind, he]
  rfl

theorem query_made {b : S.Buffer} {columns : List String}
    (he : S.execute d.pool.link text d.engine = (.ok (b, columns), engine)) :
    (query text).run d = (.ok d.pool.handles.size, ⟨d.pool.enrol b columns, engine⟩) := by
  simp only [query, StateT.run_bind, StateT.run_get, pure_bind, he]
  rfl

section

variable {E : Engine} {d : Desk (.foreign E)}

def Answered (a : ResultAnswers) (d d' : Desk (.foreign E)) : Except Error Nat → Prop
  | .error e => (∃ fault, e = .engine fault ∧ a.Verdict (.error fault)) ∧
      d'.engine.ledger.live = d.engine.ledger.live
  | .ok h => a.Verdict (.ok (d'.pool.columns h)) ∧ ∃ x, d'.pool.handles[h]? = some x ∧
      d'.engine.ledger.live = Result.object x.buffer :: d.engine.ledger.live

end

end Pool

end QueryLease

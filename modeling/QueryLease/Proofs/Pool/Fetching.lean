import QueryLease.Proofs.Pool.Lifecycle

namespace QueryLease

open Pool

namespace Lease.Word

variable {w v : Word}

theorem endRead_of_acquire (granted : w.acquire = .ok v) : v.endRead = (false, w) := by
  have started := granted
  unfold acquire at started
  split_ifs at started with closed requested full
  have opened : w.stage = .opened := by rw [stage, if_neg closed, if_neg requested]
  obtain ⟨v', granted', ended⟩ := acquire_endRead opened (Bool.eq_false_iff.2 full)
  cases granted.symm.trans granted'
  exact ended

end Lease.Word

variable {S : Source} {h : Nat} {d d' : Desk S}

namespace Pool

/-- A fetch under a read of its own. -/
def fetchRead (h : Nat) : PoolM S (Except Error (Except Fault (Option S.Row))) := do
  match ← acquire h with
  | .error e => return .error e
  | .ok () =>
    let fetched ← fetch h
    endRead h
    return .ok fetched

variable {refusal : Lease.Refusal} {w : Lease.Word} {x : Handle S}

theorem fetchRead_refused (refused : (d.pool.word h).acquire = .error refusal) :
    (fetchRead h).run d = (.error refusal.error, d) := by
  rw [fetchRead, StateT.run_bind, acquire_run_error refused]
  rfl

theorem fetchRead_run (hx : d.pool.handles[h]? = some x) (granted : x.word.acquire = .ok w) :
    (fetchRead h).run d =
      let found := S.fetch d.pool.link x.buffer d.engine
      (.ok found.1, ⟨(d.pool.note (.fetch h w)).update h fun y => { y with buffer := found.2.1 },
        found.2.2⟩) := by
  let found := S.fetch d.pool.link x.buffer d.engine
  let started : Desk S := { d with pool := d.pool.reword h w 0 }
  let noted : Desk S := ⟨(started.pool.note (.fetch h w)).update h fun y =>
    { y with buffer := found.2.1 }, found.2.2⟩
  have hs : started.pool.handles[h]? = some { x with word := w } := getElem?_reword d.pool 0 hx
  have fetched : (fetch h).run started = (found.1, noted) := fetch_run_some hs
  have hn : noted.pool.handles[h]? = some { x with word := w, buffer := found.2.1 } := by
    show ((started.pool.note _).update h _).handles[h]? = _
    rw [getElem?_update, if_pos rfl]
    exact congrArg (Option.map _) hs
  have ended : (endRead h).run noted =
      ((), { noted with pool := noted.pool.reword h x.word 0 }) := by
    refine endRead_run ?_
    rw [word_eq hn]
    exact Lease.Word.endRead_of_acquire granted
  -- The handle has its word back, and only its buffer is another.
  have back : noted.pool.reword h x.word 0 =
      (d.pool.note (.fetch h w)).update h fun y => { y with buffer := found.2.1 } := by
    have handles : (noted.pool.reword h x.word 0).handles =
        ((d.pool.note (.fetch h w)).update h fun y => { y with buffer := found.2.1 }).handles := by
      apply Array.ext_getElem?
      intro i
      simp only [noted, started, reword, update, note, Array.getElem?_modify]
      split_ifs with same
      · subst same
        rw [hx]
        rfl
      · rfl
    exact congrArg (fun hs => { d.pool.note (.fetch h w) with handles := hs }) handles
  rw [fetchRead, StateT.run_bind, acquire_run_ok (word_eq hx ▸ granted)]
  show (fetch h >>= fun fetched => endRead h >>= fun _ => pure (Except.ok fetched)).run started = _
  rw [StateT.run_bind, fetched]
  show (endRead h >>= fun _ => pure (Except.ok found.1)).run noted = _
  rw [StateT.run_bind, ended, back]
  rfl

theorem exists_granted (opened : (d.pool.word h).stage = .opened)
    (room : (d.pool.word h).full = false) :
    ∃ x w, d.pool.handles[h]? = some x ∧ x.word.acquire = .ok w := by
  obtain ⟨w, granted⟩ := Lease.Word.acquire_room opened room
  cases hx : d.pool.handles[h]? with
  | none =>
    rw [word_absent hx, Lease.Word.acquire_shut] at granted
    cases granted
  | some x =>
    rw [word_eq hx] at granted
    exact ⟨x, w, rfl, granted⟩

theorem fetchRead_cases (h : Nat) (d : Desk S) :
    (∃ refusal, (d.pool.word h).acquire = .error refusal ∧
      (fetchRead h).run d = (.error refusal.error, d)) ∨
    ∃ x w d', d.pool.handles[h]? = some x ∧ x.word.acquire = .ok w ∧
      (fetchRead h).run d = (.ok (S.fetch d.pool.link x.buffer d.engine).1, d') ∧
      d'.pool.handles[h]? = some { x with buffer := (S.fetch d.pool.link x.buffer d.engine).2.1 } ∧
      d'.pool.calls = .fetch h w :: d.pool.calls := by
  cases hw : (d.pool.word h).acquire with
  | error refusal => exact .inl ⟨refusal, rfl, fetchRead_refused hw⟩
  | ok w =>
    cases hx : d.pool.handles[h]? with
    | none =>
      rw [word_absent hx, Lease.Word.acquire_shut] at hw
      cases hw
    | some x =>
      rw [word_eq hx] at hw
      refine .inr ⟨x, w, _, rfl, hw, fetchRead_run hx hw, ?_, rfl⟩
      rw [getElem?_update, if_pos rfl]
      exact congrArg (Option.map _) hx

theorem fetchRead_ok {found : Except Fault (Option S.Row)}
    (fetched : (fetchRead h).run d = (.ok found, d')) :
    ∃ w, d'.pool.calls = .fetch h w :: d.pool.calls := by
  rcases fetchRead_cases h d with ⟨refusal, -, run⟩ | ⟨x, w, e', -, -, run, -, calls⟩
  · cases run.symm.trans fetched
  · cases run.symm.trans fetched
    exact ⟨w, calls⟩

end Pool

end QueryLease

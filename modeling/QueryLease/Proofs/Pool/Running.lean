import QueryLease.Proofs.Pool.Querying
import QueryLease.Proofs.Pool.Rounds

namespace QueryLease

variable {S : Source}

/-- The rows that a buffer gives before the first fetch that gives none, how that fetch came out,
and what is left of the buffer after it. -/
inductive Source.Yields (S : Source) (link : S.Link) :
    S.Buffer → S.State → Nat → Except Fault Unit → S.Buffer → S.State → Prop
  | ended {b b' : S.Buffer} {s s' : S.State} :
    S.fetch link b s = (.ok none, b', s') → Yields S link b s 0 (.ok ()) b' s'
  | failed {b b' : S.Buffer} {s s' : S.State} {fault : Fault} :
    S.fetch link b s = (.error fault, b', s') → Yields S link b s 0 (.error fault) b' s'
  | row {b b' b'' : S.Buffer} {s s' s'' : S.State} {token : S.Row} {k : Nat}
    {outcome : Except Fault Unit} :
    S.fetch link b s = (.ok (some token), b', s') → Yields S link b' s' k outcome b'' s'' →
    Yields S link b s (k + 1) outcome b'' s''

namespace Lease.Word

def reading : Word := ⟨1⟩

theorem acquire_fresh : fresh.acquire = .ok reading := rfl

theorem request_fresh : fresh.request = (some 0, ⟨closingBit⟩) := rfl

theorem request_shut : shut.request = (none, shut) := rfl

end Lease.Word

namespace Pool

/-- The pool with this handle as its last, which holds on to it, and these calls made. -/
def joined (p : Pool S) (x : Handle S) (calls : List Call) : Pool S :=
  { p with
    handles := p.handles.push x
    tracked := (p.track p.handles.size).tracked
    owners := p.owners + 1
    calls := calls ++ p.calls }

variable {p : Pool S} {x : Handle S} {calls : List Call} {s : S.State}

theorem enrol_eq_joined (p : Pool S) (b : S.Buffer) (columns : List String) :
    p.enrol b columns = p.joined { buffer := b, columns } [] := enrol_eq p b columns

theorem joined_handle (p : Pool S) (x : Handle S) (calls : List Call) :
    (p.joined x calls).handles[p.handles.size]? = some x := Array.getElem?_push_size

theorem joined_word (p : Pool S) (x : Handle S) (calls : List Call) :
    (p.joined x calls).word p.handles.size = x.word :=
  word_eq (joined_handle p x calls)

theorem push_modify {α : Type} (xs : Array α) (a : α) (f : α → α) :
    (xs.push a).modify xs.size f = xs.push (f a) := by
  apply Array.ext_getElem?
  intro i
  rw [Array.getElem?_modify, Array.getElem?_push, Array.getElem?_push]
  by_cases last : i = xs.size
  · simp [last]
  · rw [if_neg last, if_neg last, if_neg (Ne.symm last)]

theorem joined_update (p : Pool S) (x : Handle S) (calls : List Call) (f : Handle S → Handle S) :
    (p.joined x calls).update p.handles.size f = p.joined (f x) calls := by
  unfold update joined
  rw [push_modify]

theorem joined_reword (p : Pool S) (x : Handle S) (calls : List Call) (w : Lease.Word) (n : Nat) :
    (p.joined x calls).reword p.handles.size w n =
      { p.joined { x with word := w } calls with released := p.released + n } := by
  rw [reword, joined_update]
  rfl

theorem take_run_joined (untaken : x.cursorTaken = false) :
    (Cursor.take p.handles.size).run ⟨p.joined x calls, s⟩ =
      (.ok { handle := p.handles.size },
        ⟨p.joined { x with cursorTaken := true, owners := x.owners + 1 } calls, s⟩) := by
  have claimed : (claimCursor p.handles.size).run ⟨p.joined x calls, s⟩ =
      (true, ⟨p.joined { x with cursorTaken := true } calls, s⟩) := by
    rw [claimCursor_run (joined_handle p x calls), untaken, joined_update]
    rfl
  have retained : (retain p.handles.size).run ⟨p.joined { x with cursorTaken := true } calls, s⟩ =
      ((), ⟨p.joined { x with cursorTaken := true, owners := x.owners + 1 } calls, s⟩) :=
    congrArg (fun q => ((), Desk.mk q s)) (joined_update p _ calls _)
  rw [Cursor.take, StateT.run_bind, claimed]
  show (retain p.handles.size >>= fun _ => pure (Except.ok _)).run _ = _
  rw [StateT.run_bind, retained]
  rfl

theorem fetchRead_run_joined (fresh : x.word = .fresh) :
    (fetchRead p.handles.size).run ⟨p.joined x calls, s⟩ =
      let found := S.fetch p.link x.buffer s
      (.ok found.1, ⟨p.joined { x with buffer := found.2.1 }
        (.fetch p.handles.size .reading :: calls), found.2.2⟩) := by
  have granted : x.word.acquire = .ok .reading := by rw [fresh, Lease.Word.acquire_fresh]
  rw [fetchRead_run (joined_handle p x calls) granted]
  exact congrArg (fun q => (_, Desk.mk q _))
    (joined_update p x (.fetch p.handles.size .reading :: calls) _)

end Pool

theorem Source.exists_yields (link : S.Link) (b : S.Buffer) (s : S.State) :
    ∃ k outcome b' s', S.Yields link b s k outcome b' s' := by
  induction left : S.rowsLeft b using Nat.strong_induction_on generalizing b s with
  | _ n ih =>
    rcases found : S.fetch link b s with ⟨outcome, b', s'⟩
    cases outcome with
    | error fault => exact ⟨_, _, _, _, .failed found⟩
    | ok got =>
      cases got with
      | none => exact ⟨_, _, _, _, .ended found⟩
      | some token =>
        have fewer : S.rowsLeft b' < n := by
          simpa only [found, left] using S.rowsLeft_fetch_lt (congrArg Prod.fst found)
        obtain ⟨k, outcome, b'', s'', more⟩ := ih _ fewer b' s' rfl
        exact ⟨_, _, _, _, .row found more⟩

namespace Pool

variable {p : Pool S} {x : Handle S} {calls : List Call} {s s' : S.State} {b' : S.Buffer} {k : Nat}
  {outcome : Except Fault Unit}

theorem advance_run_joined (fresh : x.word = .fresh) {c : Cursor S}
    (hc : c.handle = p.handles.size) (ahead : c.exhausted = false) :
    c.advance.run ⟨p.joined x calls, s⟩ =
      let found := S.fetch p.link x.buffer s
      (c.after found.1, ⟨p.joined { x with buffer := found.2.1 }
        (.fetch p.handles.size .reading :: calls), found.2.2⟩) := by
  rw [Cursor.advance_run_fetchRead ahead, hc, fetchRead_run_joined fresh]
  rfl

theorem skipRows_eq_skipRow (n : Nat) :
    ∃ rest : Cursor S → PoolM S (Except Error Unit × Cursor S), skipRows n = skipRow rest := by
  cases n with
  | zero => exact ⟨_, rfl⟩
  | succ n => exact ⟨_, rfl⟩

theorem skipRows_run (calls : List Call) (yields : S.Yields p.link x.buffer s k outcome b' s')
    (fresh : x.word = .fresh) {n : Nat} (left : S.rowsLeft x.buffer ≤ n) {c : Cursor S}
    (hc : c.handle = p.handles.size) (ahead : c.exhausted = false) :
    ∃ c' : Cursor S, c'.handle = p.handles.size ∧
      (skipRows n c).run ⟨p.joined x calls, s⟩ =
        ((outcome.mapError fun fault => .iteration (c.fetched + k) fault, c'),
          ⟨p.joined { x with buffer := b' }
            (List.replicate (k + 1) (.fetch p.handles.size .reading) ++ calls), s'⟩) := by
  generalize start : x.buffer = b at yields left
  induction yields generalizing x calls n c with
  | ended found | failed found =>
    subst start
    obtain ⟨rest, eq⟩ := skipRows_eq_skipRow (S := S) n
    refine ⟨c.exhaust, hc, ?_⟩
    rw [eq, skipRow, StateT.run_bind, advance_run_joined fresh hc ahead, found]
    rfl
  | @row b b' b'' s s' s'' token k outcome found more ih =>
    subst start
    have fewer : S.rowsLeft b' < S.rowsLeft x.buffer := by
      simpa only [found] using S.rowsLeft_fetch_lt (congrArg Prod.fst found)
    obtain ⟨n, rfl⟩ : ∃ m, n = m + 1 := Nat.exists_eq_add_one.2 (by omega)
    obtain ⟨c', hc', walked⟩ := ih (x := { x with buffer := b' })
      (.fetch p.handles.size .reading :: calls) (c := c.on token) (n := n) fresh hc rfl rfl
      (by omega)
    refine ⟨c', hc', ?_⟩
    have counted : c.fetched + (k + 1) = (c.on token).fetched + k := by
      show _ = c.fetched + 1 + k
      omega
    rw [skipRows, skipRow, StateT.run_bind, advance_run_joined fresh hc ahead, found]
    rw [counted, List.replicate_succ', List.append_assoc]
    exact walked

/-- What there is when the lease on the last handle has closed and its buffer is handed over. -/
def parted (p : Pool S) (x : Handle S) (calls : List Call) (s : S.State) : Desk S :=
  ((handOver p.handles.size x.buffer).run
    ⟨{ p.joined { x with word := .shut } calls with released := p.released + 1 }, s⟩).2

theorem parted_inline (inline : p.mode = .inline) : parted p x calls s =
    { pool := { p.joined { x with word := .shut } (.dispose p.handles.size .shut :: calls) with
        released := p.released + 1
        disposed := p.disposed + 1 }
      engine := S.dispose p.link x.buffer s } := by
  have word : Pool.word { p.joined { x with word := .shut } calls with released := p.released + 1 }
      p.handles.size = .shut := joined_word p _ calls
  rw [parted, handOver_inline x.buffer inline]
  show Desk.mk (note _ (.dispose _ (Pool.word _ _))) _ = _
  rw [word]
  rfl

theorem parted_later (later : p.mode ≠ .inline) : parted p x calls s =
    { pool := { p.joined { x with word := .shut } calls with
        released := p.released + 1
        queue := p.queue ++ [(p.handles.size, x.buffer)] }
      engine := s } := by
  rw [parted, handOver_later x.buffer later]
  rfl

theorem parted_handle : (parted p x calls s).pool.handles[p.handles.size]? =
    some { x with word := .shut } := by
  rw [parted, (handOver_gone _ _ _ p.handles.size).1]
  exact joined_handle p _ calls

theorem parted_owners : (parted p x calls s).pool.owners = p.owners + 1 := by
  by_cases inline : p.mode = .inline
  · rw [parted_inline inline]
    rfl
  · rw [parted_later inline]
    rfl

def unhold (h : Nat) : PoolM S Unit :=
  edit fun p => p.update h fun x => { x with owners := x.owners - 1 }

theorem drop_run_unhold {h : Nat} {d less : Desk S} (done : (unhold h).run d = ((), less)) :
    (drop h).run d =
      if less.pool.owned h then ((), less) else leave.run ((requestRelease h).run less).2 := by
  obtain rfl := congrArg Prod.snd done
  exact drop_run d h

theorem unhold_run_joined : (unhold p.handles.size).run ⟨p.joined x calls, s⟩ =
    ((), ⟨p.joined { x with owners := x.owners - 1 } calls, s⟩) :=
  congrArg (fun q => ((), Desk.mk q s)) (joined_update p x calls _)

theorem unhold_run_parted : (unhold p.handles.size).run (parted p x calls s) =
    ((), parted p { x with owners := x.owners - 1 } calls s) := by
  have kept (calls : List Call) (released disposed : Nat) (queue : List (Nat × S.Buffer))
      (s : S.State) := congrArg
    (fun q : Pool S => ((), Desk.mk { q with released, disposed, queue } s))
    (joined_update p { x with word := .shut } calls fun x => { x with owners := x.owners - 1 })
  by_cases inline : p.mode = .inline
  · rw [parted_inline inline, parted_inline inline]
    exact kept (.dispose p.handles.size .shut :: calls) _ _ _ _
  · rw [parted_later inline, parted_later inline]
    exact kept calls _ _ _ _

theorem requestRelease_run_joined (fresh : x.word = .fresh) :
    (requestRelease p.handles.size).run ⟨p.joined x calls, s⟩ = (.freed, parted p x calls s) := by
  have request : x.word.request = (some 0, ⟨Lease.Word.closingBit⟩) := by
    rw [fresh, Lease.Word.request_fresh]
  rw [requestRelease_run_freed (joined_handle p x calls) request rfl, joined_reword]
  rfl

theorem requestRelease_run_parted :
    (requestRelease p.handles.size).run (parted p x calls s) =
      (.alreadyRequested, parted p x calls s) :=
  requestRelease_run_again parted_handle Lease.Word.request_shut

theorem leave_run_parted (connected : p.owners ≠ 0) : leave.run (parted p x calls s) =
    ((), { parted p x calls s with pool.owners := p.owners }) := by
  rw [leave_run, parted_owners, Nat.add_sub_cancel, if_neg connected]

theorem joined_owned : (p.joined x calls).owned p.handles.size = (x.owners != 0) := by
  rw [owned, joined_handle]
  rfl

theorem parted_owned : (parted p x calls s).pool.owned p.handles.size = (x.owners != 0) := by
  rw [owned, parted_handle]
  rfl

def remaining (p : Pool S) (x : Handle S) (calls : List Call) (s : S.State) : Desk S :=
  { parted p { x with owners := 0 } calls s with pool.owners := p.owners }

theorem drop_drop_parted {α : Type} (a : α) (connected : p.owners ≠ 0) (h2 : x.owners = 2) :
    (do drop p.handles.size; drop p.handles.size; return a : PoolM S α).run (parted p x calls s) =
      (a, remaining p x calls s) := by
  rw [StateT.run_bind, drop_run_unhold unhold_run_parted, parted_owned, if_pos (by simp [h2])]
  show (drop p.handles.size >>= fun _ => pure a).run (parted p _ calls s) = _
  rw [StateT.run_bind, drop_run_unhold unhold_run_parted, parted_owned, if_neg (by simp [h2]),
    requestRelease_run_parted, leave_run_parted connected, h2]
  rfl

theorem drop_drop_joined {α : Type} (a : α) (connected : p.owners ≠ 0) (h2 : x.owners = 2)
    (fresh : x.word = .fresh) :
    (do drop p.handles.size; drop p.handles.size; return a : PoolM S α).run ⟨p.joined x calls, s⟩ =
      (a, remaining p x calls s) := by
  rw [StateT.run_bind, drop_run_unhold unhold_run_joined, joined_owned, if_pos (by simp [h2])]
  show (drop p.handles.size >>= fun _ => pure a).run ⟨p.joined _ calls, s⟩ = _
  rw [StateT.run_bind, drop_run_unhold unhold_run_joined, joined_owned, if_neg (by simp [h2]),
    requestRelease_run_joined (x := { x with owners := x.owners - 1 - 1 }) fresh,
    leave_run_parted connected, h2]
  rfl

variable {d : Desk S} {text : String} {b : S.Buffer} {columns : List String}

theorem run_failed {fault : Fault} (he : S.execute d.pool.link text d.engine = (.error fault, s)) :
    (run text).run d = (.error (.engine fault), ⟨d.pool, s⟩) := by
  rw [run, StateT.run_bind, query_failed he]
  rfl

theorem run_made (connected : d.pool.owners ≠ 0)
    (he : S.execute d.pool.link text d.engine = (.ok (b, columns), s))
    (yields : S.Yields d.pool.link b s k outcome b' s') :
    (run text).run d = (outcome.mapError fun fault => .iteration k fault,
      remaining d.pool { buffer := b', columns, cursorTaken := true, owners := 2 }
        (List.replicate (k + 1) (.fetch d.pool.handles.size .reading)) s') := by
  let x : Handle S := { buffer := b, columns, cursorTaken := true, owners := 2 }
  let left : Desk S := ⟨d.pool.joined { x with buffer := b' }
    (List.replicate (k + 1) (.fetch d.pool.handles.size .reading)), s'⟩
  have taken : (Cursor.take d.pool.handles.size).run
      ⟨d.pool.joined { buffer := b, columns } [], s⟩ =
      (.ok { handle := d.pool.handles.size }, ⟨d.pool.joined x [], s⟩) := take_run_joined rfl
  have bound : (rowsLeft d.pool.handles.size).run ⟨d.pool.joined x [], s⟩ =
      (S.rowsLeft b, ⟨d.pool.joined x [], s⟩) :=
    congrArg (fun y : Option (Handle S) => (y.elim 0 fun y => S.rowsLeft y.buffer, Desk.mk _ s))
      (joined_handle d.pool x [])
  obtain ⟨⟨h, position, fetched⟩, rfl, walked⟩ := skipRows_run (x := x) [] yields rfl
    le_rfl (c := { handle := d.pool.handles.size }) rfl rfl
  dsimp only at walked
  rw [Nat.zero_add, List.append_nil] at walked
  rw [run, StateT.run_bind, query_made he, enrol_eq_joined]
  show StateT.run (Cursor.take d.pool.handles.size >>= _) _ = _
  rw [StateT.run_bind, taken]
  show StateT.run (rowsLeft d.pool.handles.size >>= _) _ = _
  rw [StateT.run_bind, bound]
  show StateT.run (skipRows (S.rowsLeft b) { handle := d.pool.handles.size } >>= _) _ = _
  rw [StateT.run_bind, walked]
  cases outcome with
  | error fault => exact drop_drop_joined _ connected rfl rfl
  | ok _ =>
    -- The walk has come to its end, so the release is asked for while both owners are there.
    have asked : (discard (requestRelease d.pool.handles.size)).run left =
        ((), parted d.pool { x with buffer := b' } _ s') :=
      congrArg (fun r : Lease.Release × Desk S => ((), r.2)) (requestRelease_run_joined rfl)
    show StateT.run (discard (requestRelease d.pool.handles.size) >>= _) left = _
    rw [StateT.run_bind, asked]
    exact drop_drop_parted _ connected rfl

theorem countP_track {h : Nat} (unowned : p.owned h = false) :
    (p.track h).tracked.countP p.owned = p.tracked.countP p.owned := by
  unfold track
  split_ifs
  · simp [prune, List.countP_append, List.countP_filter, unowned]
  · simp [List.countP_append, unowned]

theorem owned_push_unowned (h0 : x.owners = 0) :
    Pool.owned { p with handles := p.handles.push x } = p.owned := by
  funext h
  show (p.handles.push x)[h]?.any _ = p.handles[h]?.any _
  rw [Array.getElem?_push]
  split_ifs with last
  · subst last
    simp [h0]
  · rfl

theorem live_of_push {q : Pool S} (handles : q.handles = p.handles.push x) (h0 : x.owners = 0)
    (tracked : q.tracked = (p.track p.handles.size).tracked) : q.stats.live = p.stats.live := by
  have unowned : p.owned p.handles.size = false := by simp [owned]
  show q.tracked.countP q.owned = p.tracked.countP p.owned
  rw [owned_congr (p := { p with handles := p.handles.push x }) handles, owned_push_unowned h0,
    tracked]
  exact countP_track unowned

def ranHandle (b : S.Buffer) (columns : List String) : Handle S where
  buffer := b
  columns := columns
  word := .shut
  cursorTaken := true
  owners := 0

/-- A run whose `k` rows were fetched before its last fetch came out like this and left its buffer
like that. One handle is used up: its lease is closed, nobody owns or reads it, and no other is
touched. Its buffer is disposed of or queued. -/
structure Ran (d : Desk S) (k : Nat) (last : Except Fault Unit) (b : S.Buffer) (s : S.State)
    (columns : List String) (answer : Except Error Unit) (d' : Desk S) : Prop where
  answer : answer = last.mapError fun fault => .iteration k fault
  handles : d'.pool.handles = d.pool.handles.push (ranHandle b columns)
  lease : (d'.pool.word d.pool.handles.size).stage = .closed ∧
    (d'.pool.word d.pool.handles.size).reads = 0
  owners : d'.pool.owners = d.pool.owners
  released : d'.pool.stats.released = d.pool.stats.released + 1
  live : d'.pool.stats.live = d.pool.stats.live
  inline : d.pool.mode = .inline →
    d'.pool.calls = .dispose d.pool.handles.size .shut ::
      (List.replicate (k + 1) (.fetch d.pool.handles.size .reading) ++ d.pool.calls) ∧
    d'.engine = S.dispose d.pool.link b s ∧
    d'.pool.stats.disposed = d.pool.stats.disposed + 1 ∧ d'.pool.queue = d.pool.queue
  later : d.pool.mode ≠ .inline →
    d'.pool.calls =
      List.replicate (k + 1) (.fetch d.pool.handles.size .reading) ++ d.pool.calls ∧
    d'.engine = s ∧ d'.pool.stats.disposed = d.pool.stats.disposed ∧
    d'.pool.queue = d.pool.queue ++ [(d.pool.handles.size, b)] ∧
    d'.pool.stats.pending = d.pool.stats.pending + 1

theorem ran_remaining (d : Desk S) (k : Nat) (last : Except Fault Unit) (b : S.Buffer)
    (s : S.State) (columns : List String) :
    Ran d k last b s columns (last.mapError fun fault => .iteration k fault)
      (remaining d.pool { buffer := b, columns, cursorTaken := true, owners := 2 }
        (List.replicate (k + 1) (.fetch d.pool.handles.size .reading)) s) := by
  let d' : Desk S := remaining d.pool { buffer := b, columns, cursorTaken := true, owners := 2 }
    (List.replicate (k + 1) (.fetch d.pool.handles.size .reading)) s
  have handles : d'.pool.handles = d.pool.handles.push (ranHandle b columns) :=
    (handOver_gone _ _ _ d.pool.handles.size).1
  have released : d'.pool.released = d.pool.released + 1 :=
    (handOver_gone _ _ _ d.pool.handles.size).2.1
  have word : d'.pool.word d.pool.handles.size = .shut := word_eq parted_handle
  have tracked : d'.pool.tracked = (d.pool.track d.pool.handles.size).tracked := by
    by_cases inline : d.pool.mode = .inline
    · exact congrArg (·.pool.tracked) (parted_inline inline)
    · exact congrArg (·.pool.tracked) (parted_later inline)
  refine ⟨rfl, handles, ?_, rfl, released, live_of_push handles rfl tracked, ?_, ?_⟩
  · rw [word]
    decide
  · intro inline
    rw [remaining, parted_inline inline]
    exact ⟨rfl, rfl, rfl, rfl⟩
  · intro later
    rw [remaining, parted_later later]
    exact ⟨rfl, rfl, rfl, rfl, List.length_append⟩

/-- A run that cannot be started changes nothing in the pool. Any other fetches until it is given no
row, succeeds just if the rows had come to their end, and leaves the same behind however it ends. -/
theorem run_releases (text : String) (d : Desk S) (connected : d.pool.owners ≠ 0) :
    (∀ fault s, S.execute d.pool.link text d.engine = (.error fault, s) →
      (run text).run d = (.error (.engine fault), ⟨d.pool, s⟩)) ∧
    ∀ b columns s, S.execute d.pool.link text d.engine = (.ok (b, columns), s) →
      (∃ k last b' s', S.Yields d.pool.link b s k last b' s') ∧
      ∀ k last b' s', S.Yields d.pool.link b s k last b' s' →
        Ran d k last b' s' columns ((run text).run d).1 ((run text).run d).2 := by
  refine ⟨fun fault s he => run_failed he, fun b columns s he => ?_⟩
  refine ⟨S.exists_yields d.pool.link b s, fun k last b' s' yields => ?_⟩
  rw [run_made connected he yields]
  exact ran_remaining d k last b' s' columns

def tornRows : Tables.Bound :=
  ⟨{ columns := ["n"], rows := [[.integer 8], [.integer 9]] }, some 1⟩

def torn : Desk .tables where
  pool := { link := (), mode := .deferred }
  engine := { queries := [("q", tornRows)] }

theorem run_releases_torn : torn.pool.owners ≠ 0 ∧
    ((run "q").run torn).1 = .error (.iteration 1 (.scanFailed 1)) ∧
    ((run "q").run torn).2.pool.stats.pending = 1 := by
  let started : Tables.State := torn.engine.count Tables.Counters.executed
  let fetched : Tables.State := started.count Tables.Counters.fetched
  have made : Source.tables.execute () "q" torn.engine =
    (.ok (tornRows.buffer, ["n"]), started) := rfl
  have first : Source.tables.fetch () tornRows.buffer started =
    (.ok (some (0 : Nat)), Tables.Buffer.mk tornRows 1 0, fetched) := rfl
  have second : Source.tables.fetch () (Tables.Buffer.mk tornRows 1 0) fetched =
    (.error (.scanFailed 1), Tables.Buffer.mk tornRows 1 0,
      fetched.count Tables.Counters.fetched) := rfl
  have ran := ((run_releases "q" torn (by decide)).2 _ _ _ made).2 _ _ _ _
    (.row first (.failed second))
  exact ⟨by decide, ran.answer, (ran.later (by decide)).2.2.2.2⟩

end Pool

end QueryLease

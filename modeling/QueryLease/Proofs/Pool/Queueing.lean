import QueryLease.Proofs.Pool.Closing
import QueryLease.Proofs.Pool.Registry

namespace QueryLease

open Pool

variable {S : Source}

namespace Pool

def andThen (d : Desk S) (acts : List (PoolM S Unit)) : Desk S :=
  acts.foldl (fun d act => (act.run d).2) d

def closings : Desk S → List (PoolM S Unit) → List (Nat × S.Buffer)
  | _, [] => []
  | d, act :: acts => closing d.pool (act.run d).2.pool ++ closings (act.run d).2 acts

def OneByOne : Desk S → List (PoolM S Unit) → Prop
  | _, [] => True
  | d, act :: acts =>
    (closing d.pool (act.run d).2.pool).length ≤ 1 ∧ OneByOne (act.run d).2 acts

def passed (p : Pool S) : List Nat := (disposals p.calls).reverse ++ p.queue.map Prod.fst

end Pool

namespace Deed

def moves (p : Pool S) : Deed S → List (PoolM S Unit)
  | releaseAll => edit prune :: p.prune.tracked.map fun h => discard (Pool.requestRelease h)
  | deed => [deed.perform]

end Deed

namespace Pool

variable {d d' : Desk S} {G : Stake} {act : PoolM S Unit}

theorem Queued.passed_eq {new : List (Nat × S.Buffer)} (queued : Queued new d d') :
    d'.pool.passed = d.pool.passed ++ new.map Prod.fst := by
  cases queued with
  | waits queue calls alive => simp [passed, queue, calls]
  | ends gone alive queue calls engine => simp [passed, queue, calls]

def requests (hs : List Nat) : List (PoolM S Unit) := hs.map fun h => discard (requestRelease h)

theorem andThen_requests (hs : List Nat) (d : Desk S) :
    andThen d (requests hs) = ((hs.mapM requestRelease).run d).2 := by
  induction hs generalizing d with
  | nil => rfl
  | cons h hs ih =>
    rw [mapM_requestRelease_cons]
    exact ih _

theorem closings_requests (s : d.Sound) (later : d.pool.mode ≠ .inline) (hs : List Nat)
    (owned : ∀ h ∈ hs, d.pool.owned h = true) :
    let d' := andThen d (requests hs)
    OneByOne d (requests hs) ∧ d'.pool.queue = d.pool.queue ++ closings d (requests hs) ∧
      disposals d'.pool.calls = disposals d.pool.calls ∧ d'.pool.owners = d.pool.owners ∧
      d'.pool.mode = d.pool.mode := by
  induction hs generalizing d with
  | nil => exact ⟨trivial, (List.append_nil _).symm, rfl, rfl, rfl⟩
  | cons h hs ih =>
    obtain ⟨G, s⟩ := s
    let e : Desk S := ((requestRelease h).run d).2
    have here := owned h List.mem_cons_self
    have possible : (Deed.requestRelease h).possible d.pool = true := here
    obtain ⟨x, hx, -⟩ := s.exists_handle (s.holders_eq h ▸ owned_iff.1 here)
    obtain ⟨new, adds, -⟩ := adds_requestRelease hx (s.leased.counts h x hx) later
    obtain ⟨G', s'⟩ : e.Sound := Desk.Sound.perform s possible
    have same := adds.closes.closing_eq s s'
    have still : e.pool.owned = d.pool.owned := (requestRelease_asked s.counted h).2.1.owned
    obtain ⟨few, queue, calls, owners, mode⟩ := ih (d := e) ⟨G', s'⟩ (adds.mode ▸ later)
      fun k mem => still ▸ owned k (List.mem_cons_of_mem h mem)
    refine ⟨⟨same ▸ adds.few, few⟩, ?_, calls.trans adds.calls, owners.trans adds.owners,
      mode.trans adds.mode⟩
    show _ = d.pool.queue ++ (closing d.pool e.pool ++ closings e (requests hs))
    rw [← List.append_assoc, same, ← adds.queue]
    exact queue

theorem Sound.prune {p : Pool S} (s : p.Sound G) : p.prune.Sound G where
  owners := s.owners
  held := s.held
  backed := s.backed
  abandoned := s.abandoned
  leased :=
    s.leased.move rfl rfl (List.Perm.refl _) s.leased.disposed s.leased.inline s.leased.lawful
  linked := s.linked
  ended := s.ended

end Pool

namespace Deed

variable {d : Desk S} {G : Stake} {deed : Deed S}

theorem andThen_moves (d : Desk S) (deed : Deed S) :
    andThen d (deed.moves d.pool) = (deed.perform.run d).2 := by
  cases deed with
  | releaseAll => exact andThen_requests d.pool.prune.tracked _
  | _ => rfl

theorem moves_queued (s : d.pool.Sound G) (later : d.pool.mode ≠ .inline)
    (possible : deed.possible d.pool = true) (reap : ∀ n, deed ≠ .reap n) :
    let moves := deed.moves d.pool
    OneByOne d moves ∧ Queued (closings d moves) d (andThen d moves) ∧
      (andThen d moves).pool.mode = d.pool.mode := by
  by_cases all : deed = .releaseAll
  · subst all
    let pruned : Desk S := { d with pool := d.pool.prune }
    have still : Closes [] d pruned := .none rfl rfl rfl id
    have none : closing d.pool pruned.pool = [] := still.closing_eq s s.prune
    obtain ⟨few, queue, calls, owners, mode⟩ := closings_requests (d := pruned) ⟨G, s.prune⟩ later
      d.pool.prune.tracked fun h mem => (List.mem_filter.1 mem).2
    refine ⟨⟨none ▸ Nat.zero_le 1, few⟩, ?_, mode⟩
    refine .waits ?_ calls (owners ▸ id)
    show _ = d.pool.queue ++ (closing d.pool pruned.pool ++ _)
    rw [none]
    exact queue
  · have single : deed.moves d.pool = [deed.perform] := by
      cases deed with
      | releaseAll => exact absurd rfl all
      | _ => rfl
    obtain ⟨new, closes⟩ := closes s later possible reap all
    obtain ⟨G', s'⟩ := Desk.Sound.perform s possible
    have same := closes.closing_eq s s'
    rw [single]
    refine ⟨⟨same ▸ closes.few, trivial⟩, ?_, closes.mode⟩
    show Queued (closing _ _ ++ []) _ _
    rw [same, List.append_nil]
    exact closes.queued

def closings (d : Desk S) (deed : Deed S) : List (Nat × S.Buffer) :=
  if deed.possible d.pool then Pool.closings d (deed.moves d.pool) else []

theorem take_queued (s : d.Sound) (later : d.pool.mode ≠ .inline) (reap : ∀ n, deed ≠ .reap n) :
    Queued (deed.closings d) d (deed.take d) ∧ (deed.take d).pool.mode = d.pool.mode := by
  unfold closings take
  split_ifs with possible
  · obtain ⟨G, s⟩ := s
    obtain ⟨-, queued, mode⟩ := moves_queued s later possible reap
    rw [andThen_moves] at queued mode
    exact ⟨queued, mode⟩
  · exact ⟨.waits (List.append_nil _).symm rfl id, rfl⟩

end Deed

/-- What is done to a pool where buffers wait: somebody's deed, or a collection, which alone
disposes of any while the pool is there. -/
inductive Event (S : Source) where
  | deed (deed : Deed S) (own : ∀ n, deed ≠ .reap n)
  | collect

/-- A run so far. The buffers of all leases that have closed are told in the order in which that
happened, and so are those of the leases that have closed since the last collection. -/
structure Chronicle (S : Source) where
  desk : Desk S
  closed : List (Nat × S.Buffer) := []
  recent : List (Nat × S.Buffer) := []

namespace Chronicle

def take (c : Chronicle S) : Event S → Chronicle S
  | .deed deed _ =>
    { desk := deed.take c.desk
      closed := c.closed ++ deed.closings c.desk
      recent := c.recent ++ deed.closings c.desk }
  | .collect => { c with desk := (collect.run c.desk).2, recent := [] }

def after (c : Chronicle S) (events : List (Event S)) : Chronicle S := events.foldl take c

structure Sound (c : Chronicle S) : Prop where
  sound : c.desk.Sound
  later : c.desk.pool.mode ≠ .inline
  order : c.desk.pool.passed = c.closed.map Prod.fst
  waiting : c.desk.pool.owners ≠ 0 → c.desk.pool.queue = c.recent

theorem Sound.deed {c : Chronicle S} (s : c.Sound) (deed : Deed S) (own : ∀ n, deed ≠ .reap n) :
    (c.take (.deed deed own)).Sound := by
  obtain ⟨queued, mode⟩ := Deed.take_queued s.sound s.later own
  refine ⟨s.sound.take deed, mode ▸ s.later, ?_, fun alive => ?_⟩
  · show (deed.take c.desk).pool.passed = (c.closed ++ deed.closings c.desk).map Prod.fst
    rw [queued.passed_eq, s.order, List.map_append]
  · cases queued with
    | waits queue calls earlier => exact queue.trans (s.waiting (earlier alive) ▸ rfl)
    | ends gone => exact absurd gone alive

theorem Sound.collect {c : Chronicle S} (s : c.Sound) : (c.take .collect).Sound := by
  obtain ⟨-, done⟩ := collect_disposes c.desk
  obtain ⟨G, sound⟩ := s.sound
  refine ⟨Desk.Sound.reap sound c.desk.pool.queue.length, ?_, ?_, fun _ => done.waiting⟩
  · exact done.mode ▸ s.later
  · show (Pool.collect.run c.desk).2.pool.passed = c.closed.map Prod.fst
    rw [← s.order, passed, passed, done.calls, done.waiting]
    simp

theorem Sound.after {c : Chronicle S} (s : c.Sound) (events : List (Event S)) :
    (c.after events).Sound := by
  induction events generalizing c with
  | nil => exact s
  | cons event events ih =>
    cases event with
    | deed deed own => exact ih (s.deed deed own)
    | collect => exact ih s.collect

structure InOrder (c : Chronicle S) : Prop where
  /-- What has closed is disposed of in that order, each buffer once, as far as it does not wait. -/
  order : c.desk.pool.passed = c.closed.map Prod.fst
  once : (c.closed.map Prod.fst).Nodup
  all : ∀ h, h ∈ c.closed.map Prod.fst ↔ c.desk.pool.hasClosed h = true
  pending : c.desk.pool.owners ≠ 0 →
    c.desk.pool.queue = c.recent ∧ c.desk.pool.stats.pending = c.recent.length
  ended : c.desk.pool.owners = 0 →
    (disposals c.desk.pool.calls).reverse = c.closed.map Prod.fst
  collecting : c.desk.pool.owners ≠ 0 →
    (Pool.collect.run c.desk).1 = c.recent.length ∧
    Disposed c.recent { c.desk with pool.queue := [] } (Pool.collect.run c.desk).2
  /-- A deed closes one lease after another, and disposes of nothing unless the pool ends. -/
  deed : ∀ deed : Deed S, (∀ n, deed ≠ .reap n) →
    (deed.possible c.desk.pool = true → OneByOne c.desk (deed.moves c.desk.pool)) ∧
    Queued (deed.closings c.desk) c.desk (deed.take c.desk)

theorem Sound.inOrder {c : Chronicle S} (s : c.Sound) : c.InOrder := by
  obtain ⟨⟨G, sound⟩, later, order, waiting⟩ := s
  have count (h : Nat) : (c.closed.map Prod.fst).count h = (c.desk.pool.hasClosed h).toNat := by
    rw [← sound.count_gone, ← order, passed, gone, List.count_append, List.count_reverse,
      List.count_append, List.nil_append, Nat.add_comm]
  refine ⟨order, ?_, fun h => ?_, fun alive => ?_, fun gone => ?_, fun alive => ?_,
    fun deed own => ⟨fun possible => ?_, ?_⟩⟩
  · refine List.nodup_iff_count_le_one.2 fun h => ?_
    rw [count]
    exact Bool.toNat_le _
  · rw [← List.count_pos_iff, count]
    cases c.desk.pool.hasClosed h <;> simp
  · exact ⟨waiting alive, congrArg List.length (waiting alive)⟩
  · rw [← order, passed, (sound.ended gone).1]
    exact (List.append_nil _).symm
  · rw [← waiting alive]
    exact collect_disposes c.desk
  · exact (Deed.moves_queued sound later possible own).1
  · exact (Deed.take_queued ⟨G, sound⟩ later own).1

theorem first_in_first_out (link : S.Link) (engine : S.State) (events : List (Event S)) :
    let start : Chronicle S := { desk := ⟨{ link, mode := .deferred }, engine⟩ }
    (start.after events).InOrder := by
  intro start
  have opened : start.Sound :=
    ⟨Desk.Sound.fresh link .deferred engine, Mode.noConfusion, rfl, fun _ => rfl⟩
  exact (opened.after events).inOrder

/-- Of two results of one query the later is closed first, and collected. -/
example :
    let bound : Tables.Bound := ⟨{ columns := ["n"], rows := [] }, none⟩
    let start : Chronicle .tables :=
      { desk := ⟨{ link := (), mode := .deferred }, { queries := [("q", bound)] }⟩ }
    let c := start.after [.deed (.query "q") (by simp), .deed (.query "q") (by simp),
      .deed (.requestRelease 1) (by simp), .collect, .deed .releaseAll (by simp)]
    (c.closed.map Prod.fst, c.recent.map Prod.fst) = ([1, 0], [0]) := by
  rfl

end Chronicle

end QueryLease

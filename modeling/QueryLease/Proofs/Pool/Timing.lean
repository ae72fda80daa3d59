import QueryLease.Proofs.Pool.DeskRuns
import QueryLease.Proofs.Pool.Kinship
import QueryLease.Proofs.Pool.Leasing
import QueryLease.Proofs.Pool.Reaper

/-! Two pools over tables that differ in when they dispose of buffers. One does so at once; the
other one in any mode, so that it lags behind by the buffers in its queue. What is told of either is
the same but for that, and no matter how many of them it disposes of and when. -/

namespace QueryLease.Pool

open Tables (Buffer Counters)

variable {mode : Mode} {d e : Desk .tables} {h : Nat}

def beingRead (queue : List (Nat × Source.tables.Buffer)) : Nat :=
  queue.countP fun entry => entry.2.inFlight != 0

/-- The second pool lags behind the first one, which disposes of its buffers at once. -/
structure Lags (mode : Mode) (d e : Desk .tables) : Prop where
  inline : d.pool.mode = .inline
  mode : e.pool.mode = mode
  empty : d.pool.queue = []
  owners : e.pool.owners = d.pool.owners
  handles : e.pool.handles = d.pool.handles
  tracked : e.pool.tracked = d.pool.tracked
  released : e.pool.released = d.pool.released
  disposed : d.pool.disposed = e.pool.disposed + e.pool.queue.length
  queries : e.engine.queries = d.engine.queries
  executions : e.engine.counters.executions = d.engine.counters.executions
  fetches : e.engine.counters.fetches = d.engine.counters.fetches
  reads : e.engine.counters.reads = d.engine.counters.reads
  disposals : d.engine.counters.disposals = e.engine.counters.disposals + e.pool.queue.length
  violations : d.engine.counters.violations =
    e.engine.counters.violations + beingRead e.pool.queue

def Irregular (d : Desk .tables) : Prop :=
  d.engine.counters.executions < d.engine.counters.live + d.engine.counters.disposals ∨
    ¬ LawfulCalls d.pool.calls

structure Regular (d e : Desk .tables) : Prop where
  balance : d.engine.counters.live + d.engine.counters.disposals = d.engine.counters.executions
  live : e.engine.counters.live = d.engine.counters.live + e.pool.queue.length
  closed : .close ∈ d.pool.calls → e.pool.queue = []

/-- How the pools are related while nothing irregular has happened, and after something has. -/
structure Lag (mode : Mode) (irregular : Bool) (d e : Desk .tables) : Prop where
  lags : Lags mode d e
  regular : irregular = false → Regular d e
  irregular : irregular = true → Irregular d

structure Lagging (mode : Mode) (irregular : Bool) (d e : Desk .tables) : Prop
    extends Lag mode irregular d e where
  ended : d.pool.owners = 0 → .close ∈ d.pool.calls

theorem Irregular.disposeNow (hd : Irregular d) (b : Source.tables.Buffer) :
    Irregular ((disposeNow h b).run d).2 := by
  rcases hd with more | unlawful
  · left
    show d.engine.counters.executions <
      d.engine.counters.live - 1 + (d.engine.counters.disposals + 1)
    omega
  · exact .inr fun lawful => unlawful lawful.2

namespace Lag

variable {w : Bool}

theorem disposing (r : Lag mode w d e) (b : Source.tables.Buffer) {e' : Desk .tables}
    (lags : Lags mode ((disposeNow h b).run d).2 e')
    (regular : Regular d e → d.engine.counters.live ≠ 0 → .close ∉ d.pool.calls →
      Regular ((disposeNow h b).run d).2 e') :
    ∃ v, w ≤ v ∧ Lag mode v ((disposeNow h b).run d).2 e' := by
  have spoilt (irregular : Irregular ((disposeNow h b).run d).2) :
      ∃ v, w ≤ v ∧ Lag mode v ((disposeNow h b).run d).2 e' :=
    ⟨true, Bool.le_true w, lags, nofun, fun _ => irregular⟩
  cases w with
  | true => exact spoilt ((r.irregular rfl).disposeNow b)
  | false =>
    have before := r.regular rfl
    by_cases live : d.engine.counters.live = 0
    · refine spoilt (.inl ?_)
      show d.engine.counters.executions <
        d.engine.counters.live - 1 + (d.engine.counters.disposals + 1)
      have := before.balance
      omega
    · by_cases closed : .close ∈ d.pool.calls
      · exact spoilt (.inr fun lawful => lawful.1.2.2.2 closed)
      · exact ⟨false, le_rfl, lags, fun _ => regular before live closed, nofun⟩

theorem balance_dispose (balance : d.engine.counters.live + d.engine.counters.disposals =
    d.engine.counters.executions) (live : d.engine.counters.live ≠ 0) :
    d.engine.counters.live - 1 + (d.engine.counters.disposals + 1) =
      d.engine.counters.executions := by omega

theorem enqueue (r : Lag mode w d e) (b : Source.tables.Buffer) :
    ∃ v, w ≤ v ∧ Lag mode v ((disposeNow h b).run d).2
      { e with pool := { e.pool with queue := e.pool.queue ++ [(h, b)] } } := by
  refine r.disposing b ?_ fun before live closed => ?_
  · refine { r.lags with disposed := ?_, disposals := ?_, violations := ?_ }
    · show d.pool.disposed + 1 = e.pool.disposed + (e.pool.queue ++ [(h, b)]).length
      rw [List.length_append, r.lags.disposed]
      rfl
    · show d.engine.counters.disposals + 1 = _ + (e.pool.queue ++ [(h, b)]).length
      rw [List.length_append, r.lags.disposals]
      rfl
    · show (if b.inFlight = 0 then _ else d.engine.counters.violations + 1) =
        e.engine.counters.violations + beingRead (e.pool.queue ++ [(h, b)])
      rw [beingRead, List.countP_append, List.countP_singleton, r.lags.violations, beingRead]
      split_ifs <;> simp_all
      omega
  · refine ⟨balance_dispose before.balance live, ?_, fun late => ?_⟩
    · show e.engine.counters.live =
        d.engine.counters.live - 1 + (e.pool.queue ++ [(h, b)]).length
      rw [List.length_append, before.live]
      simp only [List.length_singleton]
      omega
    · exact absurd ((List.mem_cons.1 late).resolve_left nofun) closed

theorem disposeNow (r : Lag mode w d e) (b : Source.tables.Buffer) :
    ∃ v, w ≤ v ∧ Lag mode v ((disposeNow h b).run d).2 ((Pool.disposeNow h b).run e).2 := by
  refine r.disposing b ?_ fun before live closed => ?_
  · refine { r.lags with disposed := ?_, disposals := ?_, violations := ?_ }
    · show d.pool.disposed + 1 = e.pool.disposed + 1 + e.pool.queue.length
      rw [r.lags.disposed]
      omega
    · show d.engine.counters.disposals + 1 = e.engine.counters.disposals + 1 + e.pool.queue.length
      rw [r.lags.disposals]
      omega
    · show (if b.inFlight = 0 then _ else d.engine.counters.violations + 1) =
        (if b.inFlight = 0 then _ else e.engine.counters.violations + 1) + beingRead e.pool.queue
      rw [r.lags.violations]
      split_ifs <;> omega
  · refine ⟨balance_dispose before.balance live, ?_, fun late => ?_⟩
    · show e.engine.counters.live - 1 = d.engine.counters.live - 1 + e.pool.queue.length
      rw [before.live]
      omega
    · exact absurd ((List.mem_cons.1 late).resolve_left nofun) closed

theorem dequeue (r : Lag mode w d e) {entry : Nat × Source.tables.Buffer}
    {rest : List (Nat × Source.tables.Buffer)} (hq : e.pool.queue = entry :: rest) :
    Lag mode w d ((Pool.disposeNow entry.1 entry.2).run
      { e with pool := { e.pool with queue := rest } }).2 := by
  refine ⟨{ r.lags with disposed := ?_, disposals := ?_, violations := ?_ }, fun hw => ?_,
    r.irregular⟩
  · show d.pool.disposed = e.pool.disposed + 1 + rest.length
    rw [r.lags.disposed, hq, List.length_cons]
    omega
  · show d.engine.counters.disposals = e.engine.counters.disposals + 1 + rest.length
    rw [r.lags.disposals, hq, List.length_cons]
    omega
  · show d.engine.counters.violations =
      (if entry.2.inFlight = 0 then _ else e.engine.counters.violations + 1) + beingRead rest
    rw [r.lags.violations, hq, beingRead, beingRead, List.countP_cons]
    split_ifs <;> simp_all
    omega
  · obtain ⟨balance, live, closed⟩ := r.regular hw
    refine ⟨balance, ?_, fun late => ?_⟩
    · show e.engine.counters.live - 1 = d.engine.counters.live + rest.length
      rw [live, hq, List.length_cons]
      omega
    · exact absurd (closed late) (hq ▸ List.cons_ne_nil _ _)

theorem reap (r : Lag mode w d e) (n : Nat) : Lag mode w d ((reap n).run e).2 := by
  induction n generalizing e with
  | zero => exact reap_zero e ▸ r
  | succ n ih =>
    cases hq : e.pool.queue with
    | nil => rwa [reap_empty hq]
    | cons entry rest =>
      rw [reap_succ hq]
      exact ih (r.dequeue hq)

end Lag

structure Calm (d d' : Desk .tables) : Prop where
  executions : d'.engine.counters.executions = d.engine.counters.executions
  live : d'.engine.counters.live = d.engine.counters.live
  disposals : d'.engine.counters.disposals = d.engine.counters.disposals
  late : .close ∈ d'.pool.calls → .close ∈ d.pool.calls
  lawful : LawfulCalls d'.pool.calls → LawfulCalls d.pool.calls

variable {d' e' : Desk .tables} {w : Bool}

theorem Lag.calm (r : Lag mode w d e) (c : Calm d d') (lags : Lags mode d' e')
    (live : e'.engine.counters.live = e.engine.counters.live)
    (queue : e'.pool.queue = e.pool.queue) : Lag mode w d' e' := by
  refine ⟨lags, fun hw => ?_, fun hw => ?_⟩
  · obtain ⟨balance, total, closed⟩ := r.regular hw
    refine ⟨?_, ?_, fun late => queue ▸ closed (c.late late)⟩
    · rw [c.live, c.disposals, c.executions, balance]
    · rw [live, c.live, queue, total]
  · rcases r.irregular hw with more | unlawful
    · left
      rwa [c.live, c.disposals, c.executions]
    · exact .inr fun lawful => unlawful (c.lawful lawful)

theorem Lagging.update (r : Lagging mode w d e) (h : Nat)
    (f : Handle .tables → Handle .tables) :
    Lagging mode w { d with pool := d.pool.update h f } { e with pool := e.pool.update h f } := by
  refine ⟨r.calm ⟨rfl, rfl, rfl, id, id⟩ { r.lags with handles := ?_ } rfl rfl, r.ended⟩
  exact congrArg (·.modify h f) r.lags.handles

theorem Lagging.released (r : Lagging mode w d e) :
    Lagging mode w { d with pool.released := d.pool.released + 1 }
      { e with pool.released := e.pool.released + 1 } := by
  refine ⟨r.calm ⟨rfl, rfl, rfl, id, id⟩ { r.lags with released := ?_ } rfl rfl, r.ended⟩
  exact congrArg (· + 1) r.lags.released

theorem Lag.withOwners (r : Lag mode w d e) (f : Nat → Nat) :
    Lag mode w { d with pool.owners := f d.pool.owners }
      { e with pool.owners := f e.pool.owners } :=
  r.calm ⟨rfl, rfl, rfl, id, id⟩ { r.lags with owners := congrArg f r.lags.owners } rfl rfl

theorem Lag.collect (r : Lag mode w d e) :
    Lag mode w (collect.run d).2 (collect.run e).2 := by
  rw [collect_eq_reap, collect_eq_reap, reap_empty r.lags.empty]
  exact r.reap _

theorem Lag.close (r : Lag mode w d e) (queue : e.pool.queue = []) :
    Lagging mode w { d with pool := d.pool.note .close } { e with pool := e.pool.note .close } := by
  refine ⟨⟨{ r.lags with }, fun hw => ?_, fun hw => ?_⟩, fun _ => List.mem_cons_self⟩
  · exact ⟨(r.regular hw).balance, (r.regular hw).live, fun _ => queue⟩
  · exact (r.irregular hw).imp_right fun unlawful lawful => unlawful lawful.2

theorem Lagging.leave (r : Lagging mode w d e) :
    Lagging mode w (leave.run d).2 (leave.run e).2 := by
  have left := r.withOwners (· - 1)
  have same := r.lags.owners
  rw [leave_run, leave_run]
  by_cases h0 : d.pool.owners - 1 = 0
  · rw [if_pos h0, if_pos (same ▸ h0)]
    exact left.collect.close (collect_empties.post trivial)
  · rw [if_neg h0, if_neg (same ▸ h0)]
    exact ⟨left, fun h => absurd h h0⟩

theorem Lagging.join (r : Lagging mode w d e) : Lagging mode w (join.run d).2 (join.run e).2 :=
  ⟨r.withOwners (· + 1), nofun⟩

theorem Lagging.handOver (r : Lagging mode w d e) (b : Source.tables.Buffer) :
    ∃ v, w ≤ v ∧ Lagging mode v ((handOver h b).run d).2 ((handOver h b).run e).2 := by
  have ended (h0 : d.pool.owners = 0) : .close ∈ ((disposeNow h b).run d).2.pool.calls :=
    List.mem_cons_of_mem _ (r.ended h0)
  rw [handOver_inline b r.lags.inline]
  by_cases hm : mode = .inline
  · rw [handOver_inline b (r.lags.mode.trans hm)]
    obtain ⟨v, hv, lag⟩ := r.disposeNow (h := h) b
    exact ⟨v, hv, lag, ended⟩
  · rw [handOver_later b (r.lags.mode ▸ hm)]
    obtain ⟨v, hv, lag⟩ := r.enqueue (h := h) b
    exact ⟨v, hv, lag, ended⟩

theorem Lagging.query (r : Lagging mode w d e) (text : String) :
    Lagging mode w ((query text).run d).2 ((query text).run e).2 ∧
      ((query text).run e).1 = ((query text).run d).1 := by
  cases hl : d.engine.queries.lookup text with
  | none =>
    rw [query_unknown hl, query_unknown (r.lags.queries ▸ hl)]
    exact ⟨r, rfl⟩
  | some bound =>
    rw [query_known hl, query_known (r.lags.queries ▸ hl), enrol_eq, enrol_eq]
    have same := r.lags.handles
    -- A result more on both sides; what waits in the queue is still live in the later one.
    refine ⟨⟨⟨{ r.lags with
      owners := congrArg (· + 1) r.lags.owners
      handles := ?_
      tracked := ?_
      executions := congrArg (· + 1) r.lags.executions }, fun hw => ?_, fun hw => ?_⟩, nofun⟩, ?_⟩
    · show e.pool.handles.push _ = d.pool.handles.push _
      rw [same]
    · show (e.pool.track e.pool.handles.size).tracked = (d.pool.track d.pool.handles.size).tracked
      rw [track_congr same r.lags.tracked, same]
    · obtain ⟨balance, live, closed⟩ := r.regular hw
      refine ⟨?_, ?_, closed⟩
      · show d.engine.counters.live + 1 + d.engine.counters.disposals =
          d.engine.counters.executions + 1
        omega
      · show e.engine.counters.live + 1 = d.engine.counters.live + 1 + e.pool.queue.length
        omega
    · rcases r.irregular hw with more | unlawful
      · left
        show d.engine.counters.executions + 1 <
          d.engine.counters.live + 1 + d.engine.counters.disposals
        omega
      · exact .inr unlawful
    · show Except.ok e.pool.handles.size = Except.ok d.pool.handles.size
      rw [same]

theorem Lagging.fetch (r : Lagging mode w d e) (h : Nat) :
    Lagging mode w ((fetch h).run d).2 ((fetch h).run e).2 ∧
      ((fetch h).run e).1 = ((fetch h).run d).1 := by
  have same := r.lags.handles
  cases hx : d.pool.handles[h]? with
  | none =>
    rw [fetch_absent hx, fetch_absent (same ▸ hx)]
    exact ⟨r, rfl⟩
  | some x =>
    rw [fetch_present hx, fetch_present (same ▸ hx)]
    let move (y : Handle .tables) : Handle .tables := { y with buffer := x.buffer.fetch.2 }
    have calm : Calm d ⟨(d.pool.note (.fetch h x.word)).update h move,
        d.engine.count Counters.fetched⟩ :=
      ⟨rfl, rfl, rfl, fun late => (List.mem_cons.1 late).resolve_left nofun, And.right⟩
    refine ⟨⟨r.calm calm { r.lags with
      handles := ?_
      fetches := congrArg (· + 1) r.lags.fetches } rfl rfl, fun h0 => ?_⟩, rfl⟩
    · exact congrArg (·.modify h move) same
    · exact List.mem_cons_of_mem _ (r.ended h0)

theorem Lagging.readCell (r : Lagging mode w d e) (h row column : Nat) :
    Lagging mode w ((readCell h row column).run d).2 ((readCell h row column).run e).2 ∧
      ((readCell h row column).run e).1 = ((readCell h row column).run d).1 := by
  have same := r.lags.handles
  cases hx : d.pool.handles[h]? with
  | none =>
    rw [readCell_absent hx, readCell_absent (same ▸ hx)]
    exact ⟨r, rfl⟩
  | some x =>
    rw [readCell_present hx, readCell_present (same ▸ hx)]
    have calm : Calm d ⟨d.pool.note (.read h x.word), d.engine.count Counters.read⟩ :=
      ⟨rfl, rfl, rfl, fun late => (List.mem_cons.1 late).resolve_left nofun, And.right⟩
    refine ⟨⟨r.calm calm { r.lags with reads := congrArg (· + 1) r.lags.reads } rfl rfl,
      fun h0 => ?_⟩, rfl⟩
    exact List.mem_cons_of_mem _ (r.ended h0)

def Kinship.timing (mode : Mode) : Kinship .tables Unit Bool where
  rel _ w d e := Lagging mode w d e
  twin _ h k := h = k
  twin_mono _ same := same
  handle r same := by rw [r.lags.handles, same]
  modes m n := m = .inline ∧ n = mode
  mode r := ⟨r.lags.inline, r.lags.mode⟩
  update f r same := same ▸ r.update _ f
  released r := r.released
  handOver b same := fun _ _ _ r => by
    obtain ⟨v, hv, lagging⟩ := r.handOver b
    exact ⟨v, hv, same ▸ lagging, rfl⟩
  reap_left n r := by rwa [reap_empty r.lags.empty]
  reap_right n r := ⟨r.reap n, r.ended⟩
  join := Akin.still fun _ _ _ r => ⟨r.join, rfl⟩
  leave := Akin.still fun _ _ _ r => ⟨r.leave, rfl⟩
  query text := Akin.still fun _ d _ r => by
    obtain ⟨lagging, same⟩ := r.query text
    exact ⟨lagging, same ▸ Outcomes.refl (fun _ => rfl) _⟩
  fetch same := Akin.still fun _ _ _ r => same ▸ ⟨(r.fetch _).1, (r.fetch _).2.symm⟩
  readCell row column same := Akin.still fun _ _ _ r =>
    same ▸ ⟨(r.readCell _ row column).1, (r.readCell _ row column).2.symm⟩

theorem requestAll_timing (mode : Mode) (w : Bool) (hs : List Nat) :
    Akin (Kinship.timing mode).rel w (hs.mapM (requestRelease (S := .tables)))
      (hs.mapM requestRelease) Same := by
  induction hs generalizing w with
  | nil => exact Akin.pure rfl
  | cons h hs ih =>
    rw [List.mapM_cons]
    refine ((Kinship.timing mode).requestRelease (h := h) rfl).bind fun v a b _ (same : a = b) => ?_
    refine (ih v).bind fun _ as bs _ (same' : as = bs) => ?_
    exact Akin.pure (congrArg₂ List.cons same same')

theorem releaseAll_timing (mode : Mode) (w : Bool) :
    Akin (Kinship.timing mode).rel w (releaseAll (S := .tables)) releaseAll Same := by
  refine Akin.bind (A := fun _ _ _ => True) (Akin.still fun _ d e r => ⟨?_, trivial⟩)
    fun v _ _ _ _ => ?_
  · have kept : e.pool.tracked.filter e.pool.owned = d.pool.tracked.filter d.pool.owned := by
      rw [r.lags.tracked, owned_congr r.lags.handles]
    exact ⟨r.calm ⟨rfl, rfl, rfl, id, id⟩ { r.lags with tracked := kept } rfl rfl, r.ended⟩
  · refine Akin.get_bind fun _ d e r => ?_
    rw [r.lags.tracked]
    refine (requestAll_timing mode v d.pool.tracked).bind fun _ a b _ (same : a = b) => ?_
    exact Akin.pure (same ▸ rfl)

end QueryLease.Pool

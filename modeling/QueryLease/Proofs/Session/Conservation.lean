import Mathlib.Algebra.BigOperators.Group.Multiset.Basic
import QueryLease.Proofs.Session.Runs
import QueryLease.Session.Tables

namespace QueryLease

namespace Lease.Word

theorem Counts.stage_cases {w : Word} {n : Nat} (h : w.Counts n) :
    (w.stage = .opened ∧ w.shutCount = 0 ∧ w.requestCount = 0) ∨
      (w.stage = .closing ∧ w.shutCount = 0 ∧ w.requestCount = 1) ∨
      (w.stage = .closed ∧ w.shutCount = 1 ∧ w.requestCount = 1) := by
  rcases h with ⟨rfl, hn⟩ | ⟨rfl, hn, -⟩ | ⟨rfl, -⟩
  · refine .inl ⟨?_, if_neg (pack_ne_shut hn), ?_⟩
    · simp [stage, closed_pack hn, requested_pack hn]
    · simp [requestCount, requested_pack hn]
  · refine .inr (.inl ⟨?_, if_neg (pack_ne_shut hn), ?_⟩)
    · simp [stage, closed_pack hn, requested_pack hn]
    · simp [requestCount, requested_pack hn]
  · exact .inr (.inr (by decide))

end Lease.Word

namespace Pool

variable {S : Source} {B : Type} {G : Stake} {p : Pool S}

def inStage (p : Pool S) (stage : Lease.Stage) : Nat :=
  p.handles.toList.countP fun x => x.word.stage = stage

theorem sum_stages {xs : List (Handle S)} (hs : ∀ x ∈ xs, ∃ n, x.word.Counts n) :
    let count (stage : Lease.Stage) := xs.countP fun x => x.word.stage = stage
    (xs.map fun x => x.word.shutCount).sum = count .closed ∧
      (xs.map fun x => x.word.requestCount).sum = count .closing + count .closed ∧
      xs.length = count .opened + count .closing + count .closed := by
  induction xs with
  | nil => exact ⟨rfl, rfl, rfl⟩
  | cons x xs ih =>
    obtain ⟨n, counts⟩ := hs x List.mem_cons_self
    obtain ⟨shut, requested, all⟩ := ih fun y hy => hs y (List.mem_cons_of_mem _ hy)
    simp only [List.map_cons, List.sum_cons, List.length_cons, List.countP_cons, shut, requested,
      all]
    rcases counts.stage_cases with ⟨e, h0, h1⟩ | ⟨e, h0, h1⟩ | ⟨e, h0, h1⟩ <;>
      simp [e, h0, h1] <;> omega

variable {reads : Nat → Nat}

theorem Leased.sum_stages (L : Leased reads [] p) :
    (p.total fun x => x.word.shutCount) = p.inStage .closed ∧
      p.released = p.inStage .closing + p.inStage .closed ∧
      p.handles.size = p.inStage .opened + p.inStage .closing + p.inStage .closed := by
  have counts : ∀ x ∈ p.handles.toList, ∃ n, x.word.Counts n := by
    intro x hx
    obtain ⟨h, hx⟩ := List.mem_iff_getElem?.1 hx
    exact ⟨_, L.counts h x (by simpa using hx)⟩
  obtain ⟨shut, requested, all⟩ := Pool.sum_stages counts
  exact ⟨shut, L.released.trans requested, all⟩

theorem Leased.closed_eq (L : Leased reads [] p) :
    p.inStage .closed = p.queue.length + p.disposed := by
  rw [← L.sum_stages.1, ← L.gone_all, Pool.gone, List.nil_append, List.length_append,
    List.length_map, L.disposed]

end Pool

namespace Asset

variable {S : Source} {B : Type}

@[simp] def buffers : Asset S B → Nat
  | buffer _ _ => 1
  | link _ | receipt | base _ => 0

@[simp] def receipts : Asset S B → Nat
  | receipt => 1
  | link _ | buffer _ _ | base _ => 0

def tally (f : Asset S B → Nat) (A : Multiset (Asset S B)) : Nat := (A.map f).sum

variable (f : Asset S B → Nat)

@[simp] theorem tally_cons (a : Asset S B) (A : Multiset (Asset S B)) :
    tally f (a ::ₘ A) = f a + tally f A := by
  rw [tally, Multiset.map_cons, Multiset.sum_cons]
  rfl

theorem tally_add (A A' : Multiset (Asset S B)) : tally f (A + A') = tally f A + tally f A' := by
  rw [tally, Multiset.map_add, Multiset.sum_add]
  rfl

theorem tally_sum {γ : Type} (g : γ → Multiset (Asset S B)) (xs : List γ) :
    tally f (xs.map g).sum = (xs.map fun x => tally f (g x)).sum := by
  induction xs with
  | nil => rfl
  | cons x xs ih =>
    rw [List.map_cons, List.sum_cons, tally_add, ih, List.map_cons, List.sum_cons]

end Asset

namespace Pool

open Asset

variable {S : Source} {B : Type} {p : Pool S} {reads : Nat → Nat}

theorem buffers_asset (l : S.Link) (x : Handle S) :
    tally buffers (asset l x : Multiset (Asset S B)) + x.word.shutCount = 1 := by
  unfold asset Lease.Word.shutCount
  split_ifs
  · rfl
  · rfl

theorem tally_leftovers (f : Asset S B → Nat) (p : Pool S) :
    tally f (p.leftovers []) =
      (p.queue.map fun e => f (.buffer p.link e.2)).sum + p.disposed * f .receipt := by
  rw [leftovers, tally_add, tally, tally, Multiset.map_replicate, Multiset.sum_replicate,
    Nat.nsmul_eq_mul, List.nil_append, Multiset.map_coe, Multiset.sum_coe, List.map_map]
  rfl

theorem tally_link {f : Asset S B → Nat} (hf : ∀ l, f (.link l) = 0) (p : Pool S) :
    tally f (p.assets : Multiset (Asset S B)) =
      (p.handles.toList.map fun x => tally f (asset p.link x)).sum + tally f (p.leftovers []) := by
  rw [assets, tally_add, stock, tally_add, Pool.total, tally_sum]
  split_ifs
  · rfl
  · rw [← Multiset.cons_zero, tally_cons, hf]
    rfl

theorem buffers_assets (L : Leased reads [] p) : tally buffers (p.assets : Multiset (Asset S B)) =
    p.inStage .opened + p.inStage .closing + p.queue.length := by
  have total (xs : List (Handle S)) :
      (xs.map fun x => tally buffers (asset p.link x : Multiset (Asset S B))).sum +
        (xs.map fun x => x.word.shutCount).sum = xs.length := by
    induction xs with
    | nil => rfl
    | cons x xs ih =>
      have := buffers_asset (B := B) p.link x
      simp only [List.map_cons, List.sum_cons, List.length_cons]
      omega
  have queued : (p.queue.map fun e => buffers (.buffer p.link e.2 : Asset S B)).sum =
      p.queue.length := by
    simp [buffers]
  rw [tally_link fun _ => rfl, tally_leftovers, queued, show receipt.buffers = 0 from rfl]
  have := total p.handles.toList
  obtain ⟨shut, -, all⟩ := L.sum_stages
  rw [← Array.length_toList] at all
  rw [Pool.total] at shut
  omega

theorem receipts_assets (p : Pool S) :
    tally receipts (p.assets : Multiset (Asset S B)) = p.disposed := by
  have total : (p.handles.toList.map fun x =>
      tally receipts (asset p.link x : Multiset (Asset S B))).sum = 0 := by
    apply List.sum_eq_zero
    intro n hn
    obtain ⟨x, -, rfl⟩ := List.mem_map.1 hn
    unfold asset
    split_ifs
    · rfl
    · rfl
  have queued : (p.queue.map fun e => receipts (.buffer p.link e.2 : Asset S B)).sum = 0 := by
    simp [receipts]
  rw [tally_link fun _ => rfl, tally_leftovers, queued, total, receipts]
  omega

end Pool

namespace Tables

open Asset

def Idle {B : Type} (A : Multiset (Asset .tables B)) : Prop :=
  ∀ (l : Unit) (b : Buffer), .buffer l b ∈ A → b.inFlight = 0

theorem Idle.cons {B : Type} {A : Multiset (Asset .tables B)} {b : Buffer} (h : Idle A)
    (hb : b.inFlight = 0) : Idle (.buffer () b ::ₘ A) := by
  intro l b' hb'
  rcases Multiset.mem_cons.1 hb' with e | hb'
  · cases e
    exact hb
  · exact h l b' hb'

theorem Idle.of_cons {B : Type} {A : Multiset (Asset .tables B)} {a : Asset .tables B}
    (h : Idle (a ::ₘ A)) : Idle A := fun l b hb => h l b (Multiset.mem_cons_of_mem hb)

/-- The tables count what there is and what there has been. -/
structure Counted {B : Type} (A : Multiset (Asset .tables B)) (s : State) : Prop where
  executions : s.counters.executions = tally buffers A + tally receipts A
  disposals : s.counters.disposals = tally receipts A
  live : s.counters.live = tally buffers A
  violations : s.counters.violations = 0
  idle : Idle A

theorem Buffer.inFlight_fetch (b : Buffer) : b.fetch.2.inFlight = b.inFlight := by
  have (b : Buffer) : b.advance.2.inFlight = b.inFlight := by
    unfold advance
    split_ifs
    · rfl
    · rfl
    · rfl
  exact congrArg (· - 1) (this b.enter)

namespace Counted

variable {B : Type} {A A' : Multiset (Asset .tables B)} {s s' : State} {b : Buffer}
  {columns : List String} {text : String} {f : Fault}

theorem none (h : s.counters = {}) : Counted (0 : Multiset (Asset .tables B)) s where
  executions := by rw [h]; rfl
  disposals := by rw [h]; rfl
  live := by rw [h]; rfl
  violations := by rw [h]
  idle _ _ hb := absurd hb (Multiset.notMem_zero _)

theorem execute_ok (c : Counted A s) (h : (s.execute text).1 = .ok (b, columns)) :
    Counted (.buffer () b ::ₘ A) (s.execute text).2 := by
  unfold State.execute at h ⊢
  cases hl : s.queries.lookup text with
  | none =>
    rw [hl] at h
    cases h
  | some bound =>
    rw [hl] at h
    cases h
    obtain ⟨executions, disposals, live, violations, idle⟩ := c
    refine ⟨?_, ?_, ?_, violations, idle.cons rfl⟩
    · show s.counters.executions + 1 = _
      simp only [tally_cons, buffers, receipts]
      omega
    · show s.counters.disposals = _
      simpa only [tally_cons, receipts, Nat.zero_add] using disposals
    · show s.counters.live + 1 = _
      simp only [tally_cons, buffers]
      omega

theorem execute_error (c : Counted A s) (h : (s.execute text).1 = .error f) :
    Counted A (s.execute text).2 := by
  unfold State.execute at h ⊢
  cases hl : s.queries.lookup text with
  | none => exact c
  | some bound =>
    rw [hl] at h
    cases h

theorem link_iff (l : Unit) : Counted (.link l ::ₘ A) s ↔ Counted A s := by
  have tallies : tally buffers (.link l ::ₘ A) = tally buffers A ∧
      tally receipts (.link l ::ₘ A) = tally receipts A := by
    simp only [tally_cons, buffers, receipts, Nat.zero_add, and_self]
  constructor
  · rintro ⟨executions, disposals, live, violations, idle⟩
    rw [tallies.1] at executions live
    rw [tallies.2] at executions disposals
    exact ⟨executions, disposals, live, violations, idle.of_cons⟩
  · rintro ⟨executions, disposals, live, violations, idle⟩
    rw [← tallies.1] at executions live
    rw [← tallies.2] at executions disposals
    refine ⟨executions, disposals, live, violations, fun l b hb => ?_⟩
    rcases Multiset.mem_cons.1 hb with e | hb
    · cases e
    · exact idle l b hb

theorem fetch (c : Counted (.buffer () b ::ₘ A) s) :
    Counted (.buffer () (s.fetch b).2.1 ::ₘ A) (s.fetch b).2.2 := by
  obtain ⟨executions, disposals, live, violations, idle⟩ := c
  simp only [tally_cons, buffers, receipts] at executions disposals live
  refine ⟨?_, ?_, ?_, violations, ?_⟩
  · show s.counters.executions = _
    simpa only [tally_cons, buffers, receipts] using executions
  · show s.counters.disposals = _
    simpa only [tally_cons, receipts] using disposals
  · show s.counters.live = _
    simpa only [tally_cons, buffers] using live
  · refine idle.of_cons.cons ?_
    rw [State.fetch, b.inFlight_fetch]
    exact idle () b (Multiset.mem_cons_self _ _)

theorem read (c : Counted A s) (row column : Nat) : Counted A (s.read b row column).2 :=
  ⟨c.executions, c.disposals, c.live, c.violations, c.idle⟩

theorem dispose (c : Counted (.buffer () b ::ₘ A) s) : Counted (.receipt ::ₘ A) (s.dispose b) := by
  obtain ⟨executions, disposals, live, violations, idle⟩ := c
  have still := idle () b (Multiset.mem_cons_self _ _)
  simp only [tally_cons, buffers, receipts] at executions disposals live
  refine ⟨?_, ?_, ?_, ?_, fun l b' hb' => ?_⟩
  · show s.counters.executions = _
    simp only [tally_cons, buffers, receipts]
    omega
  · show s.counters.disposals + 1 = _
    simp only [tally_cons, receipts]
    omega
  · show s.counters.live - 1 = _
    simp only [tally_cons, buffers]
    omega
  · exact (if_pos still).trans violations
  · rcases Multiset.mem_cons.1 hb' with e | hb'
    · cases e
    · exact idle.of_cons l b' hb'

end Counted

end Tables

namespace Session.Tables

open QueryLease.Tables (Counted)
open Pool

def upkeep : Venue.Upkeep .tables where
  Good := Counted
  Pools n := n = 1
  execute_ok h he := (Counted.link_iff _).2 (((Counted.link_iff _).1 h).execute_ok he)
  execute_error h he := h.execute_error he
  fetch h := h.fetch
  read h := h.read _ _
  dispose h := h.dispose
  close h _ := (Counted.link_iff _).1 h
  dropBase {_ b} := nomatch b
  report h := h

variable {B : Type} {U : QueryLease.Upkeep .tables B}

theorem readRow_trades (t : Totals) (r : Row .tables) :
    Trades U (one (.owner r.handle)) (readRow t r) (readRow t r)
      fun _ => one (.owner r.handle) := by
  refine r.values_trades.bind fun outcome => ?_
  cases outcome with
  | ok vs => exact Trades.pure rfl
  | error e => exact Trades.pure rfl

theorem reader_trades (text : String) (t : Totals) :
    Trades U (one .connection) (reader text t) (reader text t) fun _ => one .connection := by
  refine (query_trades text).bind fun outcome => ?_
  match outcome with
  | .error e => exact Trades.pure rfl
  | .ok h =>
    have dropped := (drop_trades (U := U) h).frame Backed.connection
    rw [add_zero] at dropped
    refine ((fold_trades (Trading.pool U) id readRow_trades h t).frame Backed.connection).bind
      fun ⟨t, outcome⟩ => dropped.bind fun _ => ?_
    match outcome with
    | .ok () => exact Trades.pure rfl
    | .error e => exact Trades.pure rfl

theorem readers_trades (text : String) (n : Nat) (t : Totals) :
    Trades U (one .connection) (readers text n t) (readers text n t) fun _ => one .connection := by
  induction n generalizing t with
  | zero => exact Trades.pure rfl
  | succ n ih => exact (reader_trades text t).bind ih

theorem parallel_trades (text : String) (n : Nat) :
    Trades U (one .connection) (parallel text n) (parallel text n) fun _ => one .connection := by
  refine (readers_trades text n {}).bind fun totals => (query_trades text).bind fun outcome => ?_
  match outcome with
  | .error e => exact collect_trades.discard.bind fun _ => Trades.pure rfl
  | .ok h =>
    have dropped := (drop_trades (U := U) h).frame Backed.connection
    rw [add_zero] at dropped
    exact dropped.bind fun _ => collect_trades.discard.bind fun _ => Trades.pure rfl

theorem Move.perform_neutral (m : Move) : NeutralStep upkeep m.perform m.perform := by
  intro E hE
  cases m with
  | register c text bound =>
    refine (connection_acts c).bind fun _ => Alike.keeps fun s ⟨hs, _⟩ => ?_
    obtain ⟨executions, disposals, live, violations, idle⟩ := hs.held.good
    exact ⟨hs.held.of_fst rfl ⟨executions, disposals, live, violations, idle⟩, hs.ordered⟩
  | spin c => exact (connection_acts c).bind fun _ => Acts.pure fun _ => And.left
  | counters c => exact (connection_acts c).bind fun _ => Alike.keeps fun s hs => hs.1
  | parallel c text n =>
    refine (connection_acts c).bind fun p => Acts.at_kept fun K _ hp => ?_
    exact (onPool_use hp (parallel_trades text n) (one_ne_zero _) (hE p)).bind fun _ => done_kept

/-- What the pool counts, what the tables count, and the stages of all handles that there ever were.
-/
structure Conserved (p : Pool .tables) (c : QueryLease.Tables.Counters) : Prop where
  released : p.stats.released = p.stats.disposed + p.stats.pending + p.inStage .closing
  created : p.handles.size = p.stats.released + p.inStage .opened
  executed : c.executions = p.handles.size
  disposed : c.disposals = p.stats.disposed
  live : c.live + c.disposals = c.executions
  outstanding : c.live = p.inStage .opened + p.inStage .closing + p.stats.pending
  unviolated : c.violations = 0
  inline : p.mode = .inline → p.stats.pending = 0

def Balanced (s : Session .tables) : Prop :=
  ∃ pool, s.pools = #[pool] ∧ Conserved pool s.engine.counters

theorem conserved_of_counted {pool : Pool .tables} {reads : Nat → Nat}
    {engine : QueryLease.Tables.State} (L : Leased reads [] pool)
    (c : Counted (pool.assets : Multiset (Asset .tables B)) engine) :
    Conserved pool engine.counters := by
  obtain ⟨executions, disposals, live, violations, -⟩ := c
  rw [buffers_assets L] at executions live
  rw [receipts_assets] at executions disposals
  obtain ⟨-, released, all⟩ := L.sum_stages
  have closed := L.closed_eq
  refine ⟨?_, ?_, ?_, disposals, ?_, live, violations, fun hm => ?_⟩
  · show pool.released = pool.disposed + pool.queue.length + _
    omega
  · show pool.handles.size = pool.released + _
    omega
  · omega
  · omega
  · show pool.queue.length = 0
    rw [L.inline hm, List.length_nil]

theorem balanced_of_holds {E : Holding .tables} {s : Session .tables} (hs : Holds upkeep E s) :
    Balanced s := by
  obtain ⟨pool, hp⟩ := Array.size_eq_one_iff.1 hs.held.pools
  have sound := hs.held.sound 0 pool (by rw [hp]; rfl)
  have none : (held s.kept + E).2 = 0 := Multiset.eq_zero_of_forall_notMem fun b => nomatch b
  have assets : s.assets (held s.kept + E) = pool.assets := by
    rw [assets, none, Multiset.map_zero, add_zero, hp]
    exact List.sum_singleton
  exact ⟨pool, hp, conserved_of_counted sound.leased (assets ▸ hs.held.good)⟩

theorem counters_opened (mode : Mode) (tables : List (String × QueryLease.Tables.Bound)) :
    (opened mode tables).engine.counters = {} := by
  have (s : QueryLease.Tables.State) :
      (tables.foldl (fun s e => s.register e.1 e.2) s).counters = s.counters := by
    induction tables generalizing s with
    | nil => rfl
    | cons e tables ih => exact ih _
  exact this {}

theorem holds_opened (mode : Mode) (tables : List (String × QueryLease.Tables.Bound))
    (prompt : Bool) : Holds upkeep 0 { opened mode tables with prompt } := by
  have linking : Linking upkeep () 0
      ({ engine := (opened mode tables).engine, prompt } : Session .tables) := by
    exact ⟨fun p pool hp => absurd hp (by simp), fun p _ => rfl, rfl,
      (Counted.link_iff _).2 (Counted.none (counters_opened mode tables))⟩
  refine ⟨?_, List.pairwise_singleton ..⟩
  have pushed := linking.push mode
  rw [zero_add] at pushed
  show Held upkeep (inPool 0 (one .connection) + 0 + 0) { opened mode tables with prompt }
  rw [add_zero, add_zero]
  exact pushed.of_kept

theorem conserved (mode : Mode) (tables : List (String × QueryLease.Tables.Bound))
    (prompt stop : Bool) (steps : List (Step (Attended Move))) :
    let act := Attended.perform Move.perform
    let start : Session .tables := { opened mode tables with prompt }
    Always act Balanced start ∧
      let s := ((performAll act stop steps).run start).2
      Balanced s ∧ Balanced (dropAll.run s).2 := by
  have neutral := Attended.perform_neutral Move.perform_neutral
  have start := holds_opened mode tables prompt
  have after := (performAll_neutral neutral stop steps 0 Backed.zero).post start
  have last := (dropAll_keeps Backed.zero).post after
  exact ⟨always_of_holds neutral (fun _ _ _ => balanced_of_holds) start,
    balanced_of_holds after, balanced_of_holds last.1⟩

end Session.Tables

end QueryLease

import QueryLease.Proofs.Pool.Reaper
import QueryLease.Proofs.Pool.Standing

namespace QueryLease

open Pool

namespace Pool

variable {S : Source}

def disposeAll (link : S.Link) (queue : List (Nat × S.Buffer)) (s : S.State) : S.State :=
  queue.foldl (fun s e => S.dispose link e.2 s) s

structure Disposed (queue : List (Nat × S.Buffer)) (d d' : Desk S) : Prop where
  calls : disposals d'.pool.calls = (queue.map Prod.fst).reverse ++ disposals d.pool.calls
  engine : d'.engine = disposeAll d.pool.link queue d.engine
  handles : d'.pool.handles = d.pool.handles
  waiting : d'.pool.queue = d.pool.queue
  owners : d'.pool.owners = d.pool.owners
  mode : d'.pool.mode = d.pool.mode
  link : d'.pool.link = d.pool.link

theorem disposed_forM (queue : List (Nat × S.Buffer)) (d : Desk S) :
    Disposed queue d ((queue.forM fun e => disposeNow e.1 e.2).run d).2 := by
  induction queue generalizing d with
  | nil => exact ⟨rfl, rfl, rfl, rfl, rfl, rfl, rfl⟩
  | cons e queue ih =>
    have rest := ih ((disposeNow e.1 e.2).run d).2
    refine ⟨rest.calls.trans ?_, rest.engine, rest.handles, rest.waiting, rest.owners, rest.mode,
      rest.link⟩
    rw [List.map_cons, List.reverse_cons, List.append_assoc]
    rfl

theorem collect_disposes (d : Desk S) :
    (collect.run d).1 = d.pool.queue.length ∧
      Disposed d.pool.queue { d with pool.queue := [] } (collect.run d).2 := by
  refine ⟨rfl, ?_⟩
  rw [collect_run]
  exact disposed_forM _ _

structure Adds (new : List (Nat × S.Buffer)) (d d' : Desk S) : Prop where
  queue : d'.pool.queue = d.pool.queue ++ new
  few : new.length ≤ 1
  entries : ∀ e ∈ new, d'.pool.handles[e.1]?.map (·.buffer) = some e.2
  calls : disposals d'.pool.calls = disposals d.pool.calls
  owners : d'.pool.owners = d.pool.owners
  mode : d'.pool.mode = d.pool.mode
  link : d'.pool.link = d.pool.link

variable {new more : List (Nat × S.Buffer)} {d d' e : Desk S} {h n : Nat} {x : Handle S}

theorem Adds.none (queue : d'.pool.queue = d.pool.queue)
    (calls : disposals d'.pool.calls = disposals d.pool.calls)
    (owners : d'.pool.owners = d.pool.owners) (mode : d'.pool.mode = d.pool.mode)
    (link : d'.pool.link = d.pool.link) : Adds [] d d' :=
  ⟨by rw [queue, List.append_nil], Nat.zero_le 1, by simp, calls, owners, mode, link⟩

theorem Adds.refl (d : Desk S) : Adds [] d d := .none rfl rfl rfl rfl rfl

theorem adds_handOver (hx : d.pool.handles[h]? = some x) (later : d.pool.mode ≠ .inline) (k : Nat) :
    let d' := ((handOver h x.buffer).run { d with pool := d.pool.reword h .shut k }).2
    Adds [(h, x.buffer)] d d' ∧ d'.engine = d.engine := by
  intro d'
  let closed : Desk S := { d with pool := d.pool.reword h .shut k }
  have hy : closed.pool.handles[h]? = some { x with word := .shut } := getElem?_reword d.pool k hx
  have added : d' = { closed with pool.queue := d.pool.queue ++ [(h, x.buffer)] } :=
    congrArg Prod.snd (handOver_later (d := closed) x.buffer later)
  rw [added]
  exact ⟨⟨rfl, le_rfl, by simp [hy], rfl, rfl, rfl, rfl⟩, rfl⟩

theorem adds_endRead (hx : d.pool.handles[h]? = some x) (counts : x.word.Counts (n + 1))
    (later : d.pool.mode ≠ .inline) : ∃ new, Adds new d ((endRead h).run d).2 := by
  rcases counts.endRead with ⟨v, hw, -, -, -⟩ | ⟨v, hw, hv, -, -⟩
  · rw [endRead_run (word_eq hx ▸ hw)]
    exact ⟨[], .none rfl rfl rfl rfl rfl⟩
  · rw [endRead_run_last hx hw hv]
    exact ⟨_, (adds_handOver hx later 0).1⟩

theorem adds_requestRelease (hx : d.pool.handles[h]? = some x) (counts : x.word.Counts n)
    (later : d.pool.mode ≠ .inline) :
    ∃ new, Adds new d ((requestRelease h).run d).2 ∧
      ((requestRelease h).run d).2.engine = d.engine := by
  cases hr : x.word.requested with
  | true =>
    rw [requestRelease_run_again hx (counts.request_again hr)]
    exact ⟨[], .refl d, rfl⟩
  | false =>
    obtain ⟨v, hw, -, closing, -⟩ := counts.request_first hr
    by_cases h0 : n = 0
    · subst h0
      rw [requestRelease_run_freed hx hw (closing rfl)]
      exact ⟨_, adds_handOver hx later 1⟩
    · rw [requestRelease_run_deferred hx hw h0]
      exact ⟨[], .none rfl rfl rfl rfl rfl, rfl⟩

/-- Some buffers have joined the queue, and what waits goes on waiting, or the last owner of the
pool is gone and all that waited is disposed of before the link is closed. -/
inductive Queued (new : List (Nat × S.Buffer)) (d d' : Desk S) : Prop
  | waits (queue : d'.pool.queue = d.pool.queue ++ new)
      (calls : disposals d'.pool.calls = disposals d.pool.calls)
      (alive : d'.pool.owners ≠ 0 → d.pool.owners ≠ 0)
  | ends (gone : d'.pool.owners = 0) (alive : d.pool.owners ≠ 0) (queue : d'.pool.queue = [])
      (calls : disposals d'.pool.calls =
        ((d.pool.queue ++ new).map Prod.fst).reverse ++ disposals d.pool.calls)
      (engine : d'.engine =
        S.close d.pool.link (disposeAll d.pool.link (d.pool.queue ++ new) d.engine))

structure Closes (new : List (Nat × S.Buffer)) (d d' : Desk S) : Prop where
  few : new.length ≤ 1
  entries : ∀ e ∈ new, d'.pool.handles[e.1]?.map (·.buffer) = some e.2
  mode : d'.pool.mode = d.pool.mode
  queued : Queued new d d'

theorem Adds.closes (a : Adds new d d') : Closes new d d' :=
  ⟨a.few, a.entries, a.mode, .waits a.queue a.calls (a.owners ▸ id)⟩

theorem Closes.none (queue : d'.pool.queue = d.pool.queue)
    (calls : disposals d'.pool.calls = disposals d.pool.calls) (mode : d'.pool.mode = d.pool.mode)
    (alive : d'.pool.owners ≠ 0 → d.pool.owners ≠ 0) : Closes [] d d' :=
  ⟨Nat.zero_le 1, by simp, mode, .waits (by rw [queue, List.append_nil]) calls alive⟩

theorem Adds.leave (a : Adds new d e) (engine : e.engine = d.engine) (alive : d.pool.owners ≠ 0) :
    Closes new d (leave.run e).2 := by
  rw [leave_run]
  split_ifs with last
  · let left : Desk S := { e with pool.owners := e.pool.owners - 1 }
    obtain ⟨-, done⟩ := collect_disposes left
    refine ⟨a.few, ?_, done.mode.trans a.mode, .ends ?_ alive done.waiting ?_ ?_⟩
    · intro entry mem
      rw [← a.entries entry mem]
      exact congrArg (fun hs : Array (Handle S) => hs[entry.1]?.map (·.buffer)) done.handles
    · exact done.owners.trans last
    · rw [← a.queue, ← a.calls]
      exact done.calls
    · rw [← a.queue, ← engine, ← a.link]
      show S.close (collect.run left).2.pool.link (collect.run left).2.engine = _
      rw [done.link, done.engine]
  · exact ⟨a.few, a.entries, a.mode, .waits a.queue a.calls fun _ => alive⟩

theorem closes_drop (hx : d.pool.handles[h]? = some x) (counts : x.word.Counts n)
    (later : d.pool.mode ≠ .inline) (alive : d.pool.owners ≠ 0) :
    ∃ new, Closes new d ((drop h).run d).2 := by
  let less : Desk S :=
    { d with pool := d.pool.update h fun x => { x with owners := x.owners - 1 } }
  have hy : less.pool.handles[h]? = some { x with owners := x.owners - 1 } := by
    show (d.pool.update h _).handles[h]? = _
    rw [getElem?_update, if_pos rfl, hx]
    rfl
  obtain ⟨new, adds, engine⟩ := adds_requestRelease hy counts later
  have asked : Adds new d ((requestRelease h).run less).2 :=
    ⟨adds.queue, adds.few, adds.entries, adds.calls, adds.owners, adds.mode, adds.link⟩
  rw [drop_run]
  split_ifs
  · exact ⟨[], .none rfl rfl rfl id⟩
  · exact ⟨new, asked.leave engine alive⟩

end Pool

namespace Deed

variable {S : Source} {d : Desk S} {G : Stake} {deed : Deed S}

theorem alive_of_possible (s : d.pool.Sound G) (possible : deed.possible d.pool = true)
    (reap : ∀ n, deed ≠ .reap n) (elsewhere : ∀ change, deed ≠ .source change) :
    d.pool.owners ≠ 0 := by
  have owner {h : Nat} (owned : d.pool.owned h = true) : d.pool.owners ≠ 0 :=
    s.owners_ne_zero (.inr ⟨h, s.holders_eq h ▸ owned_iff.1 owned⟩)
  have reading {h : Nat} (reads : ((d.pool.word h).reads != 0) = true) : d.pool.owners ≠ 0 := by
    rw [s.reads_eq] at reads
    exact s.owners_ne_zero (.inr ⟨h, fun none => bne_iff_ne.1 reads (s.backed h none)⟩)
  have connected (some : (d.pool.connections != 0) = true) : d.pool.owners ≠ 0 :=
    s.owners_ne_zero (.inl (s.connections_eq ▸ bne_iff_ne.1 some))
  cases deed with
  | acquire | requestRelease | claimCursor | retain => exact owner possible
  | endRead | fetch | read => exact reading possible
  | drop => exact owner (Bool.and_eq_true_iff.1 possible).1
  | query | join | leave | releaseAll => exact connected possible
  | reap n => exact absurd rfl (reap n)
  | source change => exact absurd rfl (elsewhere change)

theorem closes (s : d.pool.Sound G) (later : d.pool.mode ≠ .inline)
    (possible : deed.possible d.pool = true) (reap : ∀ n, deed ≠ .reap n)
    (all : deed ≠ .releaseAll) : ∃ new, Closes new d (deed.perform.run d).2 := by
  have owned {k : Nat} (hk : d.pool.owned k = true) : ∃ x, d.pool.handles[k]? = some x ∧
      x.word.Counts (d.pool.word k).reads := by
    have h0 := owned_iff.1 hk
    rw [s.holders_eq] at h0
    obtain ⟨x, hx, -⟩ := s.exists_handle h0
    exact ⟨x, hx, s.reads_eq k ▸ s.leased.counts k x hx⟩
  -- Only an end of a read, a request and a drop can close a lease.
  cases deed with
  | acquire k =>
    refine ⟨[], ?_⟩
    show Closes [] d ((Pool.acquire k).run d).2
    cases hw : (d.pool.word k).acquire with
    | error refusal => rw [acquire_run_error hw]; exact (Adds.refl d).closes
    | ok v => rw [acquire_run_ok hw]; exact .none rfl rfl rfl id
  | endRead k =>
    have reads : G (.read k) ≠ 0 := s.reads_eq k ▸ bne_iff_ne.1 possible
    obtain ⟨n, hn⟩ := Nat.exists_eq_succ_of_ne_zero reads
    obtain ⟨x, hx, -⟩ := s.exists_handle fun none => reads (s.backed k none)
    exact (adds_endRead hx (hn ▸ s.leased.counts k x hx) later).imp fun _ => Adds.closes
  | fetch k =>
    refine ⟨[], ?_⟩
    show Closes [] d ((Pool.fetch k).run d).2
    cases hx : d.pool.handles[k]? with
    | none => rw [fetch_run_none hx]; exact (Adds.refl d).closes
    | some x => rw [fetch_run_some hx]; exact .none rfl rfl rfl id
  | read k row column =>
    refine ⟨[], ?_⟩
    show Closes [] d ((readCell k row column).run d).2
    cases hx : d.pool.handles[k]? with
    | none =>
      simp only [readCell, handle?, StateT.run_bind, StateT.run_get, pure_bind, hx]
      exact .none rfl rfl rfl id
    | some x =>
      simp only [readCell, handle?, StateT.run_bind, StateT.run_get, pure_bind, hx]
      exact .none rfl rfl rfl id
  | query text =>
    have alive := alive_of_possible s possible reap (by simp)
    refine ⟨[], ?_⟩
    show Closes [] d ((Pool.query text).run d).2
    rcases query_run text d with same | ⟨b, columns, made⟩
    · exact .none (by rw [same]) (by rw [same]) (by rw [same]) fun _ => alive
    · rw [enrol_eq] at made
      exact .none (by rw [made]) (by rw [made]) (by rw [made]) fun _ => alive
  | requestRelease k =>
    obtain ⟨x, hx, counts⟩ := owned possible
    exact (adds_requestRelease hx counts later).imp fun _ h => h.1.closes
  | claimCursor k =>
    refine ⟨[], ?_⟩
    show Closes [] d ((Pool.claimCursor k).run d).2
    cases hx : d.pool.handles[k]? with
    | none =>
      simp only [Pool.claimCursor, handle?, StateT.run_bind, StateT.run_get, pure_bind, hx]
      exact .none rfl rfl rfl id
    | some x =>
      simp only [Pool.claimCursor, handle?, StateT.run_bind, StateT.run_get, pure_bind, hx]
      exact .none rfl rfl rfl id
  | retain k => exact ⟨[], .none rfl rfl rfl id⟩
  | drop k =>
    obtain ⟨x, hx, counts⟩ := owned (Bool.and_eq_true_iff.1 possible).1
    exact closes_drop hx counts later (alive_of_possible s possible reap (by simp))
  | join => exact ⟨[], .none rfl rfl rfl fun _ => alive_of_possible s possible reap (by simp)⟩
  | leave =>
    exact ⟨[], (Adds.refl d).leave rfl (alive_of_possible s possible reap (by simp))⟩
  | releaseAll => exact absurd rfl all
  | reap n => exact absurd rfl (reap n)
  | source change => exact ⟨[], .none rfl rfl rfl id⟩

end Deed

namespace Pool

variable {S : Source} {p q : Pool S} {G G' : Stake} {d d' : Desk S} {h : Nat}
  {new : List (Nat × S.Buffer)}

def hasClosed (p : Pool S) (h : Nat) : Bool := p.handles[h]?.any (·.word.stage = .closed)

/-- The handles whose leases have closed between the two, with their buffers. -/
def closing (p q : Pool S) : List (Nat × S.Buffer) :=
  ((List.range q.handles.size).filter fun h => q.hasClosed h && !p.hasClosed h).filterMap fun h =>
    q.handles[h]?.map fun x => (h, x.buffer)

theorem Sound.count_gone (s : p.Sound G) (h : Nat) :
    (p.gone []).count h = (p.hasClosed h).toNat := by
  rw [s.leased.gone_once h, hasClosed]
  cases hx : p.handles[h]? with
  | none => rfl
  | some x =>
    rw [Option.elim_some, Option.any_some, Lease.Word.shutCount]
    simp only [(s.leased.counts h x hx).closed_iff_shut]
    split_ifs with shut
    · rw [decide_eq_true shut]
      rfl
    · rw [decide_eq_false shut]
      rfl

theorem Queued.count_gone (queued : Queued new d d') (h : Nat) :
    (d'.pool.gone []).count h = (d.pool.gone []).count h + (new.map Prod.fst).count h := by
  cases queued with
  | waits queue calls alive =>
    simp only [gone, queue, calls, List.nil_append, List.map_append, List.count_append]
    omega
  | ends gone alive queue calls engine =>
    simp only [Pool.gone, queue, calls, List.nil_append, List.map_append, List.count_append,
      List.map_nil, List.reverse_append, List.count_reverse]
    omega

theorem and_not_of_add {a b : Bool} {n : Nat} (h : b.toNat = a.toNat + n) :
    (b && !a) = decide (0 < n) := by
  cases a <;> cases b <;> simp at h ⊢ <;> omega

theorem Closes.closing_eq (closes : Closes new d d') (s : d.pool.Sound G)
    (s' : d'.pool.Sound G') : closing d.pool d'.pool = new := by
  have newly (h : Nat) : (d'.pool.hasClosed h && !d.pool.hasClosed h) =
      decide (0 < (new.map Prod.fst).count h) :=
    and_not_of_add (by rw [← s.count_gone, ← s'.count_gone, closes.queued.count_gone])
  unfold closing
  simp only [newly]
  obtain ⟨few, entries, -, -⟩ := closes
  cases new with
  | nil => simp
  | cons e more =>
    obtain rfl := List.length_eq_zero_iff.1 (Nat.le_zero.1 (Nat.le_of_succ_le_succ few))
    obtain ⟨x, hx, hb⟩ := Option.map_eq_some_iff.1 (entries e (List.mem_singleton.2 rfl))
    have there : e.1 < d'.pool.handles.size := (Array.getElem?_eq_some_iff.1 hx).1
    have single : (List.range d'.pool.handles.size).filter (· == e.1) = [e.1] := by
      rw [List.filter_beq, List.count_eq_one_of_mem List.nodup_range (List.mem_range.2 there)]
      rfl
    have pred : (fun h => decide (0 < ([e].map Prod.fst).count h)) = (· == e.1) := by
      funext h
      by_cases eq : h = e.1 <;> simp [eq, Ne.symm]
    rw [pred, single, List.filterMap_cons, hx, Option.map_some, hb]
    rfl

end Pool

end QueryLease

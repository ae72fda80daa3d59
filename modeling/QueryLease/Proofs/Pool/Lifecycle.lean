import QueryLease.Proofs.Lease.Uses
import QueryLease.Proofs.Pool.DeskRuns
import QueryLease.Proofs.Pool.Leasing

namespace QueryLease

namespace Lease.Word

theorem acquire_closing {w : Word} (closing : w.stage = .closing) :
    w.acquire = .error .closing := by
  unfold stage at closing
  unfold acquire
  split_ifs at closing ⊢
  rfl

theorem acquire_closed {w : Word} (closed : w.stage = .closed) : w.acquire = .error .released := by
  unfold stage at closed
  unfold acquire
  split_ifs at closed ⊢
  rfl

theorem acquire_room {w : Word} (opened : w.stage = .opened) (room : w.full = false) :
    ∃ v, w.acquire = .ok v := by
  unfold stage at opened
  unfold acquire
  split_ifs at opened ⊢ with closed requested full
  · exact absurd (room.symm.trans full) nofun
  · exact ⟨_, rfl⟩

/-- The word of this lease, outside of any operation on it. -/
structure Tracks (w : Word) (l : Lease) : Prop where
  counts : w.Counts l.reads
  requested : w.requested = l.requested

namespace Tracks

variable {w : Word} {l : Lease}

theorem eq_pack (t : w.Tracks l) : w = pack l.requested (l.stage = .closed) l.reads := by
  obtain ⟨requested, reads⟩ := l
  obtain ⟨counts, hr⟩ := t
  rcases counts with ⟨rfl, hn⟩ | ⟨rfl, hn, h0⟩ | ⟨rfl, h0⟩
  · rw [requested_pack hn] at hr
    subst hr
    rfl
  · rw [requested_pack hn] at hr
    subst hr
    simp only [stage_eq_closed] at h0 ⊢
    simp [h0]
  · subst hr
    simp only at h0
    subst h0
    rfl

theorem fresh : Word.fresh.Tracks {} := ⟨.inl ⟨rfl, by decide⟩, rfl⟩

theorem small (t : w.Tracks l) : l.reads < limit := t.counts.lt_limit

theorem bits (t : w.Tracks l) : w.bits.toNat =
    l.reads + (if l.stage = .closed then 2 ^ 62 else 0) + if l.requested then 2 ^ 63 else 0 := by
  rw [t.eq_pack, toNat_pack t.small]
  simp only [decide_eq_true_eq]

theorem reads (t : w.Tracks l) : w.reads = l.reads := t.counts.reads_eq

theorem stage (t : w.Tracks l) : w.stage = l.stage := by
  rw [t.eq_pack, stage_pack t.small, Lease.stage]
  cases l.requested with
  | false => rfl
  | true => by_cases h0 : l.reads = 0 <;> simp [h0]

theorem acquire (t : w.Tracks l) (allowed : Use.acquire.Allowed l) :
    (∃ v, w.acquire = .ok v ∧ l.requested = false ∧ v.Tracks { l with reads := l.reads + 1 }) ∨
      (w.acquire = .error (if l.reads = 0 then .released else .closing) ∧ l.requested = true) := by
  have hl := t.small
  cases requested : l.requested with
  | false =>
    have hw : w = pack false false l.reads := by
      have := t.eq_pack
      rwa [decide_eq_false (ne_closed requested), requested] at this
    have room : l.reads + 1 < limit := by
      have := allowed (stage_eq_opened.2 requested)
      unfold limit at hl ⊢
      omega
    exact .inl ⟨_, hw ▸ acquire_pack_opened room, rfl, .inl ⟨rfl, room⟩, requested_pack room⟩
  | true =>
    refine .inr ⟨?_, rfl⟩
    rw [t.eq_pack, requested, acquire_pack_requested hl]
    by_cases h0 : l.reads = 0 <;> simp [stage_eq_closed, requested, h0]

end Tracks

end Lease.Word

namespace Pool

open Lease (Use)

variable {S : Source} {d : Desk S} {h k : Nat} {x : Handle S} {w v : Lease.Word}

theorem acquire_run_ok (hw : (d.pool.word h).acquire = .ok w) :
    (acquire h).run d = (.ok (), { d with pool := d.pool.reword h w 0 }) := by
  simp only [acquire, StateT.run_bind, StateT.run_get, pure_bind, hw]
  rfl

theorem acquire_run_error {refusal : Lease.Refusal}
    (hw : (d.pool.word h).acquire = .error refusal) :
    (acquire h).run d = (.error refusal.error, d) := by
  simp only [acquire, StateT.run_bind, StateT.run_get, pure_bind, hw]
  rfl

theorem endRead_run (hw : (d.pool.word h).endRead = (false, w)) :
    (endRead h).run d = ((), { d with pool := d.pool.reword h w 0 }) := by
  simp only [endRead, StateT.run_bind, StateT.run_get, pure_bind, hw]
  rfl

theorem endRead_run_last (hx : d.pool.handles[h]? = some x) (hw : x.word.endRead = (true, v))
    (hv : v.finish? = some .shut) : (endRead h).run d =
      (handOver h x.buffer).run { d with pool := d.pool.reword h .shut 0 } := by
  rw [← finish_run hx hv]
  simp only [endRead, StateT.run_bind, StateT.run_get, pure_bind, word_eq hx, hw]
  rfl

theorem requestRelease_run_again (hx : d.pool.handles[h]? = some x)
    (hw : x.word.request = (none, x.word)) :
    (requestRelease h).run d = (.alreadyRequested, d) := by
  have same : d.pool.update h (fun y => { y with word := x.word }) = d.pool :=
    update_eq_self fun y hy => by
      obtain rfl := Option.some.inj (hx.symm.trans hy)
      rfl
  simp only [requestRelease, StateT.run_bind, StateT.run_get, pure_bind, word_eq hx, hw]
  show (Lease.Release.alreadyRequested, { d with pool := d.pool.update h _ }) = _
  rw [same]

theorem requestRelease_run_deferred {n : Nat} (hx : d.pool.handles[h]? = some x)
    (hw : x.word.request = (some n, w)) (hn : n ≠ 0) :
    (requestRelease h).run d = (.deferred n, { d with pool := d.pool.reword h w 1 }) := by
  simp only [requestRelease, StateT.run_bind, StateT.run_get, pure_bind, word_eq hx, hw, if_neg hn]
  rfl

theorem requestRelease_run_freed (hx : d.pool.handles[h]? = some x)
    (hw : x.word.request = (some 0, v)) (hv : v.finish? = some .shut) : (requestRelease h).run d =
      (.freed, ((handOver h x.buffer).run { d with pool := d.pool.reword h .shut 1 }).2) := by
  rw [← finish_run hx hv]
  simp only [requestRelease, StateT.run_bind, StateT.run_get, pure_bind, word_eq hx, hw]
  rfl

theorem fetch_run_none (hx : d.pool.handles[h]? = none) : (fetch h).run d = (.ok none, d) := by
  simp only [fetch, handle?, StateT.run_bind, StateT.run_get, pure_bind, hx]
  rfl

theorem fetch_run_some (hx : d.pool.handles[h]? = some x) : (fetch h).run d =
    let found := S.fetch d.pool.link x.buffer d.engine
    (found.1, ⟨(d.pool.note (.fetch h x.word)).update h fun y => { y with buffer := found.2.1 },
      found.2.2⟩) := by
  simp only [fetch, handle?, StateT.run_bind, StateT.run_get, pure_bind, hx]
  rfl

theorem handOver_gone (d : Desk S) (h : Nat) (b : S.Buffer) (k : Nat) :
    let e := ((handOver h b).run d).2
    e.pool.handles = d.pool.handles ∧ e.pool.released = d.pool.released ∧
      (e.pool.gone []).count k = (d.pool.gone []).count k + if h = k then 1 else 0 := by
  by_cases hm : d.pool.mode = .inline
  · rw [handOver_inline b hm]
    refine ⟨rfl, rfl, ?_⟩
    show (((d.pool.queue.map Prod.fst) ++ h :: disposals d.pool.calls)).count k = _
    rw [List.count_append, List.count_cons, gone, List.nil_append, List.count_append,
      ← Nat.add_assoc]
    simp
  · rw [handOver_later b hm]
    refine ⟨rfl, rfl, ?_⟩
    show (((d.pool.queue ++ [(h, b)]).map Prod.fst) ++ disposals d.pool.calls).count k = _
    simp only [gone, List.map_append, List.count_append, List.map_cons, List.map_nil,
      List.count_singleton, List.nil_append]
    simp
    omega

/-- The handle is at this lease. Since the pool was `q`, its request has been counted once, and its
buffer handed over once, or neither has happened yet. -/
structure At (h : Nat) (q : Pool S) (l : Lease) (p : Pool S) : Prop where
  tracks : ∃ x, p.handles[h]? = some x ∧ x.word.Tracks l
  released : p.released = q.released + l.requested.toNat
  handed : (p.gone []).count h = (q.gone []).count h + if l.stage = .closed then 1 else 0

def use (h : Nat) : Use → PoolM S Unit
  | .acquire => discard (acquire h)
  | .endRead => endRead h
  | .request => discard (requestRelease h)

def used (h : Nat) (d : Desk S) (uses : List Use) : Desk S :=
  uses.foldl (fun d u => ((use h u).run d).2) d

variable {q : Pool S} {l : Lease}

namespace At

theorem word (a : At h q l d.pool) : (d.pool.word h).Tracks l := by
  obtain ⟨x, hx, t⟩ := a.tracks
  rwa [word_eq hx]

theorem reword {l' : Lease} {n : Nat} (a : At h q l d.pool) (t : w.Tracks l')
    (opened : l.stage ≠ .closed) (opened' : l'.stage ≠ .closed)
    (hn : l'.requested.toNat = l.requested.toNat + n) : At h q l' (d.pool.reword h w n) where
  tracks := by
    obtain ⟨x, hx, -⟩ := a.tracks
    exact ⟨_, getElem?_reword d.pool n hx, t⟩
  released := by
    rw [hn, ← Nat.add_assoc, ← a.released]
    rfl
  handed := by
    have handed := a.handed
    rw [if_neg opened] at handed
    rw [if_neg opened']
    exact handed

theorem close {l' : Lease} {n : Nat} (a : At h q l d.pool) (b : S.Buffer)
    (opened : l.stage ≠ .closed) (closed : l'.stage = .closed)
    (hn : l'.requested.toNat = l.requested.toNat + n) :
    At h q l' ((handOver h b).run { d with pool := d.pool.reword h .shut n }).2.pool := by
  obtain ⟨x, hx, -⟩ := a.tracks
  obtain ⟨handles, released, gone⟩ := handOver_gone { d with pool := d.pool.reword h .shut n } h b h
  obtain ⟨requested, reads⟩ := Lease.stage_eq_closed.1 closed
  have shut : Lease.Word.shut.Tracks l' :=
    ⟨.inr (.inr ⟨rfl, reads⟩), Lease.Word.requested_shut.trans requested.symm⟩
  refine ⟨⟨{ x with word := .shut }, handles ▸ getElem?_reword d.pool n hx, shut⟩, ?_, ?_⟩
  · rw [released, hn, ← Nat.add_assoc, ← a.released]
    rfl
  · have handed := a.handed
    rw [if_neg opened] at handed
    rw [if_pos closed, gone, if_pos rfl]
    exact congrArg (· + 1) handed

theorem acquire_run (a : At h q l d.pool) (allowed : Use.acquire.Allowed l) :
    ((acquire h).run d).1 = (l.acquire.map fun _ => ()).mapError Lease.Refusal.error ∧
      At h q (Use.acquire.apply l) ((acquire h).run d).2.pool := by
  rw [Lease.apply_acquire]
  rcases a.word.acquire allowed with ⟨v, hv, requested, t⟩ | ⟨hv, requested⟩
  · rw [acquire_run_ok hv, Lease.acquire_opened requested, if_neg (by simp [requested])]
    exact ⟨rfl, a.reword t (Lease.ne_closed requested) (Lease.ne_closed requested) rfl⟩
  · rw [acquire_run_error hv, Lease.acquire_requested requested, if_pos requested]
    exact ⟨rfl, a⟩

theorem endRead_run (a : At h q l d.pool) (allowed : Use.endRead.Allowed l) :
    At h q l.endRead ((endRead h).run d).2.pool := by
  have opened : l.stage ≠ .closed := fun closed => allowed (Lease.stage_eq_closed.1 closed).2
  obtain ⟨x, hx, counts, requested⟩ := a.tracks
  obtain ⟨n, hn⟩ := Nat.exists_eq_succ_of_ne_zero allowed
  have reads : l.endRead.reads = n := congrArg (· - 1) hn
  rw [hn] at counts
  rcases counts.endRead with ⟨v, he, hv, hr, hc⟩ | ⟨v, he, hv, hr, h0⟩
  · rw [Pool.endRead_run (word_eq hx ▸ he)]
    have t : v.Tracks l.endRead := ⟨reads ▸ hc, hr.trans requested⟩
    refine a.reword t opened (fun closed => hv ?_) rfl
    rw [t.eq_pack, closed, (Lease.stage_eq_closed.1 closed).1, (Lease.stage_eq_closed.1 closed).2]
    rfl
  · rw [endRead_run_last hx he hv]
    exact a.close x.buffer opened
      (Lease.stage_eq_closed.2 ⟨requested.symm.trans hr, reads.trans h0⟩) rfl

theorem requestRelease_run (a : At h q l d.pool) :
    ((requestRelease h).run d).1 = l.request.1 ∧
      At h q (Use.request.apply l) ((requestRelease h).run d).2.pool := by
  rw [Lease.apply_request]
  obtain ⟨x, hx, counts, requested⟩ := a.tracks
  cases hr : l.requested with
  | true =>
    rw [requestRelease_run_again hx (counts.request_again (requested.trans hr))]
    refine ⟨by rw [Lease.request, if_pos hr], ?_⟩
    rwa [← hr]
  | false =>
    have opened := Lease.ne_closed hr
    obtain ⟨v, he, -, closing, deferred⟩ := counts.request_first (requested.trans hr)
    by_cases h0 : l.reads = 0
    · rw [h0] at he
      rw [requestRelease_run_freed hx he (closing h0)]
      refine ⟨by rw [Lease.request, if_neg (by simp [hr]), if_pos h0], ?_⟩
      exact a.close x.buffer opened (Lease.stage_eq_closed.2 ⟨rfl, h0⟩) (by rw [hr]; rfl)
    · obtain ⟨-, hv, hc⟩ := deferred h0
      rw [requestRelease_run_deferred hx he h0]
      refine ⟨by rw [Lease.request, if_neg (by simp [hr]), if_neg h0], ?_⟩
      have t : v.Tracks { l with requested := true } := ⟨hc, hv⟩
      exact a.reword t opened (fun closed => h0 (Lease.stage_eq_closed.1 closed).2)
        (by rw [hr]; rfl)

theorem use (a : At h q l d.pool) {u : Use} (allowed : u.Allowed l) :
    At h q (u.apply l) ((Pool.use h u).run d).2.pool := by
  cases u with
  | acquire => exact (a.acquire_run allowed).2
  | endRead => exact a.endRead_run allowed
  | request => exact a.requestRelease_run.2

theorem used (a : At h q l d.pool) {uses : List Use} (allowed : l.Allowed uses) :
    At h q (l.after uses) (Pool.used h d uses).pool := by
  induction uses generalizing d l with
  | nil => exact a
  | cons u uses ih => exact ih (a.use allowed.1) allowed.2

theorem acquire_answers (a : At h q l d.pool) (allowed : Use.acquire.Allowed l) :
    (((acquire h).run d).1 = .ok () ↔ l.requested = false) ∧
      (((acquire h).run d).1 = .error .closing ↔ l.requested = true ∧ 0 < l.reads) ∧
      (((acquire h).run d).1 = .error .released ↔ l.requested = true ∧ l.reads = 0) := by
  rw [(a.acquire_run allowed).1]
  cases requested : l.requested with
  | false =>
    rw [Lease.acquire_opened requested]
    simp [Except.map, Except.mapError]
  | true =>
    rw [Lease.acquire_requested requested]
    by_cases h0 : l.reads = 0 <;>
      simp [Except.map, Except.mapError, Lease.Refusal.error, h0, Nat.pos_iff_ne_zero]

theorem requestRelease_answers (a : At h q l d.pool) :
    (((requestRelease h).run d).1 = .freed ↔ l.requested = false ∧ l.reads = 0) ∧
      (∀ n, ((requestRelease h).run d).1 = .deferred n ↔
        l.requested = false ∧ 0 < l.reads ∧ n = l.reads) ∧
      (((requestRelease h).run d).1 = .alreadyRequested ↔ l.requested = true) := by
  rw [a.requestRelease_run.1, Lease.request]
  cases l.requested with
  | true => simp
  | false => by_cases h0 : l.reads = 0 <;> simp [h0, Nat.pos_iff_ne_zero, eq_comm]

end At

/-- For a handle that starts fresh, the word is the lease after each use: two flags above a count
that stays below them. Reads and requests answer by the lease alone, the stage never goes back, and
the buffer is handed over once, when the lease closes. -/
theorem word_after_uses (h : Nat) (d : Desk S) (uses : List Use) (fresh : d.pool.word h = .fresh)
    (allowed : Lease.Allowed {} uses) :
    let l := Lease.after {} uses
    let now := used h d uses
    let word := now.pool.word h
    (word.bits.toNat = l.reads + (if l.stage = .closed then 2 ^ 62 else 0) +
        (if l.requested then 2 ^ 63 else 0) ∧ l.reads < 2 ^ 62) ∧
      (word.reads = l.reads ∧ word.requested = l.requested ∧
        (word.stage = .opened ↔ l.requested = false) ∧
        (word.stage = .closing ↔ l.requested = true ∧ 0 < l.reads) ∧
        (word.stage = .closed ↔ l.requested = true ∧ l.reads = 0)) ∧
      (Use.acquire.Allowed l →
        (((acquire h).run now).1 = .ok () ↔ l.requested = false) ∧
        (((acquire h).run now).1 = .error .closing ↔ l.requested = true ∧ 0 < l.reads) ∧
        (((acquire h).run now).1 = .error .released ↔ l.requested = true ∧ l.reads = 0)) ∧
      ((((requestRelease h).run now).1 = .freed ↔ .request ∉ uses ∧ l.reads = 0) ∧
        (∀ n, ((requestRelease h).run now).1 = .deferred n ↔
          .request ∉ uses ∧ 0 < l.reads ∧ n = l.reads) ∧
        (((requestRelease h).run now).1 = .alreadyRequested ↔ .request ∈ uses)) ∧
      (now.pool.gone []).count h = (d.pool.gone []).count h + (if l.stage = .closed then 1 else 0) ∧
      now.pool.released = d.pool.released + (if .request ∈ uses then 1 else 0) ∧
      ∀ more, Lease.Allowed {} (uses ++ more) →
        word.stage.rank ≤ ((used h d (uses ++ more)).pool.word h).stage.rank := by
  have start : At h d.pool {} d.pool := by
    cases hx : d.pool.handles[h]? with
    | none =>
      rw [word_absent hx] at fresh
      exact absurd fresh (by decide)
    | some x =>
      rw [word_eq hx] at fresh
      exact ⟨⟨x, hx, fresh ▸ .fresh⟩, rfl, rfl⟩
  -- The pool beside the lease on its own, kept in step by every use.
  have now := start.used allowed
  have tracks := now.word
  have requested : (Lease.after {} uses).requested = uses.contains .request := by
    rw [Lease.requested_after, Bool.false_or]
  have first : .request ∉ uses ↔ (Lease.after {} uses).requested = false := by
    rw [requested, ← List.contains_iff_mem, Bool.not_eq_true]
  have later : .request ∈ uses ↔ (Lease.after {} uses).requested = true := by
    rw [requested, List.contains_iff_mem]
  intro l e word
  refine ⟨⟨tracks.bits, tracks.small⟩, ⟨tracks.reads, tracks.requested, ?_, ?_, ?_⟩,
    now.acquire_answers, ?_, now.handed, ?_, fun more allowed => ?_⟩
  · rw [tracks.stage, Lease.stage_eq_opened]
  · rw [tracks.stage, Lease.stage_eq_closing]
  · rw [tracks.stage, Lease.stage_eq_closed]
  · rw [first, later]
    exact now.requestRelease_answers
  · rw [now.released]
    simp only [later]
    cases (Lease.after {} uses).requested <;> rfl
  · rw [tracks.stage, (start.used allowed).word.stage, Lease.after_append]
    exact Lease.rank_after _ _

def unread : Desk .tables where
  pool :=
    { link := ()
      mode := .inline
      handles := #[{ buffer := Tables.Buffer.mk ⟨{ columns := [] }, none⟩ 0 0, columns := [] }] }
  engine := {}

/-- Two reads, a request, one more read that is refused, and the ends of the two. -/
theorem word_after_uses_unread :
    let uses : List Use := [.acquire, .acquire, .request, .acquire, .endRead, .endRead]
    (unread.pool.word 0 = .fresh ∧ Lease.Allowed {} uses) ∧
      ((used 0 unread uses).pool.gone []).count 0 = 1 := by
  have allowed : Lease.Allowed {} [.acquire, .acquire, .request, .acquire, .endRead, .endRead] := by
    decide
  refine ⟨⟨rfl, allowed⟩, ?_⟩
  exact (word_after_uses 0 unread _ rfl allowed).2.2.2.2.1

end Pool

end QueryLease

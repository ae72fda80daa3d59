import Mathlib.Algebra.Order.Group.Multiset
import QueryLease.Pool
import QueryLease.Proofs.Lease.Packing

/-! The leases of a pool against the reads in flight. Each word counts its reads, and a buffer whose
lease has closed is in one of three places: in somebody's hand, in the queue, or disposed of. -/

namespace QueryLease

namespace Lease.Word

/-- A word with `n` reads in flight, not in the middle of a release. -/
def Counts (w : Word) (n : Nat) : Prop :=
  (w = pack false false n ∧ n < limit) ∨ (w = pack true false n ∧ n < limit ∧ n ≠ 0) ∨
    (w = .shut ∧ n = 0)

def shutCount (w : Word) : Nat := if w = .shut then 1 else 0

def requestCount (w : Word) : Nat := if w.requested then 1 else 0

variable {w : Word} {r : Bool} {n : Nat}

theorem pack_ne_shut (h : n < limit) : pack r false n ≠ .shut := by
  intro hs
  have hc := closed_pack (r := r) (c := false) h
  rw [hs] at hc
  exact absurd hc (by decide)

theorem Counts.reads_eq (h : w.Counts n) : w.reads = n := by
  rcases h with ⟨rfl, hn⟩ | ⟨rfl, hn, -⟩ | ⟨rfl, rfl⟩
  · exact reads_pack hn
  · exact reads_pack hn
  · rfl

theorem Counts.ne_shut (h : w.Counts n) (hn : n ≠ 0) : w ≠ .shut := by
  rcases h with ⟨rfl, hl⟩ | ⟨rfl, hl, -⟩ | ⟨-, h0⟩
  · exact pack_ne_shut hl
  · exact pack_ne_shut hl
  · exact absurd h0 hn

theorem Counts.lt_limit (h : w.Counts n) : n < limit := by
  rcases h with ⟨-, hn⟩ | ⟨-, hn, -⟩ | ⟨-, rfl⟩
  · exact hn
  · exact hn
  · decide

theorem Counts.acquire_ok {v : Word} (h : w.Counts n) (hv : w.acquire = .ok v) :
    w ≠ .shut ∧ v ≠ .shut ∧ w.requested = false ∧ v.requested = false ∧ v.Counts (n + 1) := by
  rcases h with ⟨rfl, hn⟩ | ⟨rfl, hn, -⟩ | ⟨rfl, -⟩
  · by_cases hl : n + 1 < limit
    · rw [acquire_pack_opened hl] at hv
      obtain rfl := Except.ok.inj hv
      exact ⟨pack_ne_shut hn, pack_ne_shut hl, requested_pack hn, requested_pack hl, .inl ⟨rfl, hl⟩⟩
    · rw [acquire_pack_full (by omega)] at hv
      cases hv
  · rw [acquire_pack_requested hn] at hv
    cases hv
  · cases hv

theorem requested_shut : shut.requested = true := by decide

theorem acquire_shut : shut.acquire = .error .released := by decide

theorem Counts.endRead (h : w.Counts (n + 1)) :
    (∃ v, w.endRead = (false, v) ∧ v ≠ .shut ∧ v.requested = w.requested ∧ v.Counts n) ∨
      (∃ v, w.endRead = (true, v) ∧ v.finish? = some .shut ∧ w.requested = true ∧ n = 0) := by
  have hl := h.lt_limit
  have hn : n < limit := by omega
  rcases h with ⟨rfl, -⟩ | ⟨rfl, -, -⟩ | ⟨-, h0⟩
  · refine .inl ⟨pack false false n, endRead_pack hl, pack_ne_shut hn, ?_, .inl ⟨rfl, hn⟩⟩
    rw [requested_pack hn, requested_pack hl]
  · rw [endRead_pack hl, requested_pack hl]
    by_cases h0 : n = 0
    · refine .inr ⟨pack true false n, ?_, ?_, rfl, h0⟩
      · simp [h0]
      · rw [finish?_pack hn]
        simp [h0]
    · refine .inl ⟨pack true false n, ?_, pack_ne_shut hn, requested_pack hn,
        .inr (.inl ⟨rfl, hn, h0⟩)⟩
      simp [h0]
  · exact absurd h0 (Nat.succ_ne_zero n)

theorem Counts.request_again (h : w.Counts n) (hr : w.requested = true) :
    w.request = (none, w) := by
  rcases h with ⟨rfl, hn⟩ | ⟨rfl, hn, -⟩ | ⟨rfl, -⟩
  · rw [requested_pack hn] at hr
    cases hr
  · exact request_pack hn
  · rfl

theorem Counts.request_first (h : w.Counts n) (hr : w.requested = false) :
    ∃ v, w.request = (some n, v) ∧ w ≠ .shut ∧
      (n = 0 → v.finish? = some .shut) ∧
      (n ≠ 0 → v ≠ .shut ∧ v.requested = true ∧ v.Counts n) := by
  rcases h with ⟨rfl, hn⟩ | ⟨rfl, hn, -⟩ | ⟨rfl, -⟩
  · refine ⟨pack true false n, request_pack hn, pack_ne_shut hn, fun h0 => ?_, fun h0 => ?_⟩
    · rw [finish?_pack hn]
      simp [h0]
    · exact ⟨pack_ne_shut hn, requested_pack hn, .inr (.inl ⟨rfl, hn, h0⟩)⟩
  · rw [requested_pack hn] at hr
    cases hr
  · cases hr

theorem Counts.eq_shut (h : w.Counts 0) (hr : w.requested = true) : w = .shut := by
  rcases h with ⟨rfl, hl⟩ | ⟨-, -, h0⟩ | ⟨hs, -⟩
  · rw [requested_pack hl] at hr
    exact absurd hr (by decide)
  · exact absurd rfl h0
  · exact hs

theorem Counts.closed_iff (h : w.Counts n) :
    w.stage = .closed ↔ w.requested = true ∧ w.reads = 0 := by
  rcases h with ⟨rfl, hn⟩ | ⟨rfl, hn, h0⟩ | ⟨rfl, rfl⟩
  · simp [stage, closed_pack hn, requested_pack hn]
  · simp [stage, closed_pack hn, requested_pack hn, reads_pack hn, h0]
  · decide

theorem Counts.closed_iff_shut (h : w.Counts n) : w.stage = .closed ↔ w = .shut := by
  refine ⟨fun closed => ?_, fun shut => shut ▸ by decide⟩
  obtain ⟨requested, reads⟩ := h.closed_iff.1 closed
  rw [h.reads_eq] at reads
  exact (reads ▸ h).eq_shut requested

end Lease.Word

namespace Pool

variable {S : Source}

def Call.disposed? : Call → Option Nat
  | dispose h _ => some h
  | _ => none

def disposals (calls : List Call) : List Nat := calls.filterMap Call.disposed?

/-- A buffer is read under a read that is counted and before it is disposed of. It is disposed of
once its lease has closed, and once only, and everything is before the end of the link. -/
def Call.Lawful (earlier : List Call) : Call → Prop
  | fetch h w | read h w => w.reads ≠ 0 ∧ h ∉ disposals earlier ∧ close ∉ earlier
  | dispose h w => w.stage = .closed ∧ w.reads = 0 ∧ h ∉ disposals earlier ∧ close ∉ earlier
  | close => close ∉ earlier

def LawfulCalls : List Call → Prop
  | [] => True
  | call :: earlier => call.Lawful earlier ∧ LawfulCalls earlier

theorem word_eq {p : Pool S} {h : Nat} {x : Handle S} (hx : p.handles[h]? = some x) :
    p.word h = x.word := by
  rw [word, hx]
  rfl

theorem word_absent {p : Pool S} {h : Nat} (hx : p.handles[h]? = none) : p.word h = .shut := by
  rw [word, hx]
  rfl

theorem update_eq_self {p : Pool S} {h : Nat} {g : Handle S → Handle S}
    (hg : ∀ x, p.handles[h]? = some x → g x = x) : p.update h g = p := by
  have : p.handles.modify h g = p.handles := by
    apply Array.ext_getElem?
    intro i
    rw [Array.getElem?_modify]
    split_ifs with hi
    · subst hi
      cases hx : p.handles[h]? with
      | none => rfl
      | some x => exact congrArg some (hg x hx)
    · rfl
  rw [update, this]

section Total

variable {M : Type} [AddCancelCommMonoid M] (f : Handle S → M)

def total (p : Pool S) : M := (p.handles.toList.map f).sum

theorem sum_map_modify {α : Type} (f : α → M) (g : α → α) {x : α} :
    ∀ {xs : List α} {i : Nat}, xs[i]? = some x →
      ((xs.modify i g).map f).sum + f x = (xs.map f).sum + f (g x)
  | [], i, h => by simp at h
  | y :: xs, 0, h => by
    obtain rfl := Option.some.inj h
    simp only [List.modify_zero_cons, List.map_cons, List.sum_cons]
    rw [add_right_comm, add_comm (f (g y)), add_assoc, add_comm (f (g y)), ← add_assoc]
  | y :: xs, i + 1, h => by
    have := sum_map_modify f g (show xs[i]? = some x by simpa using h)
    simp only [List.modify_succ_cons, List.map_cons, List.sum_cons]
    rw [add_assoc, this, add_assoc]

theorem total_congr {f : Handle S → M} {p q : Pool S} (h : p.handles = q.handles) :
    p.total f = q.total f := by
  unfold total
  rw [h]

theorem total_update {p : Pool S} {h : Nat} {x : Handle S} (hx : p.handles[h]? = some x)
    (g : Handle S → Handle S) : (p.update h g).total f + f x = p.total f + f (g x) := by
  unfold total update
  rw [Array.toList_modify]
  exact sum_map_modify f g (by simpa using hx)

theorem total_update_eq {p : Pool S} {h : Nat} {g : Handle S → Handle S}
    (hg : ∀ x, f (g x) = f x) : (p.update h g).total f = p.total f := by
  cases hx : p.handles[h]? with
  | none => rw [update_eq_self fun x h => absurd (hx.symm.trans h) nofun]
  | some x =>
    have := total_update f hx g
    rw [hg] at this
    exact add_right_cancel this

end Total

theorem getElem?_update (p : Pool S) (h k : Nat) (g : Handle S → Handle S) :
    (p.update h g).handles[k]? = if h = k then p.handles[k]?.map g else p.handles[k]? :=
  Array.getElem?_modify

def gone (p : Pool S) (inHand : List (Nat × S.Buffer)) : List Nat :=
  (inHand ++ p.queue).map Prod.fst ++ disposals p.calls

/-- The leases of a pool under `reads`, with some closed buffers in somebody's hand. -/
structure Leased (reads : Nat → Nat) (inHand : List (Nat × S.Buffer)) (p : Pool S) : Prop where
  counts : ∀ (h : Nat) (x : Handle S), p.handles[h]? = some x → x.word.Counts (reads h)
  gone_once : ∀ h, (p.gone inHand).count h = p.handles[h]?.elim 0 fun x => x.word.shutCount
  gone_all : (p.gone inHand).length = p.total fun x => x.word.shutCount
  released : p.released = p.total fun x => x.word.requestCount
  disposed : p.disposed = (disposals p.calls).length
  inline : p.mode = .inline → p.queue = []
  lawful : LawfulCalls p.calls

def reword (p : Pool S) (h : Nat) (w : Lease.Word) (k : Nat) : Pool S :=
  { p.update h fun x => { x with word := w } with released := p.released + k }

def taken (h : Nat) (x : Handle S) (w : Lease.Word) : List (Nat × S.Buffer) :=
  if w = .shut then [(h, x.buffer)] else []

variable {reads : Nat → Nat} {inHand : List (Nat × S.Buffer)} {p : Pool S} {h : Nat}
  {x : Handle S} {w : Lease.Word} {n k : Nat}

theorem total_reword (hx : p.handles[h]? = some x) (f : Lease.Word → Nat) :
    ((p.reword h w k).total fun x => f x.word) + f x.word = (p.total fun x => f x.word) + f w :=
  total_update (fun x => f x.word) hx fun x => { x with word := w }

theorem gone_reword : (p.reword h w k).gone (taken h x w ++ inHand) =
    (taken h x w).map Prod.fst ++ p.gone inHand := by
  unfold gone
  rw [List.append_assoc, List.map_append, List.append_assoc]
  rfl

theorem count_taken (h k : Nat) (x : Handle S) (w : Lease.Word) :
    ((taken h x w).map Prod.fst).count k = if h = k then w.shutCount else 0 := by
  unfold taken Lease.Word.shutCount
  split_ifs <;> simp_all

theorem length_taken (h : Nat) (x : Handle S) (w : Lease.Word) :
    (taken h x w).length = w.shutCount := by
  unfold taken Lease.Word.shutCount
  split_ifs <;> rfl

theorem Leased.reword (L : Leased reads inHand p) (hx : p.handles[h]? = some x)
    (opened : x.word ≠ .shut) (hw : w.Counts n)
    (hk : x.word.requestCount + k = w.requestCount) :
    Leased (Function.update reads h n) (taken h x w ++ inHand) (p.reword h w k) where
  counts j y hy := by
    rw [Pool.reword, getElem?_update] at hy
    split_ifs at hy with hj
    · subst hj
      rw [hx] at hy
      obtain rfl := Option.some.inj hy
      rwa [Function.update_self]
    · rw [Function.update_of_ne (Ne.symm hj)]
      exact L.counts j y hy
  gone_once j := by
    have := L.gone_once j
    rw [gone_reword, List.count_append, count_taken, Pool.reword, getElem?_update, this]
    split_ifs with hj
    · subst hj
      simp [hx, Lease.Word.shutCount, opened]
    · rw [Nat.zero_add]
  gone_all := by
    have := total_reword (w := w) (k := k) hx Lease.Word.shutCount
    rw [show x.word.shutCount = 0 from if_neg opened] at this
    rw [gone_reword, List.length_append, List.length_map, length_taken, L.gone_all]
    omega
  released := by
    have := total_reword (w := w) (k := k) hx Lease.Word.requestCount
    have := L.released
    show p.released + k = _
    omega
  disposed := L.disposed
  inline := L.inline
  lawful := L.lawful

theorem Leased.update (L : Leased reads inHand p) {g : Handle S → Handle S}
    (hg : ∀ x, (g x).word = x.word) : Leased reads inHand (p.update h g) where
  counts j y hy := by
    rw [getElem?_update] at hy
    split_ifs at hy
    · obtain ⟨x, hx, rfl⟩ := Option.map_eq_some_iff.1 hy
      rw [hg]
      exact L.counts j x hx
    · exact L.counts j y hy
  gone_once j := by
    rw [getElem?_update, show (p.update h g).gone inHand = p.gone inHand from rfl, L.gone_once]
    split_ifs
    · cases p.handles[j]? with
      | none => rfl
      | some x => simp only [Option.map_some, Option.elim_some, hg]
    · rfl
  gone_all := by
    rw [total_update_eq _ fun x => by rw [hg]]
    exact L.gone_all
  released := by
    rw [total_update_eq _ fun x => by rw [hg]]
    exact L.released
  disposed := L.disposed
  inline := L.inline
  lawful := L.lawful

theorem Leased.move {q : Pool S} {inHand' : List (Nat × S.Buffer)} (L : Leased reads inHand p)
    (hh : q.handles = p.handles) (hr : q.released = p.released)
    (hg : (q.gone inHand').Perm (p.gone inHand))
    (hd : q.disposed = (disposals q.calls).length) (hi : q.mode = .inline → q.queue = [])
    (hl : LawfulCalls q.calls) : Leased reads inHand' q where
  counts := hh ▸ L.counts
  gone_once j := by rw [hg.count_eq, hh, L.gone_once]
  gone_all := by rw [hg.length_eq, total_congr hh, L.gone_all]
  released := by rw [hr, total_congr hh, L.released]
  disposed := hd
  inline := hi
  lawful := hl

theorem Leased.in_hand {b : S.Buffer} (L : Leased reads ((h, b) :: inHand) p) :
    p.word h = .shut ∧ h ∉ disposals p.calls := by
  have once := L.gone_once h
  simp only [gone, List.cons_append, List.map_cons, List.count_append, List.count_cons_self] at once
  cases hx : p.handles[h]? with
  | none =>
    rw [hx, Option.elim_none] at once
    omega
  | some x =>
    rw [hx, Option.elim_some, Lease.Word.shutCount] at once
    split_ifs at once with hs
    · refine ⟨by rw [word_eq hx, hs], List.count_eq_zero.1 ?_⟩
      omega

theorem Leased.disposeNow {b : S.Buffer} (L : Leased reads ((h, b) :: inHand) p)
    (hc : Call.close ∉ p.calls) :
    Leased reads inHand ({ p with disposed := p.disposed + 1 }.note (.dispose h (p.word h))) := by
  obtain ⟨hs, hd⟩ := L.in_hand
  refine L.move rfl rfl List.perm_middle (congrArg (· + 1) L.disposed) L.inline ⟨?_, L.lawful⟩
  rw [hs]
  exact ⟨rfl, rfl, hd, hc⟩

theorem Leased.enqueue {b : S.Buffer} (L : Leased reads ((h, b) :: inHand) p)
    (hm : p.mode ≠ .inline) :
    Leased reads inHand { p with queue := p.queue ++ [(h, b)] } := by
  refine L.move rfl rfl (List.Perm.append_right _ (List.Perm.map _ ?_)) L.disposed
    (absurd · hm) L.lawful
  rw [← List.append_assoc]
  exact List.perm_append_singleton ..

theorem Leased.take (L : Leased reads [] p) (n : Nat) :
    Leased reads (p.queue.take n) { p with queue := p.queue.drop n } := by
  refine L.move rfl rfl ?_ L.disposed (fun hm => ?_) L.lawful
  · rw [gone, List.take_append_drop]
    exact List.Perm.refl _
  · show p.queue.drop n = []
    rw [L.inline hm, List.drop_nil]

theorem Leased.not_gone (L : Leased reads inHand p) (hx : p.handles[h]? = some x)
    (hr : reads h ≠ 0) : h ∉ disposals p.calls := by
  have once := L.gone_once h
  rw [hx, Option.elim_some, Lease.Word.shutCount, if_neg ((L.counts h x hx).ne_shut hr), gone,
    List.count_append] at once
  exact List.count_eq_zero.1 (by omega)

theorem Leased.reading (L : Leased reads inHand p) (hx : p.handles[h]? = some x)
    (hr : reads h ≠ 0) (hc : Call.close ∉ p.calls) :
    x.word.reads ≠ 0 ∧ h ∉ disposals p.calls ∧ Call.close ∉ p.calls := by
  refine ⟨?_, L.not_gone hx hr, hc⟩
  rwa [(L.counts h x hx).reads_eq]

theorem Leased.note {call : Call} (L : Leased reads inHand p) (hd : call.disposed? = none)
    (hc : call.Lawful p.calls) : Leased reads inHand (p.note call) := by
  have same : disposals (call :: p.calls) = disposals p.calls := List.filterMap_cons_none hd
  refine L.move rfl rfl ?_ (L.disposed.trans (congrArg List.length same.symm)) L.inline
    ⟨hc, L.lawful⟩
  rw [gone, show (p.note call).calls = call :: p.calls from rfl, same]
  exact List.Perm.refl _

theorem exists_enrol (p : Pool S) (buffer : S.Buffer) (columns : List String) :
    ∃ tracked, p.enrol buffer columns =
      { p with
        handles := p.handles.push { buffer, columns }
        owners := p.owners + 1
        tracked } := by
  unfold enrol track
  split_ifs
  · exact ⟨_, rfl⟩
  · exact ⟨_, rfl⟩

theorem total_enrol {M : Type} [AddCancelCommMonoid M] (f : Handle S → M) (b : S.Buffer)
    (columns : List String) :
    (p.enrol b columns).total f = p.total f + f { buffer := b, columns } := by
  obtain ⟨tracked, e⟩ := p.exists_enrol b columns
  rw [e]
  simp [total]

theorem getElem?_enrol (p : Pool S) (b : S.Buffer) (columns : List String) (k : Nat) :
    (p.enrol b columns).handles[k]? =
      if k = p.handles.size then some { buffer := b, columns } else p.handles[k]? := by
  obtain ⟨tracked, e⟩ := p.exists_enrol b columns
  rw [e]
  exact Array.getElem?_push

theorem size_enrol (p : Pool S) (b : S.Buffer) (columns : List String) :
    (p.enrol b columns).handles.size = p.handles.size + 1 := by
  obtain ⟨tracked, e⟩ := p.exists_enrol b columns
  rw [e]
  exact Array.size_push ..

theorem owned_enrol (p : Pool S) (b : S.Buffer) (columns : List String) (k : Nat) :
    (p.enrol b columns).owned k = if k = p.handles.size then true else p.owned k := by
  rw [owned, getElem?_enrol]
  split_ifs
  · rfl
  · rfl

theorem Leased.enrol (L : Leased reads inHand p) (hr : reads p.handles.size = 0)
    (b : S.Buffer) (columns : List String) : Leased reads inHand (p.enrol b columns) := by
  have hg : (p.enrol b columns).gone inHand = p.gone inHand := by
    obtain ⟨tracked, e⟩ := p.exists_enrol b columns
    rw [e]
    rfl
  refine ⟨fun j y hy => ?_, fun j => ?_, ?_, ?_, ?_, ?_, ?_⟩
  · rw [getElem?_enrol] at hy
    split_ifs at hy with hj
    · obtain rfl := Option.some.inj hy
      rw [hj, hr]
      exact .inl ⟨rfl, by decide⟩
    · exact L.counts j y hy
  · rw [hg, L.gone_once, getElem?_enrol]
    split_ifs with hj
    · rw [hj, Array.getElem?_size]
      rfl
    · rfl
  · rw [hg, L.gone_all, total_enrol]
    rfl
  · rw [total_enrol, ← L.released]
    obtain ⟨tracked, e⟩ := p.exists_enrol b columns
    rw [e, show Lease.Word.requestCount .fresh = 0 by decide]
    rfl
  all_goals
    obtain ⟨tracked, e⟩ := p.exists_enrol b columns
    rw [e]
  · exact L.disposed
  · exact L.inline
  · exact L.lawful

end Pool

end QueryLease

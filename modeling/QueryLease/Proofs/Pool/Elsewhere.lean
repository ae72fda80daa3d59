import QueryLease.Proofs.Pool.Standing

namespace QueryLease

open Pool

variable {S : Source} {α β : Type} {h k : Nat} {d d' d'' : Desk S}

def Pool.Call.asks (h : Nat) : Call → Bool
  | .fetch k _ | .read k _ => k == h
  | .dispose _ _ | .close => false

/-- The handle is as it was, if it was there, and its buffer was asked nothing. -/
structure Apart (h : Nat) (d d' : Desk S) : Prop where
  handle : ∀ x, d.pool.handles[h]? = some x → d'.pool.handles[h]? = some x
  calls : d'.pool.calls.filter (·.asks h) = d.pool.calls.filter (·.asks h)

namespace Apart

theorem refl (d : Desk S) : Apart h d d := ⟨fun _ => id, rfl⟩

theorem trans (a : Apart h d d') (b : Apart h d' d'') : Apart h d d'' :=
  ⟨fun x hx => b.handle x (a.handle x hx), b.calls.trans a.calls⟩

theorem update (hk : k ≠ h) (f : Handle S → Handle S) :
    Apart h d { d with pool := d.pool.update k f } where
  handle x hx := by rw [getElem?_update, if_neg hk, hx]
  calls := rfl

theorem note (call : Call) (hc : call.asks h = false) (engine : S.State) :
    Apart h d { pool := d.pool.note call, engine } where
  handle _ := id
  calls := List.filter_cons_of_neg (by rw [hc]; decide)

end Apart

def Elsewhere (h : Nat) (x : PoolM S α) : Prop := ∀ d, Apart h d (x.run d).2

namespace Elsewhere

variable {x : PoolM S α} {f : α → PoolM S β}

theorem pure (a : α) : Elsewhere h (Pure.pure a : PoolM S α) := Apart.refl

theorem bind (hx : Elsewhere h x) (hf : ∀ a, Elsewhere h (f a)) : Elsewhere h (x >>= f) :=
  fun d => (hx d).trans (hf _ _)

theorem get_bind {g : Desk S → PoolM S β} (hg : ∀ d, Elsewhere h (g d)) :
    Elsewhere h (get >>= g) := fun d => hg d d

theorem discard (hx : Elsewhere h x) : Elsewhere h (discard x) := hx

theorem update (hk : k ≠ h) (f : Handle S → Handle S) : Elsewhere h (edit (·.update k f)) :=
  fun _ => .update hk f

theorem still (hx : ∀ d, (x.run d).2.pool.handles = d.pool.handles ∧
    (x.run d).2.pool.calls = d.pool.calls) : Elsewhere h x := fun d =>
  ⟨fun _ hy => (congrArg (·[h]?) (hx d).1).trans hy, congrArg _ (hx d).2⟩

theorem disposeNow (k : Nat) (b : S.Buffer) : Elsewhere h (disposeNow k b) := fun d =>
  ⟨fun _ => id, List.filter_cons_of_neg (by simp [Call.asks])⟩

theorem handOver (k : Nat) (b : S.Buffer) : Elsewhere h (handOver k b) := by
  refine get_bind fun d => ?_
  cases d.pool.mode with
  | inline => exact disposeNow k b
  | deferred | background => exact still fun _ => ⟨rfl, rfl⟩

theorem finish (hk : k ≠ h) : Elsewhere h (finish (S := S) k) := by
  refine get_bind fun d => ?_
  cases d.pool.handles[k]? with
  | none => exact pure ()
  | some x =>
    cases hw : x.word.finish? with simp only [hw]
    | none => exact pure ()
    | some w => exact (update hk _).bind fun _ => handOver k x.buffer

theorem acquire (hk : k ≠ h) : Elsewhere h (acquire (S := S) k) := by
  refine get_bind fun d => ?_
  cases (d.pool.word k).acquire with
  | error refusal => exact pure _
  | ok w => exact (update hk _).bind fun _ => pure _

theorem endRead (hk : k ≠ h) : Elsewhere h (endRead (S := S) k) := by
  refine get_bind fun d => (update hk _).bind fun _ => ?_
  split_ifs
  · exact finish hk
  · exact pure ()

theorem requestRelease (hk : k ≠ h) : Elsewhere h (requestRelease (S := S) k) := by
  refine get_bind fun d => (update hk _).bind fun _ => ?_
  split
  · exact pure _
  · refine Elsewhere.bind (still fun _ => ⟨rfl, rfl⟩) fun _ => ?_
    split_ifs
    · exact (finish hk).bind fun _ => pure _
    · exact pure _

theorem forM_disposeNow (queue : List (Nat × S.Buffer)) :
    Elsewhere h (queue.forM fun entry => Pool.disposeNow entry.1 entry.2) := by
  induction queue with
  | nil => exact pure ()
  | cons entry queue ih => exact (disposeNow entry.1 entry.2).bind fun _ => ih

theorem reap (n : Nat) : Elsewhere h (reap (S := S) n) :=
  get_bind fun _ => Elsewhere.bind (still fun _ => ⟨rfl, rfl⟩) fun _ => forM_disposeNow _

theorem collect : Elsewhere h (collect (S := S)) :=
  get_bind fun _ => (reap _).bind fun _ => pure _

theorem leave : Elsewhere h (leave (S := S)) := by
  refine Elsewhere.bind (still fun _ => ⟨rfl, rfl⟩) fun _ => get_bind fun d => ?_
  split_ifs
  · exact Elsewhere.bind (discard collect) fun _ _ => .note .close rfl _
  · exact pure ()

theorem drop (hk : k ≠ h) : Elsewhere h (drop (S := S) k) := by
  refine (update hk _).bind fun _ => get_bind fun d => ?_
  split_ifs
  · exact (requestRelease hk).bind fun _ => leave
  · exact pure ()

theorem query (text : String) : Elsewhere h (query (S := S) text) := by
  refine fun d => ⟨fun x hx => ?_, ?_⟩
  · rcases query_run text d with same | ⟨b, columns, made⟩
    · rwa [same]
    · have other : h ≠ d.pool.handles.size := (Array.getElem?_eq_some_iff.1 hx).1.ne
      rw [made, getElem?_enrol, if_neg other, hx]
  · rcases query_run text d with same | ⟨b, columns, made⟩
    · rw [same]
    · rw [made, enrol_eq]

theorem fetch (hk : k ≠ h) : Elsewhere h (fetch (S := S) k) := by
  refine get_bind fun d => ?_
  cases d.pool.handles[k]? with
  | none => exact pure _
  | some x =>
    exact fun d => (Apart.note (.fetch k x.word) (beq_false_of_ne hk) _).trans (.update hk _)

theorem readCell (hk : k ≠ h) (row : S.Row) (column : Nat) :
    Elsewhere h (readCell k row column) := by
  refine get_bind fun d => ?_
  cases d.pool.handles[k]? with
  | none => exact pure _
  | some x => exact fun d => .note (.read k x.word) (beq_false_of_ne hk) _

theorem claimCursor (hk : k ≠ h) : Elsewhere h (claimCursor (S := S) k) := by
  refine get_bind fun d => ?_
  cases d.pool.handles[k]? with
  | none => exact pure _
  | some x => exact (update hk _).bind fun _ => pure _

end Elsewhere

namespace Deed

def elsewhere (h : Nat) : Deed S → Bool
  | acquire k | endRead k | fetch k | read k _ _ | requestRelease k | claimCursor k | retain k
  | drop k => k != h
  | releaseAll => false
  | query _ | join | leave | reap _ | source _ => true

theorem perform_elsewhere {deed : Deed S} (he : deed.elsewhere h = true) :
    Elsewhere h deed.perform := by
  cases deed with
  | acquire k => exact .acquire (bne_iff_ne.1 he)
  | endRead k => exact .endRead (bne_iff_ne.1 he)
  | fetch k => exact .fetch (bne_iff_ne.1 he)
  | read k row column => exact .readCell (bne_iff_ne.1 he) row column
  | query text => exact .query text
  | requestRelease k => exact .requestRelease (bne_iff_ne.1 he)
  | claimCursor k => exact .claimCursor (bne_iff_ne.1 he)
  | retain k => exact .update (bne_iff_ne.1 he) _
  | drop k => exact .drop (bne_iff_ne.1 he)
  | join => exact .still fun _ => ⟨rfl, rfl⟩
  | leave => exact .leave
  | releaseAll => cases he
  | reap n => exact .reap n
  | source change => exact fun d => ⟨fun _ => id, rfl⟩

theorem apart_after {deeds : List (Deed S)} (he : ∀ deed ∈ deeds, deed.elsewhere h = true)
    (d : Desk S) : Apart h d (after d deeds) := by
  induction deeds generalizing d with
  | nil => exact .refl d
  | cons deed deeds ih =>
    obtain ⟨first, others⟩ := List.forall_mem_cons.1 he
    exact (perform_elsewhere first d).trans (ih others _)

end Deed

end QueryLease

import QueryLease.Proofs.Pool.Leased
import QueryLease.Proofs.Strand

namespace QueryLease

open Pool

variable {S : Source} {α β γ : Type}

inductive Deed (S : Source) where
  | acquire (h : Nat)
  | endRead (h : Nat)
  | fetch (h : Nat)
  | read (h : Nat) (row : S.Row) (column : Nat)
  | query (text : String)
  | requestRelease (h : Nat)
  | claimCursor (h : Nat)
  | retain (h : Nat)
  | drop (h : Nat)
  | join
  | leave
  | releaseAll
  | reap (n : Nat)
  | source (change : S.State → S.State)

namespace Deed

def perform : Deed S → PoolM S Unit
  | acquire h => discard (Pool.acquire h)
  | endRead h => Pool.endRead h
  | fetch h => discard (Pool.fetch h)
  | read h row column => discard (Pool.readCell h row column)
  | query text => discard (Pool.query text)
  | requestRelease h => discard (Pool.requestRelease h)
  | claimCursor h => discard (Pool.claimCursor h)
  | retain h => Pool.retain h
  | drop h => Pool.drop h
  | join => Pool.join
  | leave => Pool.leave
  | releaseAll => discard Pool.releaseAll
  | reap n => Pool.reap n
  | source change => modify fun d => { d with engine := change d.engine }

def after (d : Desk S) (deeds : List (Deed S)) : Desk S :=
  deeds.foldl (fun d deed => (deed.perform.run d).2) d

end Deed

namespace Pool

/-- What a pool keeps as long as its handles keep their buffers and columns, and as long as the same
handles are tracked. -/
structure Frame (P : Pool S → Prop) : Prop where
  same : ∀ {p q : Pool S}, q.handles = p.handles → q.tracked = p.tracked → P p → P q
  update : ∀ {p : Pool S} (k : Nat) {g : Handle S → Handle S},
    (∀ x, (g x).buffer = x.buffer ∧ (g x).columns = x.columns) → P p → P (p.update k g)

abbrev Stays (P : Pool S → Prop) (x : PoolM S α) : Prop :=
  Keeps (fun d => P d.pool) x fun _ d => P d.pool

namespace Stays

variable {P : Pool S → Prop}

theorem get_bind {g : Desk S → PoolM S α} (hg : ∀ d, Stays P (g d)) : Stays P (get >>= g) :=
  Alike.get_bind fun d hd => (hg d).weaken (fun _ e => e ▸ hd) fun _ _ => id

theorem andThen {x : PoolM S α} {g : α → PoolM S β} (hx : Stays P x) (hg : ∀ a, Stays P (g a)) :
    Stays P (x >>= g) := Alike.bind hx hg

theorem pure (a : α) : Stays P (Pure.pure a : PoolM S α) := Alike.still

end Stays

namespace Frame

variable {P : Pool S → Prop} (F : Frame P)
include F

theorem reword (k : Nat) (w : Lease.Word) :
    Stays P (edit fun p => p.update k fun x => { x with word := w }) :=
  Alike.of_modify fun _ => F.update k fun _ => ⟨rfl, rfl⟩

theorem disposeNow (k : Nat) (b : S.Buffer) : Stays P (disposeNow k b) :=
  Alike.of_modify fun _ => F.same rfl rfl

theorem handOver (k : Nat) (b : S.Buffer) : Stays P (handOver k b) := by
  refine Stays.get_bind fun d => ?_
  cases d.pool.mode with
  | inline => exact F.disposeNow k b
  | deferred | background => exact Alike.of_modify fun _ => F.same rfl rfl

theorem finish (k : Nat) : Stays P (finish k) := by
  refine Stays.get_bind fun d => ?_
  cases d.pool.handles[k]? with
  | none => exact Stays.pure ()
  | some x =>
    cases hw : x.word.finish? with simp only [hw]
    | none => exact Stays.pure ()
    | some w => exact (F.reword k w).andThen fun _ => F.handOver k x.buffer

theorem acquire (k : Nat) : Stays P (acquire k) := by
  refine Stays.get_bind fun d => ?_
  cases (d.pool.word k).acquire with
  | error refusal => exact Stays.pure _
  | ok w => exact (F.reword k w).andThen fun _ => Stays.pure _

theorem endRead (k : Nat) : Stays P (endRead k) := by
  refine Stays.get_bind fun d => (F.reword k _).andThen fun _ => ?_
  split
  · exact F.finish k
  · exact Stays.pure ()

theorem requestRelease (k : Nat) : Stays P (requestRelease k) := by
  refine Stays.get_bind fun d => (F.reword k _).andThen fun _ => ?_
  split
  · exact Stays.pure _
  · refine Stays.andThen (Alike.of_modify fun _ => F.same rfl rfl) fun _ => ?_
    split_ifs
    · exact (F.finish k).andThen fun _ => Stays.pure _
    · exact Stays.pure _

theorem mapM (ks : List Nat) : Stays P (ks.mapM Pool.requestRelease) := by
  induction ks with
  | nil => exact Stays.pure _
  | cons k ks ih =>
    rw [List.mapM_cons]
    exact (F.requestRelease k).andThen fun _ => ih.andThen fun _ => Stays.pure _

theorem reap (n : Nat) : Stays P (reap n) := by
  have all : ∀ queue : List (Nat × S.Buffer),
      Stays P (queue.forM fun entry => Pool.disposeNow entry.1 entry.2) := by
    intro queue
    induction queue with
    | nil => exact Stays.pure ()
    | cons entry queue ih => exact (F.disposeNow entry.1 entry.2).andThen fun _ => ih
  refine Stays.get_bind fun d => Stays.andThen (Alike.of_modify fun _ => F.same rfl rfl) fun _ => ?_
  exact all _

theorem collect : Stays P (collect (S := S)) :=
  Stays.get_bind fun _ => (F.reap _).andThen fun _ => Stays.pure _

theorem join : Stays P (join (S := S)) := Alike.of_modify fun _ => F.same rfl rfl

theorem leave : Stays P (leave (S := S)) := by
  refine Stays.andThen (Alike.of_modify fun _ => F.same rfl rfl) fun _ => Stays.get_bind fun d => ?_
  split_ifs
  · exact Stays.andThen (Alike.discard F.collect) fun _ => Alike.of_modify fun _ => F.same rfl rfl
  · exact Stays.pure ()

theorem retain (k : Nat) : Stays P (retain k) :=
  Alike.of_modify fun _ => F.update k fun _ => ⟨rfl, rfl⟩

theorem drop (k : Nat) : Stays P (drop k) := by
  refine Stays.andThen (Alike.of_modify fun _ => F.update k fun _ => ⟨rfl, rfl⟩) fun _ =>
    Stays.get_bind fun d => ?_
  split_ifs
  · exact Stays.andThen (Alike.discard (F.requestRelease k)) fun _ => F.leave
  · exact Stays.pure ()

theorem readCell (k : Nat) (row : S.Row) (column : Nat) : Stays P (readCell k row column) := by
  refine Stays.get_bind fun d => ?_
  cases d.pool.handles[k]? with
  | none => exact Stays.pure _
  | some x => exact Alike.get_bind fun d hd => Alike.of_eq rfl (F.same (p := d.pool) rfl rfl hd)

theorem claimCursor (k : Nat) : Stays P (claimCursor k) := by
  refine Stays.get_bind fun d => ?_
  cases d.pool.handles[k]? with
  | none => exact Stays.pure _
  | some x =>
    exact Stays.andThen (Alike.of_modify fun _ => F.update k fun _ => ⟨rfl, rfl⟩) fun _ =>
      Stays.pure _

end Frame

def Shows (f : S.Buffer → List String → γ) (h : Nat) (c : γ) (d : Desk S) : Prop :=
  d.pool.handles[h]?.map (fun x => f x.buffer x.columns) = some c

abbrev Spares (f : S.Buffer → List String → γ) (h : Nat) (c : γ) (x : PoolM S α) : Prop :=
  Keeps (Shows f h c) x fun _ => Shows f h c

variable {f : S.Buffer → List String → γ} {h k : Nat} {c : γ}

theorem Shows.of_handle {d : Desk S} {x : Handle S} (hx : d.pool.handles[h]? = some x) :
    Shows f h (f x.buffer x.columns) d := congrArg (Option.map _) hx

theorem Shows.eq {d : Desk S} {x : Handle S} (hd : Shows f h c d)
    (hx : d.pool.handles[h]? = some x) : f x.buffer x.columns = c :=
  Option.some.inj ((congrArg (Option.map _) hx).symm.trans hd)

theorem shows_frame :
    Frame fun p : Pool S => p.handles[h]?.map (fun x => f x.buffer x.columns) = some c where
  same handles _ shows := by rwa [handles]
  update {p} k g hg shows := by
    have same : (fun x => f x.buffer x.columns) ∘ g = fun x => f x.buffer x.columns := by
      funext x
      rw [Function.comp_apply, (hg x).1, (hg x).2]
    rw [getElem?_update]
    split_ifs
    · rw [Option.map_map, same]
      exact shows
    · exact shows

theorem spares_releaseAll : Spares f h c (releaseAll (S := S)) := by
  refine Alike.bind (q := fun _ => Shows f h c) (Alike.of_modify fun _ => id) fun _ => ?_
  apply Alike.get_bind
  intro d hd
  exact ((shows_frame.mapM _).weaken (fun _ e => e ▸ hd) fun _ _ => id).bind fun _ => Alike.still

theorem spares_query (text : String) : Spares f h c (query text) := by
  apply Alike.get_bind
  intro d hd
  generalize S.execute d.pool.link text d.engine = outcome
  obtain ⟨fault | made, engine⟩ := outcome
  · exact Alike.of_eq rfl hd
  · refine Alike.of_eq rfl ?_
    show (d.pool.enrol made.1 made.2).handles[h]?.map (fun x => f x.buffer x.columns) = some c
    rw [getElem?_enrol]
    split_ifs with hh
    · rw [Shows, hh, Array.getElem?_size] at hd
      cases hd
    · exact hd

abbrev Unfetched (f : S.Buffer → List String → γ) : Prop :=
  ∀ link b engine columns, f (S.fetch link b engine).2.1 columns = f b columns

theorem spares_fetch (other : k ≠ h ∨ Unfetched f) : Spares f h c (fetch k) := by
  apply Alike.get_bind
  intro d hd
  cases hx : d.pool.handles[k]? with
  | none => exact Alike.of_eq rfl hd
  | some x =>
    refine Alike.of_eq rfl ?_
    show ((d.pool.note _).update k _).handles[h]?.map (fun x => f x.buffer x.columns) = some c
    rw [getElem?_update]
    split_ifs with same
    · subst same
      rw [Shows, hx] at hd
      show (d.pool.handles[k]?.map _).map _ = some c
      rw [hx, ← hd]
      exact congrArg some (other.resolve_left (absurd rfl) ..)
    · exact hd

end Pool

namespace Deed

variable {f : S.Buffer → List String → γ} {h : Nat} {c : γ} {deed : Deed S} {deeds : List (Deed S)}
  {d : Desk S}

theorem spares (other : deed ≠ fetch h ∨ Unfetched f) :
    Spares f h c deed.perform := by
  cases deed with
  | acquire k => exact Alike.discard (shows_frame.acquire k)
  | endRead k => exact shows_frame.endRead k
  | fetch k => exact Alike.discard (spares_fetch (other.imp_left fun hd e => hd (e ▸ rfl)))
  | read k row column => exact Alike.discard (shows_frame.readCell k row column)
  | query text => exact Alike.discard (spares_query text)
  | requestRelease k => exact Alike.discard (shows_frame.requestRelease k)
  | claimCursor k => exact Alike.discard (shows_frame.claimCursor k)
  | retain k => exact shows_frame.retain k
  | drop k => exact shows_frame.drop k
  | join => exact shows_frame.join
  | leave => exact shows_frame.leave
  | releaseAll => exact Alike.discard spares_releaseAll
  | reap n => exact shows_frame.reap n
  | source change => exact Alike.of_modify fun _ => id

theorem buffer_after {b : S.Buffer} (unfetched : fetch h ∉ deeds)
    (hb : Shows (fun b _ => b) h b d) : Shows (fun b _ => b) h b (after d deeds) := by
  induction deeds generalizing d with
  | nil => exact hb
  | cons deed deeds ih =>
    obtain ⟨first, others⟩ := not_or.1 (mt List.mem_cons.2 unfetched)
    exact ih others ((spares (.inl (Ne.symm first))).post hb)

theorem shows_after (unfetched : Unfetched f) (hc : Shows f h c d) :
    Shows f h c (after d deeds) := by
  induction deeds generalizing d with
  | nil => exact hc
  | cons deed deeds ih => exact ih ((spares (.inr unfetched)).post hc)

theorem columns_after {columns : List String} (hc : Shows (fun _ cs => cs) h columns d) :
    Shows (fun _ cs => cs) h columns (after d deeds) := shows_after (fun _ _ _ _ => rfl) hc

end Deed

end QueryLease

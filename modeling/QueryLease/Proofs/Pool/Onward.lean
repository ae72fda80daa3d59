import QueryLease.Proofs.Pool.Serving

namespace QueryLease

open Pool

variable {S : Source} {α β : Type} {h k n : Nat} {d d' d'' : Desk S}

/-- Every handle is still there with its buffer, its cursor is not to be had again, and there was no
fetch. -/
structure Onward (d d' : Desk S) : Prop where
  handle : ∀ (h : Nat) (x : Handle S), d.pool.handles[h]? = some x →
    ∃ x', d'.pool.handles[h]? = some x' ∧ x'.buffer = x.buffer ∧
      (x.cursorTaken = true → x'.cursorTaken = true)
  calls : d'.pool.calls.filter Call.isFetch = d.pool.calls.filter Call.isFetch

namespace Onward

theorem of_handles (handles : d'.pool.handles = d.pool.handles)
    (calls : d'.pool.calls.filter Call.isFetch = d.pool.calls.filter Call.isFetch) :
    Onward d d' :=
  ⟨fun _ x hx => ⟨x, handles ▸ hx, rfl, id⟩, calls⟩

theorem refl (d : Desk S) : Onward d d := of_handles rfl rfl

theorem trans (a : Onward d d') (b : Onward d' d'') : Onward d d'' where
  handle h x hx := by
    obtain ⟨x', hx', buffer, taken⟩ := a.handle h x hx
    obtain ⟨x'', hx'', buffer', taken'⟩ := b.handle h x' hx'
    exact ⟨x'', hx'', buffer'.trans buffer, taken' ∘ taken⟩
  calls := b.calls.trans a.calls

theorem update {f : Handle S → Handle S} (buffer : ∀ x, (f x).buffer = x.buffer)
    (taken : ∀ x, x.cursorTaken = true → (f x).cursorTaken = true) :
    Onward d { d with pool := d.pool.update k f } where
  handle h x hx := by
    show ∃ x', (d.pool.update k f).handles[h]? = some x' ∧ _
    rw [getElem?_update, hx]
    split_ifs
    · exact ⟨f x, rfl, buffer x, taken x⟩
    · exact ⟨x, rfl, rfl, id⟩
  calls := rfl

theorem note {call : Call} (other : call.isFetch = false) (engine : S.State) :
    Onward d { pool := d.pool.note call, engine } :=
  of_handles rfl (List.filter_cons_of_neg (by rw [other]; decide))

end Onward

def Unfetching (x : PoolM S α) : Prop := ∀ d, Onward d (x.run d).2

namespace Unfetching

variable {x : PoolM S α} {f : α → PoolM S β}

theorem pure (a : α) : Unfetching (Pure.pure a : PoolM S α) := Onward.refl

theorem bind (hx : Unfetching x) (hf : ∀ a, Unfetching (f a)) : Unfetching (x >>= f) :=
  fun d => (hx d).trans (hf _ _)

theorem get_bind {g : Desk S → PoolM S β} (hg : ∀ d, Unfetching (g d)) :
    Unfetching (get >>= g) := fun d => hg d d

theorem discard (hx : Unfetching x) : Unfetching (discard x) := hx

theorem still (hx : ∀ d, (x.run d).2.pool.handles = d.pool.handles ∧
    (x.run d).2.pool.calls = d.pool.calls) : Unfetching x :=
  fun d => .of_handles (hx d).1 (congrArg _ (hx d).2)

theorem reword (k : Nat) (w : Lease.Word) :
    Unfetching (edit (S := S) fun p => p.update k fun x => { x with word := w }) :=
  fun _ => .update (fun _ => rfl) fun _ => id

theorem disposeNow (k : Nat) (b : S.Buffer) : Unfetching (disposeNow k b) :=
  fun _ => .of_handles rfl (List.filter_cons_of_neg (by simp [Call.isFetch]))

theorem handOver (k : Nat) (b : S.Buffer) : Unfetching (handOver k b) := by
  refine get_bind fun d => ?_
  cases d.pool.mode with
  | inline => exact disposeNow k b
  | deferred | background => exact still fun _ => ⟨rfl, rfl⟩

theorem finish (k : Nat) : Unfetching (finish (S := S) k) := by
  refine get_bind fun d => ?_
  cases d.pool.handles[k]? with
  | none => exact pure ()
  | some x =>
    cases hw : x.word.finish? with simp only [hw]
    | none => exact pure ()
    | some w => exact (reword k w).bind fun _ => handOver k x.buffer

theorem acquire (k : Nat) : Unfetching (acquire (S := S) k) := by
  refine get_bind fun d => ?_
  cases (d.pool.word k).acquire with
  | error refusal => exact pure _
  | ok w => exact (reword k w).bind fun _ => pure _

theorem endRead (k : Nat) : Unfetching (endRead (S := S) k) := by
  refine get_bind fun d => (reword k _).bind fun _ => ?_
  split_ifs
  · exact finish k
  · exact pure ()

theorem requestRelease (k : Nat) : Unfetching (requestRelease (S := S) k) := by
  refine get_bind fun d => (reword k _).bind fun _ => ?_
  split
  · exact pure _
  · refine Unfetching.bind (still fun _ => ⟨rfl, rfl⟩) fun _ => ?_
    split_ifs
    · exact (finish k).bind fun _ => pure _
    · exact pure _

theorem mapM_requestRelease (ks : List Nat) :
    Unfetching (ks.mapM (Pool.requestRelease (S := S))) := by
  induction ks with
  | nil => exact pure _
  | cons k ks ih =>
    rw [List.mapM_cons]
    exact (requestRelease k).bind fun _ => ih.bind fun _ => pure _

theorem releaseAll : Unfetching (releaseAll (S := S)) :=
  Unfetching.bind (still fun _ => ⟨rfl, rfl⟩) fun _ => get_bind fun _ =>
    (mapM_requestRelease _).bind fun _ => pure _

theorem reap (n : Nat) : Unfetching (reap (S := S) n) := by
  have all (queue : List (Nat × S.Buffer)) :
      Unfetching (queue.forM fun entry => Pool.disposeNow entry.1 entry.2) := by
    induction queue with
    | nil => exact pure ()
    | cons entry queue ih => exact (disposeNow entry.1 entry.2).bind fun _ => ih
  exact get_bind fun _ => Unfetching.bind (still fun _ => ⟨rfl, rfl⟩) fun _ => all _

theorem collect : Unfetching (collect (S := S)) :=
  get_bind fun _ => (reap _).bind fun _ => pure _

theorem leave : Unfetching (leave (S := S)) := by
  refine Unfetching.bind (still fun _ => ⟨rfl, rfl⟩) fun _ => get_bind fun d => ?_
  split_ifs
  · exact Unfetching.bind (discard collect) fun _ _ => .note rfl _
  · exact pure ()

theorem retain (k : Nat) : Unfetching (retain (S := S) k) :=
  fun _ => .update (fun _ => rfl) fun _ => id

theorem drop (k : Nat) : Unfetching (drop (S := S) k) := by
  refine Unfetching.bind (fun _ => .update (fun _ => rfl) fun _ => id) fun _ =>
    get_bind fun d => ?_
  split_ifs
  · exact (discard (requestRelease k)).bind fun _ => leave
  · exact pure ()

theorem query (text : String) : Unfetching (query (S := S) text) := by
  intro d
  rcases query_run text d with same | ⟨b, columns, made⟩
  · exact .of_handles (same ▸ rfl) (same ▸ rfl)
  · refine ⟨fun h x hx => ⟨x, ?_, rfl, id⟩, by rw [made, enrol_eq]⟩
    have other : h ≠ d.pool.handles.size := (Array.getElem?_eq_some_iff.1 hx).1.ne
    rw [made, getElem?_enrol, if_neg other, hx]

theorem readCell (k : Nat) (row : S.Row) (column : Nat) : Unfetching (readCell k row column) := by
  refine get_bind fun d => ?_
  cases d.pool.handles[k]? with
  | none => exact pure _
  | some x => exact fun d => .note rfl _

theorem claimCursor (k : Nat) : Unfetching (claimCursor (S := S) k) := by
  refine get_bind fun d => ?_
  cases d.pool.handles[k]? with
  | none => exact pure _
  | some x =>
    exact Unfetching.bind (fun _ => .update (fun _ => rfl) fun _ _ => rfl) fun _ => pure _

end Unfetching

theorem Deed.unfetching {deed : Deed S} (other : ∀ k, deed ≠ .fetch k) :
    Unfetching deed.perform := by
  cases deed with
  | acquire k => exact .discard (.acquire k)
  | endRead k => exact .endRead k
  | fetch k => exact absurd rfl (other k)
  | read k row column => exact .discard (.readCell k row column)
  | query text => exact .discard (.query text)
  | requestRelease k => exact .discard (.requestRelease k)
  | claimCursor k => exact .discard (.claimCursor k)
  | retain k => exact .retain k
  | drop k => exact .drop k
  | join => exact .still fun _ => ⟨rfl, rfl⟩
  | leave => exact .leave
  | releaseAll => exact .discard .releaseAll
  | reap n => exact .reap n
  | source change => exact fun _ => .of_handles rfl rfl

/-- The cursor of this result is taken, and at most `n` rows are to come. -/
def Spent (h n : Nat) (d : Desk S) : Prop :=
  ∃ x, d.pool.handles[h]? = some x ∧ x.cursorTaken = true ∧ S.rowsLeft x.buffer ≤ n

namespace Spent

theorem onward (s : Spent h n d) (o : Onward d d') : Spent h n d' := by
  obtain ⟨x, hx, taken, left⟩ := s
  obtain ⟨x', hx', buffer, taken'⟩ := o.handle h x hx
  exact ⟨x', hx', taken' taken, buffer ▸ left⟩

theorem fetch (s : Spent h n d) (k : Nat) : Spent h n ((Pool.fetch k).run d).2 := by
  obtain ⟨x, hx, taken, left⟩ := s
  cases hy : d.pool.handles[k]? with
  | none =>
    rw [fetch_run_none hy]
    exact ⟨x, hx, taken, left⟩
  | some y =>
    rw [fetch_run_some hy]
    show ∃ x, ((d.pool.note _).update k _).handles[h]? = some x ∧ _
    rw [getElem?_update]
    split_ifs with same
    · subst same
      obtain rfl := Option.some.inj (hx.symm.trans hy)
      refine ⟨_, congrArg _ hx, taken, ?_⟩
      exact (S.rowsLeft_fetch_le d.pool.link x.buffer d.engine).trans left
    · exact ⟨x, hx, taken, left⟩

theorem perform (s : Spent h n d) (deed : Deed S) : Spent h n (deed.perform.run d).2 := by
  by_cases fetched : ∃ k, deed = .fetch k
  · obtain ⟨k, rfl⟩ := fetched
    exact s.fetch k
  · exact s.onward (Deed.unfetching (not_exists.1 fetched) d)

theorem after (s : Spent h n d) (deeds : List (Deed S)) : Spent h n (Deed.after d deeds) := by
  induction deeds generalizing d with
  | nil => exact s
  | cons deed deeds ih => exact ih (s.perform deed)

end Spent

theorem Spent.fetchRead_row {token : S.Row} (s : Spent h n d)
    (found : (fetchRead h).run d = (.ok (.ok (some token)), d')) :
    ∃ m, n = m + 1 ∧ Spent h m d' := by
  rcases fetchRead_cases h d with ⟨refusal, -, run⟩ | ⟨x, w, e', hx, -, run, handle, -⟩
  · cases run.symm.trans found
  · obtain ⟨y, hy, taken, left⟩ := s
    obtain rfl := Option.some.inj (hx.symm.trans hy)
    have fetched : (S.fetch d.pool.link x.buffer d.engine).1 = .ok (some token) :=
      Except.ok.inj (congrArg Prod.fst (run.symm.trans found))
    obtain rfl : e' = d' := congrArg Prod.snd (run.symm.trans found)
    have fewer := S.rowsLeft_fetch_lt fetched
    obtain ⟨m, rfl⟩ : ∃ m, n = m + 1 := Nat.exists_eq_add_one.2 (by omega)
    exact ⟨m, rfl, _, handle, taken, Nat.le_of_lt_succ (fewer.trans_le left)⟩

end QueryLease

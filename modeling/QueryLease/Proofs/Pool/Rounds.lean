import QueryLease.Proofs.Pool.Onward

/-! A walk in rounds. Each round fetches once and hands the row to a callback, which may do to the
pool and to its own memory what it likes; the walk goes on until a callback or a fetch fails, or no
row is left. A result is walked once. -/

namespace QueryLease

open Pool

namespace Lease.Word

variable {w : Word}

theorem request_requested (requested : w.requested = true) : w.request = (none, w) := by
  obtain ⟨r, c, n, hn, rfl⟩ := w.exists_pack
  rw [requested_pack hn] at requested
  subst requested
  exact request_pack hn

theorem acquire_requested (requested : w.requested = true) :
    w.acquire = .error (if w.stage = .closed then .released else .closing) := by
  unfold acquire stage
  rw [requested]
  cases w.closed <;> rfl

end Lease.Word

variable {S : Source} {α β τ : Type} {h k n : Nat} {d d' : Desk S}

theorem Pool.word_drop (requested : (d.pool.word h).requested = true) :
    ((drop h).run d).2.pool.word h = d.pool.word h := by
  let less : Desk S :=
    { d with pool := d.pool.update h fun x => { x with owners := x.owners - 1 } }
  have word : less.pool.word h = d.pool.word h := by
    show (d.pool.update h _).word h = _
    rw [Pool.word, getElem?_update, if_pos rfl, Pool.word]
    cases d.pool.handles[h]? <;> rfl
  rw [drop_run]
  split_ifs
  · exact word
  · have same : ((requestRelease h).run less).2.pool.word h = less.pool.word h := by
      cases hx : less.pool.handles[h]? with
      | none =>
        have first := Lease.Word.request_requested (word ▸ requested)
        simp only [requestRelease, StateT.run_bind, StateT.run_get, pure_bind, first]
        show (less.pool.update h _).word h = _
        rw [word_absent hx, Pool.word, getElem?_update, if_pos rfl, hx]
        rfl
      | some x =>
        rw [requestRelease_run_again hx]
        exact Lease.Word.request_requested (word_eq hx ▸ word ▸ requested)
    obtain ⟨handles, -⟩ := leave_register.post (s := ((requestRelease h).run less).2) ⟨rfl, rfl⟩
    rw [← word, ← same, Pool.word, handles, Pool.word]

def beside (x : PoolM S β) : StateM (τ × Desk S) β := fun s =>
  ((x.run s.2).1, s.1, (x.run s.2).2)

/-- An action that does to a desk what deeds do. -/
def ByDeeds (x : StateM (τ × Desk S) β) : Prop :=
  ∀ s, ∃ deeds, (x.run s).2.2 = Deed.after s.2 deeds

namespace ByDeeds

theorem pure (b : β) : ByDeeds (S := S) (Pure.pure b : StateM (τ × Desk S) β) := fun _ => ⟨[], rfl⟩

theorem bind {x : StateM (τ × Desk S) α} {f : α → StateM (τ × Desk S) β} (hx : ByDeeds x)
    (hf : ∀ a, ByDeeds (f a)) : ByDeeds (x >>= f) := by
  intro s
  obtain ⟨deeds, done⟩ := hx s
  obtain ⟨more, done'⟩ := hf (x.run s).1 (x.run s).2
  refine ⟨deeds ++ more, ?_⟩
  rw [Deed.after, List.foldl_append]
  exact done'.trans (congrArg (Deed.after · more) done)

theorem deed {x : PoolM S β} (deed : Deed S) (hx : discard x = deed.perform) :
    ByDeeds (beside (τ := τ) x) :=
  fun s => ⟨[deed], congrArg (fun y : PoolM S Unit => (y.run s.2).2) hx⟩

end ByDeeds

/-- One call of a callback: the row, the desk from which it was fetched, and all that there was when
the call was made. -/
structure Visit (S : Source) (τ : Type) where
  row : Row S
  start : Desk S
  scene : τ × Desk S

abbrev Callback (S : Source) (τ α : Type) := Row S → StateM (τ × Desk S) (Except Error α)

namespace Visit

variable (v : Visit S τ) (call : Callback S τ α)

def answer : Except Error α := ((call v.row).run v.scene).1

def left : τ × Desk S := ((call v.row).run v.scene).2

end Visit

/-- The walk from row `k` on: the calls that it makes, what they answer as far as they succeed, and
how the walk ends. The row is given back after each call, and the cursor in the end. -/
inductive Walks (h : Nat) (call : Callback S τ α) :
    Nat → τ × Desk S → List (Visit S τ) → List α → Except Error Unit → τ × Desk S → Prop
  | refused {k : Nat} {t : τ} {d d' : Desk S} {e : Error} :
    (fetchRead h).run d = (.error e, d') →
    Walks h call k (t, d) [] [] (.error e) (t, ((drop h).run d').2)
  | failed {k : Nat} {t : τ} {d d' : Desk S} {fault : Fault} :
    (fetchRead h).run d = (.ok (.error fault), d') →
    Walks h call k (t, d) [] [] (.error (.iteration k fault)) (t, ((drop h).run d').2)
  | ended {k : Nat} {t : τ} {d d' : Desk S} :
    (fetchRead h).run d = (.ok (.ok none), d') →
    Walks h call k (t, d) [] [] (.ok ()) (t, ((drop h).run d').2)
  | stopped {k : Nat} {t : τ} {d d' : Desk S} {token : S.Row} {e : Error} {s : τ × Desk S} :
    (fetchRead h).run d = (.ok (.ok (some token)), d') →
    (call ⟨h, token, k⟩).run (t, ((retain h).run d').2) = (.error e, s) →
    Walks h call k (t, d) [⟨⟨h, token, k⟩, d, t, ((retain h).run d').2⟩] [] (.error e)
      (s.1, ((drop h).run ((drop h).run s.2).2).2)
  | visited {k : Nat} {t : τ} {d d' : Desk S} {token : S.Row} {a : α} {s s' : τ × Desk S}
    {visits : List (Visit S τ)} {as : List α} {outcome : Except Error Unit} :
    (fetchRead h).run d = (.ok (.ok (some token)), d') →
    (call ⟨h, token, k⟩).run (t, ((retain h).run d').2) = (.ok a, s) →
    Walks h call (k + 1) (s.1, ((drop h).run s.2).2) visits as outcome s' →
    Walks h call k (t, d) (⟨⟨h, token, k⟩, d, t, ((retain h).run d').2⟩ :: visits) (a :: as)
      outcome s'

namespace Walks

variable {call : Callback S τ α} {s s' : τ × Desk S} {visits : List (Visit S τ)} {as : List α}
  {outcome : Except Error Unit} {v : Visit S τ}

theorem rows (w : Walks h call k s visits as outcome s') :
    visits.map (fun v => (v.row.handle, v.row.index)) =
      (List.range' k visits.length).map fun i => (h, i) := by
  induction w with
  | refused | failed | ended => rfl
  | stopped => rfl
  | visited _ _ _ ih => exact congrArg (List.cons _) ih

theorem fetched (w : Walks h call k s visits as outcome s') (mem : v ∈ visits) :
    ∃ w, v.scene.2.pool.calls = .fetch h w :: v.start.pool.calls := by
  induction w with
  | refused | failed | ended => cases mem
  | stopped found =>
    cases List.mem_singleton.1 mem
    obtain ⟨w, calls⟩ := fetchRead_ok found
    exact ⟨w, calls⟩
  | visited found _ _ ih =>
    rcases List.mem_cons.1 mem with rfl | mem
    · obtain ⟨w, calls⟩ := fetchRead_ok found
      exact ⟨w, calls⟩
    · exact ih mem

theorem answers (w : Walks h call k s visits as (.ok ()) s') :
    visits.map (·.answer call) = as.map .ok := by
  generalize same : (Except.ok () : Except Error Unit) = outcome at w
  induction w with
  | refused | failed | stopped => cases same
  | ended => rfl
  | visited _ called _ ih =>
    exact congrArg₂ List.cons (congrArg Prod.fst called) (ih same)

theorem released (w : Walks h call k s visits as outcome s')
    (requested : (s.2.pool.word h).requested = true) :
    outcome = .error (if (s.2.pool.word h).stage = .closed then .released else .closing) ∧
      visits = [] ∧ s' = (s.1, ((drop h).run s.2).2) := by
  have refused := fetchRead_refused (Lease.Word.acquire_requested requested)
  cases w with
  | refused failed =>
    cases refused.symm.trans failed
    exact ⟨by split_ifs <;> rfl, rfl, rfl⟩
  | failed failed | ended failed | stopped failed | visited failed =>
    cases refused.symm.trans failed

/-- What a call comes to for the walk: its own error, or that of the next round if the release of
the result has been requested when it returns. -/
def Ends (h : Nat) (call : Callback S τ α) (v : Visit S τ) (e : Error) : Prop :=
  v.answer call = .error e ∨ (∃ a, v.answer call = .ok a) ∧
    ((v.left call).2.pool.word h).requested = true ∧
    e = if ((v.left call).2.pool.word h).stage = .closed then .released else .closing

theorem last {e : Error} (w : Walks h call k s visits as outcome s') (mem : v ∈ visits)
    (ends : Ends h call v e) : outcome = .error e ∧ visits.getLast? = some v ∧
      s'.2.pool.calls.filter Call.isFetch = (v.left call).2.pool.calls.filter Call.isFetch := by
  induction w with
  | refused | failed | ended => cases mem
  | @stopped k t d d' token e' s found called =>
    cases List.mem_singleton.1 mem
    have left : Visit.left ⟨⟨h, token, k⟩, d, t, ((retain h).run d').2⟩ call = s :=
      congrArg Prod.snd called
    rcases ends with failed | ⟨⟨a, ok⟩, -⟩
    · cases (congrArg Prod.fst called).symm.trans failed
      rw [left]
      exact ⟨rfl, rfl, ((Unfetching.drop h s.2).trans (Unfetching.drop h _)).calls⟩
    · cases (congrArg Prod.fst called).symm.trans ok
  | @visited k t d d' token a s s' visits as outcome found called rest ih =>
    rcases List.mem_cons.1 mem with rfl | mem
    · have left : Visit.left ⟨⟨h, token, k⟩, d, t, ((retain h).run d').2⟩ call = s :=
        congrArg Prod.snd called
      rcases ends with failed | ⟨-, requested, rfl⟩
      · cases (congrArg Prod.fst called).symm.trans failed
      · rw [left] at requested ⊢
        have word := word_drop requested
        obtain ⟨ended, rfl, rfl⟩ := rest.released (word ▸ requested)
        rw [word] at ended
        exact ⟨ended, rfl, ((Unfetching.drop h s.2).trans (Unfetching.drop h _)).calls⟩
    · obtain ⟨ended, final, calls⟩ := ih mem
      refine ⟨ended, ?_, calls⟩
      rw [List.getLast?_cons, final]
      rfl

end Walks

def visiting {σ : Type} (call : Callback S τ α) (keep : α → σ → σ) (acc : σ) (r : Row S) :
    StateM (τ × Desk S) (σ × Except Error Unit) := do
  match ← call r with
  | .ok a => return (keep a acc, .ok ())
  | .error e => return (acc, .error e)

section

variable {call : Callback S τ α} {c : Cursor S} {s : τ × Desk S} {t : τ}

def Rounds (h : Nat) (call : Callback S τ α) (k : Nat) (s : τ × Desk S)
    (walk : {σ : Type} → (α → σ → σ) → σ → StateM (τ × Desk S) (σ × Except Error Unit)) : Prop :=
  ∃ visits as outcome s', Walks h call k s visits as outcome s' ∧
    ∀ {σ : Type} (keep : α → σ → σ) (acc : σ),
      (walk keep acc).run s = ((as.foldl (fun acc a => keep a acc) acc, outcome), s')

theorem beside_run {x : PoolM S β} {b : β} (hx : x.run d = (b, d')) :
    (beside x).run (t, d) = (b, t, d') := by
  show ((x.run d).1, t, (x.run d).2) = _
  rw [hx]

section

variable {σ : Type} {fail : Error → Error}
  {visit : σ → Row S → StateM (τ × Desk S) (σ × Except Error Unit)}
  {rest : σ → Cursor S → StateM (τ × Desk S) (σ × Except Error Unit)} {acc acc' : σ}
  {c' : Cursor S} {r : Row S} {e : Error}

theorem visitRow_run_none (moved : c.next.run d = ((none, c'), d')) (handle : c'.handle = h) :
    (visitRow beside fail visit rest acc c).run (t, d) =
      ((acc, .ok ()), t, ((drop h).run d').2) := by
  rw [visitRow, StateT.run_bind, beside_run moved, ← handle]
  rfl

theorem visitRow_run_error (moved : c.next.run d = ((some (.error e), c'), d'))
    (handle : c'.handle = h) : (visitRow beside fail visit rest acc c).run (t, d) =
      ((acc, .error (fail e)), t, ((drop h).run d').2) := by
  rw [visitRow, StateT.run_bind, beside_run moved, ← handle]
  rfl

theorem visitRow_run_stopped (moved : c.next.run d = ((some (.ok r), c'), d'))
    (handle : c'.handle = h) (row : r.handle = h)
    (visited : (visit acc r).run (t, d') = ((acc', .error e), s)) :
    (visitRow beside fail visit rest acc c).run (t, d) =
      ((acc', .error e), s.1, ((drop h).run ((drop h).run s.2).2).2) := by
  rw [visitRow, StateT.run_bind, beside_run moved]
  show (visit acc r >>= _).run (t, d') = _
  rw [StateT.run_bind, visited]
  show (_, s.1, ((drop c'.handle).run ((drop r.handle).run s.2).2).2) = _
  rw [handle, row]

theorem visitRow_run_visited (moved : c.next.run d = ((some (.ok r), c'), d'))
    (row : r.handle = h) (visited : (visit acc r).run (t, d') = ((acc', .ok ()), s)) :
    (visitRow beside fail visit rest acc c).run (t, d) =
      (rest acc' c').run (s.1, ((drop h).run s.2).2) := by
  subst row
  rw [visitRow, StateT.run_bind, beside_run moved]
  show (visit acc r >>= _).run (t, d') = _
  rw [StateT.run_bind, visited]
  rfl

end

variable {r : Row S} {s' : τ × Desk S}

theorem visiting_run_error {e : Error} (called : (call r).run s = (.error e, s')) {σ : Type}
    (keep : α → σ → σ) (acc : σ) :
    (visiting call keep acc r).run s = ((acc, .error e), s') := by
  rw [visiting, StateT.run_bind, called]
  rfl

theorem visiting_run_ok {a : α} (called : (call r).run s = (.ok a, s')) {σ : Type}
    (keep : α → σ → σ) (acc : σ) :
    (visiting call keep acc r).run s = ((keep a acc, .ok ()), s') := by
  rw [visiting, StateT.run_bind, called]
  rfl

theorem visitRow_rounds (acts : ∀ r, ByDeeds (call r)) (handle : c.handle = h)
    (ahead : c.exhausted = false) (spent : Spent h n d)
    {rest : {σ : Type} → (α → σ → σ) → σ → Cursor S → StateM (τ × Desk S) (σ × Except Error Unit)}
    (hr : ∀ token m s, n = m + 1 → Spent h m s.2 →
      Rounds h call (c.fetched + 1) s fun keep acc => rest keep acc (c.on token)) :
    Rounds h call c.fetched (t, d) fun keep acc =>
      visitRow beside id (visiting call keep) (rest keep) acc c := by
  subst handle
  rcases fetched : (fetchRead c.handle).run d with ⟨e | fault | _ | token, d'⟩
  · exact ⟨[], [], _, _, .refused fetched, fun _ _ =>
      visitRow_run_error (c.next_run_error ahead fetched) rfl⟩
  · exact ⟨[], [], _, _, .failed fetched, fun _ _ =>
      visitRow_run_error (c.next_run_failed ahead fetched) rfl⟩
  · exact ⟨[], [], _, _, .ended fetched, fun _ _ =>
      visitRow_run_none (c.next_run_ended ahead fetched) rfl⟩
  · have found := c.next_run_row ahead fetched
    rcases called : (call ⟨c.handle, token, c.fetched⟩).run (t, ((retain c.handle).run d').2) with
      ⟨e | a, s⟩
    · exact ⟨_, [], _, _, .stopped fetched called, fun keep acc =>
        visitRow_run_stopped found rfl rfl (visiting_run_error called keep acc)⟩
    -- Whatever the callback did, one row less is to come.
    · obtain ⟨m, same, left⟩ := spent.fetchRead_row fetched
      have after : Spent c.handle m s.2 := by
        obtain ⟨deeds, done⟩ := acts ⟨c.handle, token, c.fetched⟩ (t, ((retain c.handle).run d').2)
        rw [called] at done
        exact done ▸ (left.onward (Unfetching.retain c.handle d')).after deeds
      obtain ⟨visits, as, outcome, s', walks, run⟩ :=
        hr token m (s.1, ((drop c.handle).run s.2).2) same
          (after.onward (Unfetching.drop c.handle s.2))
      exact ⟨_, a :: as, outcome, s', .visited fetched called walks, fun keep acc =>
        (visitRow_run_visited found rfl (visiting_run_ok called keep acc)).trans
          (run keep (keep a acc))⟩

theorem visitRows_rounds (acts : ∀ r, ByDeeds (call r)) (handle : c.handle = h)
    (ahead : c.exhausted = false) (spent : Spent h n d) :
    Rounds h call c.fetched (t, d) fun keep acc =>
      visitRows beside id (visiting call keep) n acc c := by
  induction n generalizing c t d with
  | zero => exact visitRow_rounds acts handle ahead spent fun _ _ _ none => by cases none
  | succ n ih =>
    refine visitRow_rounds acts handle ahead spent fun token m s same left => ?_
    obtain rfl := Nat.succ.inj same
    exact ih (c := c.on token) (t := s.1) handle rfl left

end

/-- Whoever asks for the cursor of this result, by whatever way, is told that it is taken, and
nothing is done. -/
structure Taken (h : Nat) (d : Desk S) : Prop where
  take : (Cursor.take h).run d = (.error (.invalidState .cursorTaken), d)
  forEachRow : ∀ (τ : Type) (t : τ) (visit : Callback S τ Unit),
    (forEachRow beside h visit).run (t, d) = (.error (.invalidState .cursorTaken), t, d)
  collectRows : ∀ (τ α : Type) (t : τ) (call : Callback S τ α),
    (collectRows beside h call).run (t, d) = (.error (.invalidState .cursorTaken), t, d)

theorem claimCursor_run {x : Handle S} (hx : d.pool.handles[h]? = some x) :
    (claimCursor h).run d =
      (!x.cursorTaken,
        { d with pool := d.pool.update h fun y => { y with cursorTaken := true } }) := by
  simp only [claimCursor, handle?, StateT.run_bind, StateT.run_get, pure_bind, hx]
  rfl

theorem Spent.take_run (s : Spent h n d) :
    (Cursor.take h).run d = (.error (.invalidState .cursorTaken), d) := by
  obtain ⟨x, hx, taken, -⟩ := s
  have same : d.pool.update h (fun y => { y with cursorTaken := true }) = d.pool :=
    update_eq_self fun y hy => by
      obtain rfl := Option.some.inj (hx.symm.trans hy)
      rw [← taken]
  have claimed : (claimCursor h).run d = (false, d) := by
    rw [claimCursor_run hx, taken, same]
    rfl
  rw [Cursor.take, StateT.run_bind, claimed]
  rfl

theorem Spent.taken (s : Spent h n d) : Taken h d where
  take := s.take_run
  forEachRow τ t visit := by
    rw [Pool.forEachRow, StateT.run_bind, fold, StateT.run_bind, beside_run s.take_run]
    rfl
  collectRows τ α t call := by
    rw [Pool.collectRows, StateT.run_bind, fold, StateT.run_bind, beside_run s.take_run]
    rfl

theorem take_run_first {x : Handle S} (hx : d.pool.handles[h]? = some x)
    (untaken : x.cursorTaken = false) : ∃ d', (Cursor.take h).run d = (.ok { handle := h }, d') ∧
      (rowsLeft h).run d' = (S.rowsLeft x.buffer, d') ∧ Spent h (S.rowsLeft x.buffer) d' := by
  let claimed : Desk S :=
    { d with pool := d.pool.update h fun y => { y with cursorTaken := true } }
  have claim : (claimCursor h).run d = (true, claimed) := by
    rw [claimCursor_run hx, untaken]
    rfl
  have first : claimed.pool.handles[h]? = some { x with cursorTaken := true } := by
    show (d.pool.update h _).handles[h]? = _
    rw [getElem?_update, if_pos rfl, hx]
    rfl
  have handle : ((retain h).run claimed).2.pool.handles[h]? =
      some { x with cursorTaken := true, owners := x.owners + 1 } := by
    show (claimed.pool.update h _).handles[h]? = _
    rw [getElem?_update, if_pos rfl, first]
    rfl
  refine ⟨((retain h).run claimed).2, ?_, ?_, _, handle, rfl, le_rfl⟩
  · rw [Cursor.take, StateT.run_bind, claim]
    rfl
  · show (((retain h).run claimed).2.pool.handles[h]?.elim 0 _, _) = _
    rw [handle]
    rfl

theorem fetchRead_spent (k : Nat) :
    Keeps (Spent h n) (fetchRead (S := S) k) fun _ => Spent h n := by
  refine Alike.bind (q := fun _ => Spent h n)
    (Alike.keeps fun d s => s.onward (Unfetching.acquire k d)) fun started => ?_
  cases started with
  | error e => exact Alike.still
  | ok _ =>
    refine Alike.bind (q := fun _ => Spent h n) (Alike.keeps fun d s => s.fetch k) fun fetched => ?_
    exact Alike.bind (q := fun _ => Spent h n)
      (Alike.keeps fun d s => s.onward (Unfetching.endRead k d)) fun _ => Alike.still

theorem next_spent (c : Cursor S) : Keeps (Spent h n) c.next fun _ => Spent h n := by
  refine Alike.keeps fun d s => ?_
  cases ended : c.exhausted with
  | true =>
    rw [c.next_run_exhausted ended]
    exact s
  | false =>
    have fetched := (fetchRead_spent c.handle).post s
    rcases run : (fetchRead c.handle).run d with ⟨e | fault | _ | token, d'⟩ <;> rw [run] at fetched
    · rw [c.next_run_error ended run]
      exact fetched
    · rw [c.next_run_failed ended run]
      exact fetched
    · rw [c.next_run_ended ended run]
      exact fetched
    · rw [c.next_run_row ended run]
      exact fetched.onward (Unfetching.retain c.handle d')

section

variable {σ ε : Type} (fail : Error → ε)
  {visit : σ → Row S → StateM (τ × Desk S) (σ × Except ε Unit)}

abbrev Leaves (h n : Nat) (x : StateM (τ × Desk S) β) : Prop :=
  Keeps (fun s => Spent h n s.2) x fun _ s => Spent h n s.2

theorem Leaves.beside {x : PoolM S β} (hx : Keeps (Spent h n) x fun _ => Spent h n) :
    Leaves h n (beside (τ := τ) x) := Alike.keeps fun _ => hx.post

theorem Leaves.drop (k : Nat) : Leaves h n (QueryLease.beside (τ := τ) (Pool.drop (S := S) k)) :=
  .beside (Alike.keeps fun d s => s.onward (Unfetching.drop k d))

theorem Leaves.of_byDeeds {x : StateM (τ × Desk S) β} (acts : ByDeeds x) : Leaves h n x := by
  refine Alike.keeps fun s spent => ?_
  obtain ⟨deeds, done⟩ := acts s
  exact done ▸ spent.after deeds

theorem visitRow_leaves (acts : ∀ acc r, ByDeeds (visit acc r))
    {rest : σ → Cursor S → StateM (τ × Desk S) (σ × Except ε Unit)}
    (hr : ∀ acc c, Leaves h n (rest acc c)) (acc : σ) (c : Cursor S) :
    Leaves h n (visitRow beside fail visit rest acc c) := by
  refine Alike.bind (Leaves.beside (next_spent c)) fun moved => ?_
  rcases moved with ⟨_ | e | r, c'⟩
  · exact Alike.bind (Leaves.drop c'.handle) fun _ => Alike.still
  · exact Alike.bind (Leaves.drop c'.handle) fun _ => Alike.still
  · refine Alike.bind (Leaves.of_byDeeds (acts acc r)) fun visited => ?_
    refine Alike.bind (Leaves.drop r.handle) fun _ => ?_
    rcases visited with ⟨acc, e | _⟩
    · exact Alike.bind (Leaves.drop c'.handle) fun _ => Alike.still
    · exact hr acc c'

theorem visitRows_leaves (acts : ∀ acc r, ByDeeds (visit acc r)) (count : Nat) (acc : σ)
    (c : Cursor S) : Leaves h n (visitRows beside fail visit count acc c) := by
  induction count generalizing acc c with
  | zero =>
    exact visitRow_leaves fail acts
      (fun _ c => Alike.bind (Leaves.drop c.handle) fun _ => Alike.still) acc c
  | succ count ih => exact visitRow_leaves fail acts ih acc c

theorem fold_run_first {x : Handle S} (hx : d.pool.handles[h]? = some x)
    (untaken : x.cursorTaken = false) (t : τ) (acc : σ)
    (visit : σ → Row S → StateM (τ × Desk S) (σ × Except ε Unit)) :
    Spent h (S.rowsLeft x.buffer) ((Cursor.take h).run d).2 ∧
      (fold beside fail h acc visit).run (t, d) =
        (visitRows beside fail visit (S.rowsLeft x.buffer) acc { handle := h }).run
          (t, ((Cursor.take h).run d).2) := by
  obtain ⟨d', take, left, spent⟩ := take_run_first hx untaken
  rw [take, fold, StateT.run_bind, beside_run take]
  refine ⟨spent, ?_⟩
  show (beside (rowsLeft h) >>= _).run (t, d') = _
  rw [StateT.run_bind, beside_run left]
  rfl

theorem fold_taken {x : Handle S} (hx : d.pool.handles[h]? = some x)
    (untaken : x.cursorTaken = false) (acts : ∀ acc r, ByDeeds (visit acc r)) (t : τ) (acc : σ)
    (deeds : List (Deed S)) :
    Taken h (Deed.after ((fold beside fail h acc visit).run (t, d)).2.2 deeds) := by
  obtain ⟨spent, run⟩ := fold_run_first fail hx untaken t acc visit
  rw [run]
  have left := (visitRows_leaves fail acts (S.rowsLeft x.buffer) acc { handle := h }).post
    (s := (t, ((Cursor.take h).run d).2)) spent
  exact (Spent.after left deeds).taken

end

theorem acts_visiting {call : Callback S τ α} (acts : ∀ r, ByDeeds (call r)) {σ : Type}
    (keep : α → σ → σ) (acc : σ) (r : Row S) : ByDeeds (visiting call keep acc r) := by
  intro s
  obtain ⟨deeds, done⟩ := acts r s
  refine ⟨deeds, Eq.trans ?_ done⟩
  rcases called : (call r).run s with ⟨e | a, s'⟩
  · rw [visiting_run_error called keep acc]
  · rw [visiting_run_ok called keep acc]

theorem visiting_eq_visit (call : Callback S τ α) :
    visiting call (fun _ acc => acc) =
      fun (_ : Unit) r => do return ((), ← (do return (← call r).map fun _ => ())) := by
  funext _ r
  rw [visiting, bind_assoc]
  refine bind_congr fun outcome => ?_
  cases outcome <;> rfl

/-- A walk is made once, row by row from the first. Each row is fetched and handed out before the
next is, and the first failure is the last thing that happens: the callback's own, or that of the
fetch, which fails if the result has been closed meanwhile. What a collection answers is what a walk
answers with all that it has gathered. However the first walk has ended, by a panic too, and even if
its cursor has done nothing, there is no other. -/
theorem walks_once {call : Callback S τ α} (acts : ∀ r, ByDeeds (call r)) {x : Handle S}
    (hx : d.pool.handles[h]? = some x) (untaken : x.cursorTaken = false) (t : τ) :
    let taken := ((Cursor.take h).run d).2
    (∃ visits as outcome s',
      Walks h call 0 (t, taken) visits as outcome s' ∧
      (forEachRow beside h fun r => do return (← call r).map fun _ => ()).run (t, d) =
        (outcome, s') ∧
      (collectRows beside h call).run (t, d) = (outcome.map fun _ => as, s') ∧
      visits.map (fun v => (v.row.handle, v.row.index)) =
        (List.range visits.length).map (fun i => (h, i)) ∧
      (∀ v ∈ visits, ∃ w, v.scene.2.pool.calls = .fetch h w :: v.start.pool.calls) ∧
      (∀ v ∈ visits, ∀ e, Walks.Ends h call v e → outcome = .error e ∧
        visits.getLast? = some v ∧
        s'.2.pool.calls.filter Call.isFetch = (v.left call).2.pool.calls.filter Call.isFetch) ∧
      (outcome = .ok () → visits.map (·.answer call) = as.map .ok) ∧
      ∀ deeds, Taken h (Deed.after s'.2 deeds)) ∧
    (Cursor.take h).run d = (.ok { handle := h }, taken) ∧
    (∀ deeds, Taken h (Deed.after taken deeds)) ∧
    ∀ (σ ε : Type) (fail : Error → ε) (acc : σ)
      (visit : σ → Row S → StateM (τ × Desk S) (σ × Except ε Unit)),
      (∀ acc r, ByDeeds (visit acc r)) → ∀ deeds,
        Taken h (Deed.after ((fold beside fail h acc visit).run (t, d)).2.2 deeds) := by
  intro taken
  obtain ⟨d', take, -, spent⟩ := take_run_first hx untaken
  -- Both loops are one fold, with an accumulator of their own.
  have first {σ : Type} (keep : α → σ → σ) (acc : σ) :=
    (fold_run_first id hx untaken t acc (visiting call keep)).2
  have same : taken = d' := congrArg Prod.snd take
  rw [← same] at take spent
  obtain ⟨visits, as, outcome, s', walks, run⟩ :=
    visitRows_rounds (c := { handle := h }) (t := t) acts rfl rfl spent
  have walked {σ : Type} (keep : α → σ → σ) (acc : σ) := (first keep acc).trans (run keep acc)
  refine ⟨⟨visits, as, outcome, s', walks, ?_, ?_, ?_, fun v => walks.fetched,
    fun v mem e => walks.last mem, fun ended => ?_, fun deeds => ?_⟩, take,
    fun deeds => (spent.after deeds).taken,
    fun σ ε fail acc visit acts => fold_taken fail hx untaken acts t acc⟩
  · rw [Pool.forEachRow, ← visiting_eq_visit, StateT.run_bind, walked]
    rfl
  · show ((fold beside id h [] (visiting call List.cons)) >>= _).run (t, d) = _
    rw [StateT.run_bind, walked, List.foldl_flip_cons_eq_append', List.append_nil]
    show (outcome.map fun _ => as.reverse.reverse, s') = _
    rw [List.reverse_reverse]
  · rw [walks.rows, List.range_eq_range']
  · subst ended
    exact walks.answers
  · have left := fold_taken id hx untaken (acts_visiting acts fun _ acc => acc) t () deeds
    rwa [walked] at left

def pair : Desk .tables where
  pool :=
    { link := ()
      mode := .inline
      handles := #[
        { buffer := .mk ⟨{ columns := ["n"], rows := [[.integer 3], [.integer 5]] }, none⟩ 0 0
          columns := ["n"] }] }
  engine := {}

def glance : Callback .tables Unit Bool := fun r => do
  let _ ← beside (acquire r.handle)
  let cell ← beside (readCell r.handle r.token 0)
  beside (endRead r.handle)
  let _ ← beside (requestRelease r.handle)
  return cell.map Cell.isNull

theorem walks_once_pair :
    (∀ r, ByDeeds (glance r)) ∧ (∃ x, pair.pool.handles[0]? = some x ∧ x.cursorTaken = false) ∧
      let walked := (collectRows beside 0 glance).run ((), pair)
      walked.1 = .error .released ∧ ∀ deeds, Taken 0 (Deed.after walked.2.2 deeds) := by
  have acts (r : Row .tables) : ByDeeds (glance r) :=
    (ByDeeds.deed (.acquire r.handle) rfl).bind fun _ =>
      (ByDeeds.deed (.read r.handle r.token 0) rfl).bind fun _ =>
        (ByDeeds.deed (.endRead r.handle) rfl).bind fun _ =>
          (ByDeeds.deed (.requestRelease r.handle) rfl).bind fun _ => ByDeeds.pure _
  refine ⟨acts, ⟨_, rfl, rfl⟩, rfl, fun deeds => ?_⟩
  obtain ⟨⟨visits, as, outcome, s', -, -, collected, -, -, -, -, taken⟩, -⟩ :=
    walks_once (d := pair) (h := 0) acts rfl rfl ()
  rw [collected]
  exact taken deeds

end QueryLease

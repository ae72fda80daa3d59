import QueryLease.Pool.Walk
import QueryLease.Proofs.Akin

namespace QueryLease.Pool

variable {S : Source} {O W α β : Type} [Preorder W]

structure Kinship (S : Source) (O W : Type) [Preorder W] where
  rel : O → W → Desk S → Desk S → Prop
  twin : W → Nat → Nat → Prop
  twin_mono {v w : W} {h k : Nat} : v ≤ w → twin v h k → twin w h k
  handle {o : O} {w : W} {d e : Desk S} {h k : Nat} : rel o w d e → twin w h k →
    d.pool.handles[h]? = e.pool.handles[k]?
  modes : Mode → Mode → Prop
  mode {o : O} {w : W} {d e : Desk S} : rel o w d e → modes d.pool.mode e.pool.mode
  update {o : O} {w : W} {d e : Desk S} {h k : Nat} (f : Handle S → Handle S) :
    rel o w d e → twin w h k →
      rel o w { d with pool := d.pool.update h f } { e with pool := e.pool.update k f }
  released {o : O} {w : W} {d e : Desk S} : rel o w d e →
    rel o w { d with pool.released := d.pool.released + 1 }
      { e with pool.released := e.pool.released + 1 }
  handOver {w : W} {h k : Nat} (b : S.Buffer) : twin w h k →
    Akin rel w (Pool.handOver h b) (Pool.handOver k b) Same
  reap_left {o : O} {w : W} {d e : Desk S} (n : Nat) : rel o w d e →
    rel o w ((reap n).run d).2 e
  reap_right {o : O} {w : W} {d e : Desk S} (n : Nat) : rel o w d e →
    rel o w d ((reap n).run e).2
  join {w : W} : Akin rel w Pool.join Pool.join Same
  leave {w : W} : Akin rel w Pool.leave Pool.leave Same
  query {w : W} (text : String) : Akin rel w (Pool.query text) (Pool.query text) (Both twin)
  fetch {w : W} {h k : Nat} : twin w h k → Akin rel w (Pool.fetch h) (Pool.fetch k) Same
  readCell {w : W} {h k : Nat} (row : S.Row) (column : Nat) : twin w h k →
    Akin rel w (Pool.readCell h row column) (Pool.readCell k row column) Same

theorem attend_cases (n : Nat) (d : Desk S) :
    (attend n).run d = ((), d) ∨ (attend n).run d = (reap n).run d := by
  by_cases gone : d.pool.owners = 0
  · left
    simp [attend, gone]
    rfl
  · right
    simp [attend, gone]

theorem settle_cases (prompt : Bool) (d : Desk S) :
    (settle prompt).run d = ((), d) ∨ ∃ n, (settle prompt).run d = (reap n).run d := by
  by_cases awake : prompt ∧ d.pool.mode = .background
  · have attending : (settle prompt).run d = (attend d.pool.queue.length).run d := by
      simp [settle, awake]
    rw [attending]
    exact (attend_cases _ d).imp_right fun h => ⟨_, h⟩
  · left
    simp [settle, awake]
    rfl

namespace Kinship

variable (K : Kinship S O W) {o : O} {w : W} {d e : Desk S} {h k : Nat}

theorem word (r : K.rel o w d e) (ht : K.twin w h k) : e.pool.word k = d.pool.word h := by
  rw [Pool.word, Pool.word, K.handle r ht]

theorem owned (r : K.rel o w d e) (ht : K.twin w h k) : e.pool.owned k = d.pool.owned h := by
  rw [Pool.owned, Pool.owned, K.handle r ht]

theorem columns (r : K.rel o w d e) (ht : K.twin w h k) :
    e.pool.columns k = d.pool.columns h := by
  rw [Pool.columns, Pool.columns, K.handle r ht]

theorem edit (f : Handle S → Handle S) (ht : K.twin w h k) :
    Akin K.rel w (Pool.edit fun p => p.update h f) (Pool.edit fun p => p.update k f) Same :=
  Akin.still fun _ _ _ r => ⟨K.update f r ht, rfl⟩

theorem handle? (ht : K.twin w h k) : Akin K.rel w (Pool.handle? h) (Pool.handle? k) Same :=
  Akin.still fun _ _ _ r => ⟨r, K.handle r ht⟩

theorem finish (ht : K.twin w h k) : Akin K.rel w (Pool.finish h) (Pool.finish k) Same := by
  refine (K.handle? ht).bind fun v x y hv same => ?_
  obtain rfl : x = y := same
  have ht := K.twin_mono hv ht
  cases x with
  | none => exact Akin.pure rfl
  | some x =>
    cases hw : x.word.finish? with simp only [hw]
    | none => exact Akin.pure rfl
    | some u =>
      exact (K.edit _ ht).bind fun v _ _ hv _ => K.handOver x.buffer (K.twin_mono hv ht)

theorem acquire (ht : K.twin w h k) : Akin K.rel w (Pool.acquire h) (Pool.acquire k) Same := by
  refine Akin.get_bind fun o d e r => ?_
  rw [K.word r ht]
  cases (d.pool.word h).acquire with
  | error refusal => exact Akin.pure rfl
  | ok u => exact (K.edit _ ht).bind fun _ _ _ _ _ => Akin.pure rfl

theorem endRead (ht : K.twin w h k) : Akin K.rel w (Pool.endRead h) (Pool.endRead k) Same := by
  refine Akin.get_bind fun o d e r => ?_
  rw [K.word r ht]
  refine (K.edit _ ht).bind fun v _ _ hv _ => ?_
  split
  · exact K.finish (K.twin_mono hv ht)
  · exact Akin.pure rfl

theorem requestRelease (ht : K.twin w h k) :
    Akin K.rel w (Pool.requestRelease h) (Pool.requestRelease k) Same := by
  refine Akin.get_bind fun o d e r => ?_
  rw [K.word r ht]
  refine (K.edit _ ht).bind fun v _ _ hv _ => ?_
  split
  · exact Akin.pure rfl
  · refine Akin.bind (Akin.still fun _ _ _ r => ⟨K.released r, trivial⟩)
      fun v' _ _ hv' (_ : True) => ?_
    split_ifs
    · exact (K.finish (K.twin_mono (hv.trans hv') ht)).bind fun _ _ _ _ _ => Akin.pure rfl
    · exact Akin.pure rfl

theorem retain (ht : K.twin w h k) : Akin K.rel w (Pool.retain h) (Pool.retain k) Same :=
  K.edit _ ht

theorem drop (ht : K.twin w h k) : Akin K.rel w (Pool.drop h) (Pool.drop k) Same := by
  refine (K.edit _ ht).bind fun v _ _ hv _ => Akin.get_bind fun o d e r => ?_
  rw [K.owned r (K.twin_mono hv ht)]
  split_ifs
  · exact (K.requestRelease (K.twin_mono hv ht)).discard.bind fun _ _ _ _ _ => K.leave
  · exact Akin.pure rfl

theorem claimCursor (ht : K.twin w h k) :
    Akin K.rel w (Pool.claimCursor h) (Pool.claimCursor k) Same := by
  refine (K.handle? ht).bind fun v x y hv same => ?_
  obtain rfl : x = y := same
  cases x with
  | none => exact Akin.pure rfl
  | some x => exact (K.edit _ (K.twin_mono hv ht)).bind fun _ _ _ _ _ => Akin.pure rfl

theorem rowsLeft (ht : K.twin w h k) : Akin K.rel w (Pool.rowsLeft h) (Pool.rowsLeft k) Same :=
  (K.handle? ht).bind fun _ x y _ (same : x = y) => Akin.pure (same ▸ rfl)

theorem collect : Akin K.rel w Pool.collect Pool.collect fun _ _ _ => True :=
  Akin.still fun _ _ _ r => ⟨K.reap_left _ (K.reap_right _ r), trivial⟩

theorem attend_right (n : Nat) (r : K.rel o w d e) : K.rel o w d ((Pool.attend n).run e).2 := by
  rcases attend_cases n e with h | h <;> rw [h]
  · exact r
  · exact K.reap_right n r

theorem settle_left (prompt : Bool) (r : K.rel o w d e) :
    K.rel o w ((Pool.settle prompt).run d).2 e := by
  rcases settle_cases prompt d with h | ⟨n, h⟩ <;> rw [h]
  · exact r
  · exact K.reap_left n r

theorem settle_right (prompt : Bool) (r : K.rel o w d e) :
    K.rel o w d ((Pool.settle prompt).run e).2 := by
  rcases settle_cases prompt e with h | ⟨n, h⟩ <;> rw [h]
  · exact r
  · exact K.reap_right n r

end Kinship

end QueryLease.Pool

import QueryLease.Pool.Walk
import QueryLease.Proofs.Pool.Ownership

namespace QueryLease

variable {S : Source} {B α β : Type}

namespace Pool

variable {U : Upkeep S B} {pre X : Stake} {x y : PoolM S α} {f g : α → PoolM S β}
  {post : α → Stake} {post' : β → Stake} {h : Nat}

namespace Trades

theorem bind (hx : Trades U pre x y post) (hf : ∀ a, Trades U (post a) (f a) (g a) post') :
    Trades U pre (x >>= f) (y >>= g) post' :=
  fun G A hb hA => (hx G A hb hA).bind fun a => hf a G A hb hA

theorem pure {a : α} (h : pre = post a) : Trades U pre (pure a) (pure a) post := fun _ _ _ _ =>
  Alike.of_pure fun _ => h ▸ id

theorem frame (hX : Backed X) (hx : Trades U pre x y post) :
    Trades U (X + pre) x y fun a => X + post a := by
  intro G A hb hA
  simp only [← add_assoc]
  exact hx (G + X) A (hb.add hX) hA

theorem discard {X : Stake} (hx : Trades U pre x y fun _ => X) :
    Trades U pre (discard x) (discard y) fun _ => X :=
  fun G A hb hA => Alike.discard (hx G A hb hA)

theorem look {k : Desk S → α} (h : ∀ d, x.run d = (k d, d)) : Trades U X x x fun _ => X := by
  intro G A _ _ d hd
  refine ⟨rfl, ?_⟩
  rw [h]
  exact hd

end Trades

theorem Trades.gains {ε : Type} {x y : PoolM S (Except ε α)} {g : α → Stake}
    (h : Trades U X x y (gained X g)) : Trades U X x y fun outcome => X + gained 0 g outcome := by
  intro G A hb hA
  refine (h G A hb hA).weaken (fun _ => id) ?_
  rintro (e | a) d hd
  · simpa only [gained_error, add_zero] using hd
  · simpa only [gained_ok, zero_add] using hd

/-- A monad to which pool actions are lifted, with what its own actions trade. -/
structure Trading (U : Upkeep S B) (m : Type → Type) [Monad m]
    (onPool : {β : Type} → PoolM S β → m β) where
  trades : {α : Type} → Stake → m α → m α → (α → Stake) → Prop
  pure {α : Type} {a : α} {pre : Stake} {post : α → Stake} : pre = post a →
    trades pre (pure a) (pure a) post
  bind {α β : Type} {pre : Stake} {x y : m α} {f g : α → m β} {post : α → Stake}
    {post' : β → Stake} : trades pre x y post → (∀ a, trades (post a) (f a) (g a) post') →
      trades pre (x >>= f) (y >>= g) post'
  frame {α : Type} {h : Nat} {pre : Stake} {x y : m α} {post : α → Stake} :
    trades pre x y post → trades (one (.owner h) + pre) x y fun a => one (.owner h) + post a
  lift {α : Type} {pre : Stake} {x y : PoolM S α} {post : α → Stake} : pre ≠ 0 →
    Trades U pre x y post → trades pre (onPool x) (onPool y) post

def Trading.pool (U : Upkeep S B) : Trading U (PoolM S) id where
  trades := Trades U
  pure := Trades.pure
  bind := Trades.bind
  frame := Trades.frame (.owner _)
  lift _ := id

end Pool

open Pool

variable {U : Upkeep S B} {m : Type → Type} [Monad m] {onPool : {β : Type} → PoolM S β → m β}

namespace Row

theorem columns_trades (r : Row S) {X : Stake} : Trades U X r.columns r.columns fun _ => X :=
  Trades.look fun _ => rfl

theorem checkColumn_trades (r : Row S) (column : Nat) {X : Stake} :
    Trades U X (r.checkColumn column) (r.checkColumn column) fun _ => X :=
  Trades.look fun _ => rfl

theorem clone_trades (r : Row S) : Trades U (one (.owner r.handle)) r.clone r.clone
    fun r' => one (.owner r.handle) + one (.owner r'.handle) :=
  (retain_trades (one_self _)).bind fun _ => Trades.pure rfl

theorem beginRead_trades (r : Row S) (column : Nat) :
    Trades U (one (.owner r.handle)) (r.beginRead column) (r.beginRead column)
      (gained (one (.owner r.handle)) fun _ => one (.read r.handle)) := by
  refine (acquire_trades (one_self _)).bind fun outcome => ?_
  match outcome with
  | .error e => exact Trades.pure rfl
  | .ok () =>
    refine (readCell_trades r.handle r.token column).bind fun cell => ?_
    match cell with
    | .error e => exact (endRead_trades r.handle).bind fun _ => Trades.pure rfl
    | .ok cell => exact Trades.pure rfl

theorem backed_read (h : Nat) : Backed (one (.owner h) + one (.read h)) :=
  (Backed.owner h).add_read (by rw [one_apply, if_pos rfl]; exact one_ne_zero)

theorem withCell_trades (T : Trading U m onPool) (r : Row S) (column : Nat)
    {look look' : Cell → m α}
    (hl : ∀ cell, T.trades (one (.owner r.handle) + one (.read r.handle)) (look cell) (look' cell)
      fun _ => one (.owner r.handle) + one (.read r.handle)) :
    T.trades (one (.owner r.handle)) (r.withCell onPool column look)
      (r.withCell onPool column look') fun _ => one (.owner r.handle) := by
  refine T.bind (T.lift (one_ne_zero _) (r.beginRead_trades column)) fun outcome => ?_
  match outcome with
  | .error e => exact T.pure rfl
  | .ok cell =>
    have ended := T.lift (add_ne_zero (one_ne_zero _) _) (endRead_trades (U := U) r.handle)
    exact T.bind (hl cell) fun a => T.bind ended fun _ => T.pure rfl

theorem read_trades (r : Row S) (column : Nat) (take : Cell → Except Fault α) :
    Trades U (one (.owner r.handle)) (r.read column take) (r.read column take)
      fun _ => one (.owner r.handle) :=
  Trades.bind (withCell_trades (Trading.pool U) r column fun _ => Trades.pure rfl) fun _ =>
    Trades.pure rfl

theorem getValue_trades (r : Row S) (column : Nat) :
    Trades U (one (.owner r.handle)) (r.getValue column) (r.getValue column)
      fun _ => one (.owner r.handle) := by
  refine (r.checkColumn_trades column).bind fun outcome => ?_
  match outcome with
  | .error e => exact Trades.pure rfl
  | .ok () => exact r.read_trades column _

theorem getByName_trades (r : Row S) (name : String) :
    Trades U (one (.owner r.handle)) (r.getByName name) (r.getByName name)
      fun _ => one (.owner r.handle) := by
  refine r.columns_trades.bind fun columns => ?_
  match columns.idxOf? name with
  | none => exact Trades.pure rfl
  | some column => exact r.getValue_trades column

theorem readColumns_trades (r : Row S) (columns : List Nat) :
    Trades U (one (.owner r.handle) + one (.read r.handle)) (r.readColumns columns)
      (r.readColumns columns) fun _ => one (.owner r.handle) + one (.read r.handle) := by
  induction columns with
  | nil => exact Trades.pure rfl
  | cons column rest ih =>
    refine (readCell_trades r.handle r.token column).bind fun cell => ?_
    split
    · exact Trades.pure rfl
    · exact ih.bind fun _ => Trades.pure rfl

theorem values_trades (r : Row S) : Trades U (one (.owner r.handle)) r.values r.values
    fun _ => one (.owner r.handle) := by
  refine (acquire_trades (one_self _)).bind fun outcome => ?_
  match outcome with
  | .error e => exact Trades.pure rfl
  | .ok () =>
    refine r.columns_trades.bind fun columns => ?_
    exact (r.readColumns_trades _).bind fun _ => (endRead_trades r.handle).bind fun _ =>
      Trades.pure rfl

end Row

namespace Cursor

theorem take_trades (h : Nat) : Trades U (one (.owner h)) (take h) (take h)
    (gained (one (.owner h)) fun c => one (.owner c.handle)) := by
  refine (claimCursor_trades (one_self _)).bind fun claimed => ?_
  cases claimed with
  | false => exact Trades.pure rfl
  | true => exact (retain_trades (one_self _)).bind fun _ => Trades.pure rfl

theorem advance_trades (c : Cursor S) : Trades U (one (.owner c.handle)) c.advance c.advance
    fun moved => one (.owner moved.2.handle) := by
  unfold advance
  split
  · exact Trades.pure rfl
  all_goals
    refine (acquire_trades (one_self _)).bind fun outcome => ?_
    match outcome with
    | .error e => exact Trades.pure rfl
    | .ok () =>
      refine (fetch_trades c.handle).bind fun fetched => (endRead_trades c.handle).bind fun _ => ?_
      match fetched with
      | .ok (some token) => exact Trades.pure rfl
      | .ok none => exact Trades.pure rfl
      | .error fault => exact Trades.pure rfl

theorem currentRow_trades (c : Cursor S) :
    Trades U (one (.owner c.handle)) c.currentRow c.currentRow
      (gained (one (.owner c.handle)) fun r => one (.owner r.handle)) := by
  unfold currentRow
  split
  · exact (retain_trades (one_self _)).bind fun _ => Trades.pure rfl
  · exact Trades.pure rfl
  · exact Trades.pure rfl

def nextStake : Option (Except Error (Row S)) × Cursor S → Stake
  | (some (.ok r), c) => one (.owner c.handle) + one (.owner r.handle)
  | (_, c) => one (.owner c.handle)

theorem next_trades (c : Cursor S) : Trades U (one (.owner c.handle)) c.next c.next nextStake := by
  refine c.advance_trades.bind fun moved => ?_
  match moved with
  | (.ok true, c) =>
    refine c.currentRow_trades.bind fun outcome => ?_
    cases outcome with
    | ok r => exact Trades.pure rfl
    | error e => exact Trades.pure rfl
  | (.ok false, c) => exact Trades.pure rfl
  | (.error e, c) => exact Trades.pure rfl

end Cursor

namespace Pool

variable {σ ε : Type} {visit visit' : σ → Row S → m (σ × Except ε Unit)}

theorem visitRow_trades (T : Trading U m onPool) (fail : Error → ε)
    {rest rest' : σ → Cursor S → m (σ × Except ε Unit)}
    (hv : ∀ acc r, T.trades (one (.owner r.handle)) (visit acc r) (visit' acc r)
      fun _ => one (.owner r.handle))
    (hr : ∀ acc c, T.trades (one (.owner c.handle)) (rest acc c) (rest' acc c) fun _ => 0)
    (acc : σ) (c : Cursor S) :
    T.trades (one (.owner c.handle)) (visitRow onPool fail visit rest acc c)
      (visitRow onPool fail visit' rest' acc c) fun _ => 0 := by
  have dropped (c : Cursor S) := T.lift (one_ne_zero _) (drop_trades (U := U) c.handle)
  refine T.bind (T.lift (one_ne_zero _) c.next_trades) fun found => ?_
  match found with
  | (none, c) => exact T.bind (dropped c) fun _ => T.pure rfl
  | (some (.error e), c) => exact T.bind (dropped c) fun _ => T.pure rfl
  | (some (.ok r), c) =>
    have visited := T.frame (h := c.handle) (hv acc r)
    have row_dropped := T.frame (h := c.handle)
      (T.lift (one_ne_zero _) (drop_trades (U := U) r.handle))
    rw [add_zero] at row_dropped
    refine T.bind visited fun outcome => T.bind row_dropped fun _ => ?_
    obtain ⟨acc, _ | ⟨⟨⟩⟩⟩ := outcome
    · exact T.bind (dropped c) fun _ => T.pure rfl
    · exact hr acc c

theorem visitRows_trades (T : Trading U m onPool) (fail : Error → ε)
    (hv : ∀ acc r, T.trades (one (.owner r.handle)) (visit acc r) (visit' acc r)
      fun _ => one (.owner r.handle)) (n : Nat) (acc : σ) (c : Cursor S) :
    T.trades (one (.owner c.handle)) (visitRows onPool fail visit n acc c)
      (visitRows onPool fail visit' n acc c) fun _ => 0 := by
  induction n generalizing acc c with
  | zero =>
    exact visitRow_trades T fail hv
      (fun _ c => T.bind (T.lift (one_ne_zero _) (drop_trades c.handle)) fun _ => T.pure rfl) acc c
  | succ n ih => exact visitRow_trades T fail hv ih acc c

theorem rowsLeft_trades (h : Nat) {X : Stake} :
    Trades U X (rowsLeft h) (rowsLeft h) fun _ => X := Trades.look fun _ => rfl

theorem fold_trades (T : Trading U m onPool) (fail : Error → ε)
    (hv : ∀ acc r, T.trades (one (.owner r.handle)) (visit acc r) (visit' acc r)
      fun _ => one (.owner r.handle)) (h : Nat) (acc : σ) :
    T.trades (one (.owner h)) (fold onPool fail h acc visit) (fold onPool fail h acc visit')
      fun _ => one (.owner h) := by
  refine T.bind (T.lift (one_ne_zero _) (Cursor.take_trades h)) fun outcome => ?_
  match outcome with
  | .error e => exact T.pure rfl
  | .ok c =>
    exact T.bind (T.lift (add_ne_zero (one_ne_zero _) _) (rowsLeft_trades h)) fun n =>
      T.frame (visitRows_trades T fail hv n acc c)

theorem collectRows_trades (T : Trading U m onPool) (h : Nat)
    {map map' : Row S → m (Except Error α)}
    (hm : ∀ r, T.trades (one (.owner r.handle)) (map r) (map' r) fun _ => one (.owner r.handle)) :
    T.trades (one (.owner h)) (collectRows onPool h map) (collectRows onPool h map')
      fun _ => one (.owner h) := by
  refine T.bind (fold_trades T id (fun found r => T.bind (hm r) fun outcome => ?_) h [])
    fun _ => T.pure rfl
  cases outcome with
  | ok a => exact T.pure rfl
  | error e => exact T.pure rfl

theorem skipRow_trades {rest : Cursor S → PoolM S (Except Error Unit × Cursor S)}
    (hr : ∀ c, Trades U (one (.owner c.handle)) (rest c) (rest c)
      fun skipped => one (.owner skipped.2.handle)) (c : Cursor S) :
    Trades U (one (.owner c.handle)) (skipRow rest c) (skipRow rest c)
      fun skipped => one (.owner skipped.2.handle) := by
  refine c.advance_trades.bind fun moved => ?_
  match moved with
  | (.ok true, c) => exact hr c
  | (.ok false, c) => exact Trades.pure rfl
  | (.error e, c) => exact Trades.pure rfl

theorem skipRows_trades (n : Nat) (c : Cursor S) :
    Trades U (one (.owner c.handle)) (skipRows n c) (skipRows n c)
      fun skipped => one (.owner skipped.2.handle) := by
  induction n generalizing c with
  | zero => exact skipRow_trades (fun _ => Trades.pure rfl) c
  | succ n ih => exact skipRow_trades ih c

theorem run_trades (text : String) :
    Trades U (one .connection) (run text) (run text) fun _ => one .connection := by
  have dropped {X : Stake} (hX : Backed X) (h : Nat) := (drop_trades (U := U) h).frame hX
  simp only [add_zero] at dropped
  refine (query_trades text).bind fun outcome => ?_
  match outcome with
  | .error e => exact Trades.pure rfl
  | .ok h =>
    refine ((Cursor.take_trades h).frame Backed.connection).bind fun outcome => ?_
    match outcome with
    | .error e => exact (dropped Backed.connection h).bind fun _ => Trades.pure rfl
    | .ok c =>
      have backed := Backed.connection.add (.owner h)
      refine (rowsLeft_trades h).bind fun n => ?_
      rw [gained_ok, ← add_assoc]
      refine ((skipRows_trades n c).frame backed).bind fun skipped => ?_
      obtain ⟨outcome, c⟩ := skipped
      have requested := (requestRelease_trades (U := U) (one_self (.owner h))).discard.frame
        (Backed.connection.add (.owner c.handle))
      rw [add_right_comm] at requested
      have ended :
          Trades U (one .connection) (pure outcome) (pure outcome) fun _ => one .connection :=
        Trades.pure rfl
      have rest := (dropped backed c.handle).bind fun _ => (dropped Backed.connection h).bind
        fun _ => ended
      match outcome with
      | .ok () => exact requested.bind fun _ => rest
      | .error e => exact rest

end Pool

end QueryLease

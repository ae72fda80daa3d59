import QueryLease.Proofs.Pool.Kinship

namespace QueryLease

open Pool

variable {S : Source} {O W α β γ δ σ τ ε : Type} [Preorder W]

structure Row.Kin (K : Kinship S O W) (w : W) (r r' : Row S) : Prop where
  handle : K.twin w r.handle r'.handle
  token : r.token = r'.token
  index : r.index = r'.index

structure Cursor.Kin (K : Kinship S O W) (w : W) (c c' : Cursor S) : Prop where
  handle : K.twin w c.handle c'.handle
  position : c.position = c'.position
  fetched : c.fetched = c'.fetched

variable {K : Kinship S O W} {v w : W}

theorem Row.Kin.mono {r r' : Row S} (hr : r.Kin K v r') (h : v ≤ w) : r.Kin K w r' :=
  { hr with handle := K.twin_mono h hr.handle }

theorem Cursor.Kin.mono {c c' : Cursor S} (hc : c.Kin K v c') (h : v ≤ w) : c.Kin K w c' :=
  { hc with handle := K.twin_mono h hc.handle }

namespace Pool

structure Kinship.Lifted (K : Kinship S O W) (m n : Type → Type) [Monad m] [Monad n]
    (onPool : {β : Type} → PoolM S β → m β) (onPool' : {β : Type} → PoolM S β → n β) where
  rel : {α β : Type} → W → m α → n β → (W → α → β → Prop) → Prop
  pure {α β : Type} {w : W} {a : α} {b : β} {A : W → α → β → Prop} :
    A w a b → rel w (pure a) (pure b) A
  bind {α β γ δ : Type} {w : W} {x : m α} {y : n β} {f : α → m γ} {g : β → n δ}
    {A : W → α → β → Prop} {B : W → γ → δ → Prop} : rel w x y A →
      (∀ v a b, w ≤ v → A v a b → rel v (f a) (g b) B) → rel w (x >>= f) (y >>= g) B
  lift {α β : Type} {w : W} {x : PoolM S α} {y : PoolM S β} {A : W → α → β → Prop} :
    Akin K.rel w x y A → rel w (onPool x) (onPool' y) A

def Kinship.pool (K : Kinship S O W) : K.Lifted (PoolM S) (PoolM S) id id where
  rel w x y A := Akin K.rel w x y A
  pure := Akin.pure
  bind := Akin.bind
  lift := id

end Pool

variable {m n : Type → Type} [Monad m] [Monad n] {onPool : {β : Type} → PoolM S β → m β}
  {onPool' : {β : Type} → PoolM S β → n β}

namespace Row

variable {r r' : Row S}

theorem columns_akin (hr : r.Kin K w r') : Akin K.rel w r.columns r'.columns Same :=
  Akin.still fun _ _ _ h => ⟨h, (K.columns h hr.handle).symm⟩

theorem clone_akin (hr : r.Kin K w r') : Akin K.rel w r.clone r'.clone fun w => Row.Kin K w :=
  (K.retain hr.handle).bind fun _ _ _ hv _ => Akin.pure (hr.mono hv)

theorem checkColumn_akin (hr : r.Kin K w r') (column : Nat) :
    Akin K.rel w (r.checkColumn column) (r'.checkColumn column) Same :=
  (columns_akin hr).bind fun _ c c' _ (same : c = c') => Akin.pure (same ▸ rfl)

theorem readCell_akin (hr : r.Kin K w r') (column : Nat) :
    Akin K.rel w (Pool.readCell r.handle r.token column)
      (Pool.readCell r'.handle r'.token column) Same := by
  rw [← hr.token]
  exact K.readCell r.token column hr.handle

theorem beginRead_akin (hr : r.Kin K w r') (column : Nat) :
    Akin K.rel w (r.beginRead column) (r'.beginRead column) Same := by
  refine (K.acquire hr.handle).bind fun v started _ hv same => ?_
  obtain rfl := same
  match started with
  | .error e => exact Akin.pure rfl
  | .ok () =>
    refine (readCell_akin (hr.mono hv) column).bind fun v' cell _ hv' same => ?_
    obtain rfl := same
    match cell with
    | .error e =>
      exact (K.endRead (K.twin_mono (hv.trans hv') hr.handle)).bind fun _ _ _ _ _ => Akin.pure rfl
    | .ok cell => exact Akin.pure rfl

theorem withCell_akin (L : K.Lifted m n onPool onPool') (hr : r.Kin K w r') (column : Nat)
    {A : W → α → β → Prop} {look : Cell → m α} {look' : Cell → n β}
    (mono : ∀ v u a b, v ≤ u → A v a b → A u a b)
    (hl : ∀ v cell, w ≤ v → L.rel v (look cell) (look' cell) A) :
    L.rel w (r.withCell onPool column look) (r'.withCell onPool' column look') (Both A) := by
  refine L.bind (L.lift (beginRead_akin hr column)) fun v cell _ hv same => ?_
  obtain rfl := same
  match cell with
  | .error e => exact L.pure rfl
  | .ok cell =>
    refine L.bind (hl v cell hv) fun v' a b hv' ha => ?_
    refine L.bind (L.lift (K.endRead (K.twin_mono (hv.trans hv') hr.handle)))
      fun u _ _ hu _ => ?_
    exact L.pure (mono v' u a b hu ha)

theorem read_akin (hr : r.Kin K w r') (column : Nat) (take : Cell → Except Fault α) :
    Akin K.rel w (r.read column take) (r'.read column take) Same := by
  let look (cell : Cell) : PoolM S (Except Error α) := return (take cell).mapError Error.engine
  have looked : Akin K.rel w (r.withCell id column look) (r'.withCell id column look) (Both Same) :=
    withCell_akin K.pool hr column (fun _ _ _ _ _ => id) fun _ _ _ => Akin.pure rfl
  refine looked.bind fun v taken taken' _ both => ?_
  match taken, taken', both with
  | .ok a, .ok _, rfl => exact Akin.pure rfl
  | .error e, .error _, rfl => exact Akin.pure rfl

theorem getValue_akin (hr : r.Kin K w r') (column : Nat) :
    Akin K.rel w (r.getValue column) (r'.getValue column) Same := by
  refine (checkColumn_akin hr column).bind fun v checked _ hv same => ?_
  obtain rfl := same
  match checked with
  | .error e => exact Akin.pure rfl
  | .ok () => exact read_akin (hr.mono hv) column _

theorem getByName_akin (hr : r.Kin K w r') (name : String) :
    Akin K.rel w (r.getByName name) (r'.getByName name) Same := by
  refine (columns_akin hr).bind fun v columns _ hv same => ?_
  obtain rfl := same
  cases columns.idxOf? name with
  | none => exact Akin.pure rfl
  | some column => exact getValue_akin (hr.mono hv) column

theorem readColumns_akin (hr : r.Kin K w r') (columns : List Nat) :
    Akin K.rel w (r.readColumns columns) (r'.readColumns columns) Same := by
  induction columns generalizing w with
  | nil => exact Akin.pure rfl
  | cons column rest ih =>
    refine (readCell_akin hr column).bind fun v cell _ hv same => ?_
    obtain rfl := same
    cases cell >>= fun c => c.toValue.mapError Error.engine with
    | error e => exact Akin.pure rfl
    | ok value =>
      exact (ih (hr.mono hv)).bind fun _ vs vs' _ (same : vs = vs') => Akin.pure (same ▸ rfl)

theorem values_akin (hr : r.Kin K w r') : Akin K.rel w r.values r'.values Same := by
  refine (K.acquire hr.handle).bind fun v started _ hv same => ?_
  obtain rfl := same
  match started with
  | .error e => exact Akin.pure rfl
  | .ok () =>
    have hr := hr.mono hv
    refine (columns_akin hr).bind fun v' columns _ hv' same => ?_
    obtain rfl := same
    have hr := hr.mono hv'
    refine (readColumns_akin hr _).bind fun u vs _ hu same => ?_
    obtain rfl := same
    exact (K.endRead (hr.mono hu).handle).bind fun _ _ _ _ _ => Akin.pure rfl

end Row

namespace Cursor

variable {c c' : Cursor S} {h k : Nat}

theorem take_akin (ht : K.twin w h k) :
    Akin K.rel w (take h) (take k) (Both fun w => Cursor.Kin K w) := by
  refine (K.claimCursor ht).bind fun v claimed _ hv same => ?_
  obtain rfl := same
  cases claimed with
  | false => exact Akin.pure rfl
  | true =>
    have ht := K.twin_mono hv ht
    exact (K.retain ht).bind fun _ _ _ hv _ => Akin.pure ⟨K.twin_mono hv ht, rfl, rfl⟩

def Moved (K : Kinship S O W) (w : W) (a a' : Except Error Bool × Cursor S) : Prop :=
  a.1 = a'.1 ∧ a.2.Kin K w a'.2

theorem advance_akin (hc : c.Kin K w c') : Akin K.rel w c.advance c'.advance (Moved K) := by
  obtain ⟨h, position, fetched⟩ := c
  obtain ⟨k, _, _⟩ := c'
  obtain ⟨ht, rfl, rfl⟩ := hc
  cases position with
  | exhausted => exact Akin.pure ⟨rfl, ht, rfl, rfl⟩
  | ready | onRow index token =>
    refine (K.acquire ht).bind fun v started _ hv same => ?_
    obtain rfl := same
    have ht := K.twin_mono hv ht
    match started with
    | .error e => exact Akin.pure ⟨rfl, ht, rfl, rfl⟩
    | .ok () =>
      refine (K.fetch ht).bind fun v found _ hv same => ?_
      obtain rfl := same
      have ht := K.twin_mono hv ht
      refine (K.endRead ht).bind fun v _ _ hv _ => ?_
      have ht := K.twin_mono hv ht
      match found with
      | .ok (some token) => exact Akin.pure ⟨rfl, ht, rfl, rfl⟩
      | .ok none => exact Akin.pure ⟨rfl, ht, rfl, rfl⟩
      | .error fault => exact Akin.pure ⟨rfl, ht, rfl, rfl⟩

theorem currentRow_akin (hc : c.Kin K w c') :
    Akin K.rel w c.currentRow c'.currentRow (Both fun w => Row.Kin K w) := by
  obtain ⟨h, position, fetched⟩ := c
  obtain ⟨k, _, _⟩ := c'
  obtain ⟨ht, rfl, rfl⟩ := hc
  cases position with
  | ready => exact Akin.pure rfl
  | exhausted => exact Akin.pure rfl
  | onRow index token =>
    exact (K.retain ht).bind fun _ _ _ hv _ => Akin.pure ⟨K.twin_mono hv ht, rfl, rfl⟩

def Found (K : Kinship S O W) (w : W)
    (a a' : Option (Except Error (Row S)) × Cursor S) : Prop :=
  Option.Rel (Both (fun w => Row.Kin K w) w) a.1 a'.1 ∧ a.2.Kin K w a'.2

theorem next_akin (hc : c.Kin K w c') : Akin K.rel w c.next c'.next (Found K) := by
  refine (advance_akin hc).bind fun v a a' _ moved => ?_
  obtain ⟨moved, c⟩ := a
  obtain ⟨_, c'⟩ := a'
  obtain ⟨rfl, hc⟩ := moved
  match moved with
  | .ok true =>
    exact (currentRow_akin hc).bind fun _ _ _ hv both => Akin.pure ⟨.some both, hc.mono hv⟩
  | .ok false => exact Akin.pure ⟨.none, hc⟩
  | .error e => exact Akin.pure ⟨.some rfl, hc⟩

end Cursor

namespace Pool

variable {h k : Nat}

def Walked (A : W → σ → τ → Prop) (w : W) (a : σ × Except ε Unit) (a' : τ × Except ε Unit) : Prop :=
  A w a.1 a'.1 ∧ a.2 = a'.2

section Walks

variable (L : K.Lifted m n onPool onPool') (fail : Error → ε) {A : W → σ → τ → Prop}
  (mono : ∀ v u a b, v ≤ u → A v a b → A u a b)
  {visit : σ → Row S → m (σ × Except ε Unit)} {visit' : τ → Row S → n (τ × Except ε Unit)}
  (hv : ∀ w acc acc' r r', A w acc acc' → r.Kin K w r' →
    L.rel w (visit acc r) (visit' acc' r') (Walked A))

include mono hv

theorem visitRow_akin {rest : σ → Cursor S → m (σ × Except ε Unit)}
    {rest' : τ → Cursor S → n (τ × Except ε Unit)}
    (hr : ∀ w acc acc' c c', A w acc acc' → c.Kin K w c' →
      L.rel w (rest acc c) (rest' acc' c') (Walked A)) {w : W} {acc : σ} {acc' : τ}
    {c c' : Cursor S} (ha : A w acc acc') (hc : c.Kin K w c') :
    L.rel w (visitRow onPool fail visit rest acc c) (visitRow onPool' fail visit' rest' acc' c')
      (Walked A) := by
  have dropped {w : W} {acc : σ} {acc' : τ} {c c' : Cursor S} (outcome : Except ε Unit)
      (ha : A w acc acc') (hc : c.Kin K w c') :
      L.rel w (do onPool c.drop; return (acc, outcome)) (do onPool' c'.drop; return (acc', outcome))
        (Walked A) :=
    L.bind (L.lift (K.drop hc.handle)) fun v _ _ hv _ => L.pure ⟨mono _ _ _ _ hv ha, rfl⟩
  refine L.bind (L.lift (Cursor.next_akin hc)) fun v found found' hw both => ?_
  obtain ⟨found, c⟩ := found
  obtain ⟨found', c'⟩ := found'
  obtain ⟨both, hc⟩ := both
  have ha := mono _ _ _ _ hw ha
  match found, found', both with
  | none, none, _ => exact dropped _ ha hc
  | some (.error e), some (.error _), .some rfl => exact dropped _ ha hc
  | some (.ok r), some (.ok r'), .some hr' =>
    refine L.bind (hv v acc acc' r r' ha hr') fun v visited visited' hw walked => ?_
    obtain ⟨acc, outcome⟩ := visited
    obtain ⟨acc', _⟩ := visited'
    obtain ⟨ha, rfl⟩ := walked
    have hc := hc.mono hw
    refine L.bind (L.lift (K.drop (hr'.mono hw).handle)) fun v _ _ hw _ => ?_
    match outcome with
    | .ok () => exact hr v acc acc' c c' (mono _ _ _ _ hw ha) (hc.mono hw)
    | .error e => exact dropped _ (mono _ _ _ _ hw ha) (hc.mono hw)

theorem visitRows_akin (count : Nat) {w : W} {acc : σ} {acc' : τ} {c c' : Cursor S}
    (ha : A w acc acc') (hc : c.Kin K w c') :
    L.rel w (visitRows onPool fail visit count acc c) (visitRows onPool' fail visit' count acc' c')
      (Walked A) := by
  induction count generalizing w acc acc' c c' with
  | zero =>
    refine visitRow_akin L fail mono hv (fun w acc acc' c c' ha hc => ?_) ha hc
    exact L.bind (L.lift (K.drop hc.handle)) fun v _ _ hv _ => L.pure ⟨mono _ _ _ _ hv ha, rfl⟩
  | succ count ih => exact visitRow_akin L fail mono hv (fun _ _ _ _ _ ha hc => ih ha hc) ha hc

theorem fold_akin {w : W} {acc : σ} {acc' : τ} (ht : K.twin w h k) (ha : A w acc acc') :
    L.rel w (fold onPool fail h acc visit) (fold onPool' fail k acc' visit') (Walked A) := by
  refine L.bind (L.lift (Cursor.take_akin ht)) fun v taken taken' hw both => ?_
  have ha := mono _ _ _ _ hw ha
  match taken, taken', both with
  | .error e, .error _, rfl => exact L.pure ⟨ha, rfl⟩
  | .ok c, .ok c', hc =>
    refine L.bind (L.lift (K.rowsLeft (K.twin_mono hw ht))) fun v count _ hw same => ?_
    obtain rfl := same
    exact visitRows_akin L fail mono hv count (mono _ _ _ _ hw ha) (Cursor.Kin.mono hc hw)

end Walks

theorem collectRows_akin (L : K.Lifted m n onPool onPool') {map : Row S → m (Except Error α)}
    {map' : Row S → n (Except Error α)} (ht : K.twin w h k)
    (hm : ∀ w r r', r.Kin K w r' → L.rel w (map r) (map' r') Same) :
    L.rel w (collectRows onPool h map) (collectRows onPool' k map') Same := by
  refine L.bind (fold_akin L id (A := Same) (fun _ _ _ _ _ => id) ?_ ht rfl)
    fun v a a' _ walked => ?_
  · rintro w found _ r r' rfl hr
    refine L.bind (hm w r r' hr) fun v answer _ _ same => ?_
    obtain rfl := same
    cases answer with
    | ok a => exact L.pure ⟨rfl, rfl⟩
    | error e => exact L.pure ⟨rfl, rfl⟩
  · obtain ⟨found, outcome⟩ := a
    obtain ⟨_, _⟩ := a'
    obtain ⟨rfl, rfl⟩ := walked
    exact L.pure rfl

def Skipped (K : Kinship S O W) (w : W) (a a' : Except Error Unit × Cursor S) : Prop :=
  a.1 = a'.1 ∧ a.2.Kin K w a'.2

theorem skipRow_akin {rest rest' : Cursor S → PoolM S (Except Error Unit × Cursor S)}
    (hr : ∀ w c c', c.Kin K w c' → Akin K.rel w (rest c) (rest' c') (Skipped K))
    {c c' : Cursor S} (hc : c.Kin K w c') :
    Akin K.rel w (skipRow rest c) (skipRow rest' c') (Skipped K) := by
  refine (Cursor.advance_akin hc).bind fun v a a' _ moved => ?_
  obtain ⟨moved, c⟩ := a
  obtain ⟨_, c'⟩ := a'
  obtain ⟨rfl, hc⟩ := moved
  match moved with
  | .ok true => exact hr v c c' hc
  | .ok false => exact Akin.pure ⟨rfl, hc⟩
  | .error e => exact Akin.pure ⟨rfl, hc⟩

theorem skipRows_akin (count : Nat) {c c' : Cursor S} (hc : c.Kin K w c') :
    Akin K.rel w (skipRows count c) (skipRows count c') (Skipped K) := by
  induction count generalizing w c c' with
  | zero =>
    refine skipRow_akin (fun w c c' hc => ?_) hc
    exact Akin.pure ⟨rfl, hc⟩
  | succ count ih => exact skipRow_akin (fun _ _ _ hc => ih hc) hc

theorem run_akin (text : String) : Akin K.rel w (run text) (run text) Same := by
  refine (K.query text).bind fun v h k _ both => ?_
  match h, k, both with
  | .error e, .error _, rfl => exact Akin.pure rfl
  | .ok h, .ok k, ht =>
    refine (Cursor.take_akin ht).bind fun v c c' hv both => ?_
    have ht : K.twin v h k := K.twin_mono hv ht
    match c, c', both with
    | .error e, .error _, rfl => exact (K.drop ht).bind fun _ _ _ _ _ => Akin.pure rfl
    | .ok c, .ok c', hc =>
      refine (K.rowsLeft ht).bind fun v count _ hv same => ?_
      obtain rfl := same
      have ht := K.twin_mono hv ht
      refine (skipRows_akin count (Cursor.Kin.mono hc hv)).bind fun v a a' hv skipped => ?_
      obtain ⟨outcome, c⟩ := a
      obtain ⟨_, c'⟩ := a'
      obtain ⟨rfl, hc⟩ := skipped
      have ht := K.twin_mono hv ht
      have rest {w : W} (hv : v ≤ w) : Akin K.rel w (do c.drop; Pool.drop h; return outcome)
          (do c'.drop; Pool.drop k; return outcome) Same :=
        (K.drop (hc.mono hv).handle).bind fun _ _ _ hv' _ =>
          (K.drop (K.twin_mono (hv.trans hv') ht)).bind fun _ _ _ _ _ => Akin.pure rfl
      match outcome with
      | .ok () => exact (K.requestRelease ht).discard.bind fun _ _ _ hv _ => rest hv
      | .error e => exact rest le_rfl

end Pool

end QueryLease

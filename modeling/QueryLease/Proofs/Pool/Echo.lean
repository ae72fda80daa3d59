import QueryLease.Pool.Walk

namespace QueryLease

open Pool

variable {S : Source} {m n : Type → Type} [Monad m] [Monad n]
  {onPool : {β : Type} → PoolM S β → m β} {onPool' : {β : Type} → PoolM S β → n β}

/-- Which actions of two monads come to the same, pool actions among them. -/
structure Pool.Echo (onPool : {β : Type} → PoolM S β → m β)
    (onPool' : {β : Type} → PoolM S β → n β) where
  rel {α : Type} : m α → n α → Prop
  pure {α : Type} (a : α) : rel (pure a) (pure a)
  bind {α β : Type} {x : m α} {y : n α} {f : α → m β} {g : α → n β} : rel x y →
    (∀ a, rel (f a) (g a)) → rel (x >>= f) (y >>= g)
  lift {α : Type} (x : PoolM S α) : rel (onPool x) (onPool' x)

variable (E : Echo onPool onPool') {σ ε α : Type}

theorem Row.withCell_echo (r : Row S) (column : Nat) {look : Cell → m α} {look' : Cell → n α}
    (hl : ∀ cell, E.rel (look cell) (look' cell)) :
    E.rel (r.withCell onPool column look) (r.withCell onPool' column look') := by
  refine E.bind (E.lift _) fun outcome => ?_
  cases outcome with
  | error e => exact E.pure _
  | ok cell => exact E.bind (hl cell) fun a => E.bind (E.lift _) fun _ => E.pure _

namespace Pool

variable (fail : Error → ε) {visit : σ → Row S → m (σ × Except ε Unit)}
  {visit' : σ → Row S → n (σ × Except ε Unit)}

section

variable (hv : ∀ acc r, E.rel (visit acc r) (visit' acc r))

include hv

theorem visitRow_echo {rest : σ → Cursor S → m (σ × Except ε Unit)}
    {rest' : σ → Cursor S → n (σ × Except ε Unit)} (hr : ∀ acc c, E.rel (rest acc c) (rest' acc c))
    (acc : σ) (c : Cursor S) : E.rel (visitRow onPool fail visit rest acc c)
      (visitRow onPool' fail visit' rest' acc c) := by
  refine E.bind (E.lift _) fun found => ?_
  obtain ⟨found, c⟩ := found
  match found with
  | none => exact E.bind (E.lift _) fun _ => E.pure _
  | some (.error e) => exact E.bind (E.lift _) fun _ => E.pure _
  | some (.ok r) =>
    refine E.bind (hv acc r) fun visited => E.bind (E.lift _) fun _ => ?_
    obtain ⟨acc, outcome⟩ := visited
    match outcome with
    | .ok () => exact hr acc c
    | .error e => exact E.bind (E.lift _) fun _ => E.pure _

theorem visitRows_echo (count : Nat) (acc : σ) (c : Cursor S) :
    E.rel (visitRows onPool fail visit count acc c)
      (visitRows onPool' fail visit' count acc c) := by
  induction count generalizing acc c with
  | zero =>
    exact visitRow_echo E fail hv (fun acc c => E.bind (E.lift _) fun _ => E.pure _) acc c
  | succ count ih => exact visitRow_echo E fail hv ih acc c

theorem fold_echo (h : Nat) (acc : σ) :
    E.rel (fold onPool fail h acc visit) (fold onPool' fail h acc visit') := by
  refine E.bind (E.lift _) fun taken => ?_
  cases taken with
  | error e => exact E.pure _
  | ok c => exact E.bind (E.lift _) fun count => visitRows_echo E fail hv count acc c

end

theorem collectRows_echo (h : Nat) {map : Row S → m (Except Error α)}
    {map' : Row S → n (Except Error α)} (hm : ∀ r, E.rel (map r) (map' r)) :
    E.rel (collectRows onPool h map) (collectRows onPool' h map') := by
  refine E.bind (fold_echo E id (fun found r => E.bind (hm r) fun outcome => ?_) h []) fun _ =>
    E.pure _
  cases outcome with
  | ok a => exact E.pure _
  | error e => exact E.pure _

end Pool

end QueryLease

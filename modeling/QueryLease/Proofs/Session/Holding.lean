import Mathlib.Algebra.Group.Pi.Lemmas
import Mathlib.Algebra.Group.Prod
import QueryLease.Proofs.Pool.Walks
import QueryLease.Session.Run

/-! What a session holds. Every kept object stands for a stake in a pool or for a base, and a step
in progress holds a little more than what is kept. Pools, their leases and the source agree with
that in every state between two actions. -/

namespace QueryLease

open Pool

/-- An upkeep of the source that also minds what a venue adds to it, and how many pools there are.
-/
structure Session.Venue.Upkeep (V : Session.Venue) extends QueryLease.Upkeep V.source V.Base where
  Pools : Nat → Prop
  dropBase {A b s} : Good (.base b ::ₘ A) s → Good A (V.dropBase b s)
  report {A s} : Good A s → Good A (V.report s).2

namespace Session

variable {V : Venue} {α β : Type}

/-- Stakes in pools, by the pool's number, and bases. -/
abbrev Holding (V : Venue) := (Nat → Stake) × Multiset V.Base

def inPool (p : Nat) (G : Stake) : Holding V := (Pi.single p G, 0)

def Object.holding : Object V → Holding V
  | .connection p => inPool p (one .connection)
  | .result p h | .handle p h => inPool p (one (.owner h))
  | .cursor p c => inPool p (one (.owner c.handle))
  | .row p r => inPool p (one (.owner r.handle))
  | .guard p h => inPool p (one (.owner h) + one (.read h))
  | .rawRow _ => 0
  | .base b => (0, {b})

abbrev Kept (V : Venue) := List (String × Object V)

def held (K : Kept V) : Holding V := (K.map fun e => e.2.holding).sum

def assets (s : Session V) (X : Holding V) : Multiset (Asset V.source V.Base) :=
  (s.pools.toList.map Pool.assets).sum + X.2.map .base

structure Held (U : Venue.Upkeep V) (X : Holding V) (s : Session V) : Prop where
  sound : ∀ (p : Nat) (pool : Pool V.source), s.pools[p]? = some pool → pool.Sound (X.1 p)
  absent : ∀ p, s.pools.size ≤ p → X.1 p = 0
  pools : U.Pools s.pools.size
  good : U.Good (s.assets X) s.engine

variable {U : Venue.Upkeep V} {X Y E : Holding V} {s : Session V} {p : Nat} {G : Stake}

theorem inPool_fst (p q : Nat) (G : Stake) :
    (inPool p G : Holding V).1 q = if q = p then G else 0 := Pi.single_apply p G q

theorem add_inPool_self (Y : Holding V) (p : Nat) (G : Stake) :
    (Y + inPool p G).1 p = Y.1 p + G := by
  show Y.1 p + (inPool p G : Holding V).1 p = _
  rw [inPool_fst, if_pos rfl]

theorem add_inPool_of_ne (Y : Holding V) {p q : Nat} (h : q ≠ p) (G : Stake) :
    (Y + inPool p G).1 q = Y.1 q := by
  show Y.1 q + (inPool p G : Holding V).1 q = _
  rw [inPool_fst, if_neg h, add_zero]

theorem inPool_zero (p : Nat) : (inPool p 0 : Holding V) = 0 := by
  rw [inPool, Pi.single_zero]
  rfl

theorem inPool_add (p : Nat) (G G' : Stake) :
    (inPool p (G + G') : Holding V) = inPool p G + inPool p G' := by
  rw [inPool, Pi.single_add]
  rfl

def Backed (X : Holding V) : Prop := ∀ p, Pool.Backed (X.1 p)

namespace Backed

theorem zero : Backed (0 : Holding V) := fun _ => Pool.Backed.zero

theorem add (hX : Backed X) (hY : Backed Y) : Backed (X + Y) := fun p => (hX p).add (hY p)

theorem inPool (p : Nat) (hG : Pool.Backed G) : Backed (inPool p G : Holding V) := by
  intro q
  rw [inPool_fst]
  split_ifs
  · exact hG
  · exact Pool.Backed.zero

theorem holding (x : Object V) : Backed x.holding := by
  cases x with
  | connection p => exact inPool p Pool.Backed.connection
  | result p h => exact inPool p (.owner h)
  | cursor p c => exact inPool p (.owner c.handle)
  | row p r => exact inPool p (.owner r.handle)
  | guard p h => exact inPool p (Row.backed_read h)
  | handle p h => exact inPool p (.owner h)
  | rawRow token => exact zero
  | base b => exact fun _ => Pool.Backed.zero

theorem held (K : Kept V) : Backed (held K) := by
  induction K with
  | nil => exact zero
  | cons e K ih => exact (holding e.2).add ih

end Backed

theorem sum_map_eraseIdx {γ M : Type} [AddCommMonoid M] (f : γ → M) {x : γ} :
    ∀ {xs : List γ} {i : Nat}, xs[i]? = some x →
      (xs.map f).sum = f x + ((xs.eraseIdx i).map f).sum
  | [], i, h => by simp at h
  | y :: xs, 0, h => by
    obtain rfl := Option.some.inj h
    rfl
  | y :: xs, i + 1, h => by
    have := sum_map_eraseIdx f (show xs[i]? = some x by simpa using h)
    rw [List.map_cons, List.sum_cons, this, List.eraseIdx_cons_succ, List.map_cons, List.sum_cons,
      add_left_comm]

theorem linked_sum {γ : Type} {f : γ → Multiset (Asset V.source V.Base)} {xs : List γ}
    (h : ∀ x ∈ xs, Linked (f x)) : Linked (xs.map f).sum := by
  induction xs with
  | nil => exact Linked.zero
  | cons x xs ih =>
    exact (h x List.mem_cons_self).add (ih fun y hy => h y (List.mem_cons_of_mem _ hy))

def others (s : Session V) (X : Holding V) (p : Nat) : Multiset (Asset V.source V.Base) :=
  ((s.pools.toList.eraseIdx p).map Pool.assets).sum + X.2.map .base

theorem Held.linked_others (hs : Held U X s) (p : Nat) : Linked (s.others X p) := by
  refine (linked_sum fun pool hpool => ?_).add (Linked.of_bases X.2)
  obtain ⟨q, hq⟩ := List.mem_iff_getElem?.1 (List.mem_of_mem_eraseIdx hpool)
  exact (hs.sound q pool (by simpa using hq)).linked_assets

theorem assets_eq {pool : Pool V.source} (hp : s.pools[p]? = some pool) :
    s.assets X = pool.assets + s.others X p := by
  rw [assets, others, sum_map_eraseIdx Pool.assets (i := p) (by simpa using hp), add_assoc]

theorem Held.desk {pool : Pool V.source} (hs : Held U X s) (hp : s.pools[p]? = some pool) :
    Pool.Held U.toUpkeep (s.others X p) (X.1 p) ⟨pool, s.engine⟩ :=
  ⟨hs.sound p pool hp, assets_eq (X := X) hp ▸ hs.good⟩

theorem Held.put {pool : Pool V.source} {Z : Holding V} {d : Desk V.source} (hs : Held U X s)
    (hp : s.pools[p]? = some pool) (hd : Pool.Held U.toUpkeep (s.others X p) (Z.1 p) d)
    (same : ∀ q, q ≠ p → Z.1 q = X.1 q) (bases : Z.2 = X.2) :
    Held U Z { s with pools := s.pools.setIfInBounds p d.pool, engine := d.engine } := by
  have hlt := (Array.getElem?_eq_some_iff.1 hp).1
  have get (q : Nat) : (s.pools.setIfInBounds p d.pool)[q]? =
      if p = q then some d.pool else s.pools[q]? := by
    rw [Array.getElem?_setIfInBounds, if_pos hlt]
  refine ⟨fun q pool' hq => ?_, fun q hq => ?_, ?_, ?_⟩
  · rw [get] at hq
    split_ifs at hq with h
    · obtain rfl := Option.some.inj hq
      exact h ▸ hd.sound
    · rw [same q (Ne.symm h)]
      exact hs.sound q pool' hq
  · rw [Array.size_setIfInBounds] at hq
    rw [same q (by omega)]
    exact hs.absent q hq
  · rw [Array.size_setIfInBounds]
    exact hs.pools
  · have := assets_eq (X := Z) (s := { s with
      pools := s.pools.setIfInBounds p d.pool, engine := d.engine }) ((get p).trans (if_pos rfl))
    rw [this, others, Array.toList_setIfInBounds, List.eraseIdx_set_eq, bases]
    exact hd.good

structure Linking (U : Venue.Upkeep V) (link : V.source.Link) (X : Holding V)
    (s : Session V) : Prop where
  sound : ∀ (p : Nat) (pool : Pool V.source), s.pools[p]? = some pool → pool.Sound (X.1 p)
  absent : ∀ p, s.pools.size ≤ p → X.1 p = 0
  pools : U.Pools (s.pools.size + 1)
  good : U.Good (.link link ::ₘ s.assets X) s.engine

theorem Linking.push {link : V.source.Link} (hs : Linking U link X s) (mode : Mode) :
    Held U (X + inPool s.pools.size (one .connection))
      { s with pools := s.pools.push { link, mode } } := by
  refine ⟨fun p pool hp => ?_, fun p hp => ?_, ?_, ?_⟩
  · rw [Array.getElem?_push] at hp
    split_ifs at hp with h
    · obtain rfl := Option.some.inj hp
      rw [h, add_inPool_self, hs.absent _ le_rfl, zero_add]
      exact Sound.fresh link mode
    · rw [add_inPool_of_ne X h]
      exact hs.sound p pool hp
  · rw [Array.size_push] at hp
    rw [add_inPool_of_ne X (by omega)]
    exact hs.absent p (by omega)
  · rw [Array.size_push]
    exact hs.pools
  · have bases : (X + inPool s.pools.size (one .connection)).2 = X.2 := add_zero X.2
    rw [assets, Array.toList_push, List.map_append, List.sum_append, List.map_singleton,
      List.sum_singleton, assets_fresh, bases, add_comm (List.sum _), add_assoc,
      Multiset.singleton_add]
    exact hs.good

theorem onPool_eq (x : PoolM V.source α) : onPool p x = get >>= fun s =>
    s.pools[p]?.elim bad fun pool => do
      let ran := (x <* Pool.settle s.prompt).run ⟨pool, s.engine⟩
      set { s with pools := s.pools.setIfInBounds p ran.2.pool, engine := ran.2.engine }
      return ran.1 := by
  refine bind_congr fun s => ?_
  cases s.pools[p]? <;> rfl

theorem onPool_some {pool : Pool V.source} (hp : s.pools[p]? = some pool)
    (x : PoolM V.source α) : (onPool p x).run.run s =
      (.ok ((x <* Pool.settle s.prompt).run ⟨pool, s.engine⟩).1,
        { s with
          pools := s.pools.setIfInBounds p ((x <* Pool.settle s.prompt).run ⟨pool, s.engine⟩).2.pool
          engine := ((x <* Pool.settle s.prompt).run ⟨pool, s.engine⟩).2.engine }) := by
  rw [onPool_eq]
  show StateT.run (ExceptT.run (s.pools[p]?.elim bad _)) s = _
  rw [hp]
  rfl

theorem onPool_run {x y : PoolM V.source α} {pre : Stake} {post : α → Stake}
    (h : Trades U.toUpkeep pre x y post) (hp : pre ≠ 0) (hY : Pool.Backed (Y.1 p))
    (hs : Held U (Y + inPool p pre) s) :
    (onPool p x).run.run s = (onPool p y).run.run s ∧
      ∃ a s', (onPool p x).run.run s = (.ok a, s') ∧ s'.kept = s.kept ∧
        Held U (Y + inPool p (post a)) s' := by
  have hlt : p < s.pools.size := by
    by_contra hge
    have h0 := hs.absent p (by omega)
    rw [add_inPool_self, add_comm] at h0
    exact add_ne_zero hp _ h0
  have hpool := Array.getElem?_eq_getElem hlt
  obtain ⟨same, hd⟩ := settled s.prompt (h (Y.1 p) (s.others (Y + inPool p pre) p) hY
    (hs.linked_others p)) _ (add_inPool_self Y p pre ▸ hs.desk hpool)
  rw [onPool_some hpool, onPool_some hpool]
  refine ⟨by rw [same], _, _, rfl, rfl, ?_⟩
  refine hs.put hpool (add_inPool_self Y p _ ▸ hd) (fun q hq => ?_) rfl
  rw [add_inPool_of_ne Y hq, add_inPool_of_ne Y hq]

end Session

end QueryLease

import Mathlib.Algebra.BigOperators.Group.List.Basic
import QueryLease.Proofs.Pool.Leasing

/-! Who owns what of a pool. A stake counts the connections, the owners and the reads of each handle
that somebody holds; an operation trades one stake for another, whatever else is held at the time.
-/

namespace QueryLease.Pool

variable {S : Source} {B α β : Type}

inductive Token where
  | connection
  | owner (h : Nat)
  | read (h : Nat)
  deriving DecidableEq

abbrev Stake := Token → Nat

def one (t : Token) : Stake := Pi.single t 1

theorem one_apply (t u : Token) : one t u = if u = t then 1 else 0 := Pi.single_apply t 1 u

theorem add_one_self (G : Stake) (t : Token) : (G + one t) t = G t + 1 := by
  rw [Pi.add_apply, one_apply, if_pos rfl]

theorem add_one_of_ne (G : Stake) {t u : Token} (h : u ≠ t) : (G + one t) u = G u := by
  rw [Pi.add_apply, one_apply, if_neg h, Nat.add_zero]

theorem add_one_ne_zero (G : Stake) (t : Token) : (G + one t) t ≠ 0 := by
  rw [add_one_self]
  exact Nat.succ_ne_zero _

theorem one_self (t : Token) : one t t ≠ 0 := by
  rw [one_apply, if_pos rfl]
  exact Nat.succ_ne_zero 0

theorem ne_zero_of_apply {G : Stake} {t : Token} (h : G t ≠ 0) : G ≠ 0 := fun h0 =>
  h (congrFun h0 t)

theorem one_ne_zero (t : Token) : one t ≠ 0 := ne_zero_of_apply (one_self t)

theorem add_ne_zero {G : Stake} (h : G ≠ 0) (G' : Stake) : G + G' ≠ 0 := fun h' =>
  h (funext fun t => (Nat.add_eq_zero_iff.1 (congrFun h' t)).1)

/-- Nobody reads a handle that nobody owns. -/
def Backed (G : Stake) : Prop := ∀ h, G (.owner h) = 0 → G (.read h) = 0

def ownedCount (owners : Nat) : Nat := if owners = 0 then 0 else 1

structure Owned (G : Stake) (p : Pool S) : Prop where
  owners : p.owners = G .connection + p.total fun x => ownedCount x.owners
  held : ∀ h, G (.owner h) = p.handles[h]?.elim 0 fun x => x.owners

def Abandoned (p : Pool S) : Prop := ∀ (h : Nat) (x : Handle S), p.handles[h]? = some x →
  x.owners = 0 → x.word.requested = true

/-- A pool in which just `G` is held. Once nobody owns it, its link has ended, and nothing waits. -/
structure Sound (G : Stake) (p : Pool S) : Prop extends Owned G p where
  backed : Backed G
  abandoned : Abandoned p
  leased : Leased (fun h => G (.read h)) [] p
  linked : p.owners ≠ 0 → Call.close ∉ p.calls
  ended : p.owners = 0 → p.queue = [] ∧ ∃ earlier, p.calls = .close :: earlier ∧ .close ∉ earlier

def assets (p : Pool S) : Multiset (Asset S B) :=
  p.stock [] + if p.owners = 0 then 0 else {.link p.link}

structure Held (U : Upkeep S B) (A : Multiset (Asset S B)) (G : Stake) (d : Desk S) : Prop where
  sound : d.pool.Sound G
  good : U.Good (d.pool.assets + A) d.engine

def gained {ε : Type} (X : Stake) (g : α → Stake) : Except ε α → Stake
  | .ok a => X + g a
  | .error _ => X

@[simp] theorem gained_ok {ε : Type} (X : Stake) (g : α → Stake) (a : α) :
    gained X g (.ok a : Except ε α) = X + g a := rfl

@[simp] theorem gained_error {ε : Type} (X : Stake) (g : α → Stake) (e : ε) :
    gained X g (.error e) = X := rfl

/-- The two actions are alike, and trade the stake `pre` for `post`, whatever else is held. -/
def Trades (U : Upkeep S B) (pre : Stake) (x y : PoolM S α) (post : α → Stake) : Prop :=
  ∀ G A, Backed G → Linked A → Alike (Held U A (G + pre)) x y fun a => Held U A (G + post a)

variable {U : Upkeep S B} {A : Multiset (Asset S B)} {G G' : Stake} {p q : Pool S} {d : Desk S}
  {h : Nat} {x : Handle S}

namespace Backed

theorem add (b : Backed G) (b' : Backed G') : Backed (G + G') := fun h h0 => by
  have h0 := Nat.add_eq_zero_iff.1 h0
  exact Nat.add_eq_zero_iff.2 ⟨b h h0.1, b' h h0.2⟩

theorem zero : Backed 0 := fun _ _ => rfl

theorem connection : Backed (one .connection) := fun _ _ => rfl

theorem owner (h : Nat) : Backed (one (.owner h)) := fun _ _ => rfl

theorem add_read (b : Backed G) (h0 : G (.owner h) ≠ 0) : Backed (G + one (.read h)) := by
  intro k hk
  have hk : G (.owner k) = 0 := hk
  have hne : k ≠ h := fun e => h0 (e ▸ hk)
  show G (.read k) + one (.read h) (.read k) = 0
  rw [one_apply, if_neg (by simpa using hne), b k hk]

end Backed

theorem total_ownedCount (p : Pool S) : (p.total fun x => ownedCount x.owners) =
    ((p.handles.map fun x => x.owners).toList.map ownedCount).sum := by
  rw [total, Array.toList_map, List.map_map]
  rfl

theorem Owned.steady (o : Owned G p) (s : Steady p q) : Owned G q where
  owners := by rw [s.owners, o.owners, total_ownedCount, total_ownedCount, s.owned]
  held h := by
    rw [o.held]
    have := congrArg (·[h]?) s.owned
    simp only [Array.getElem?_map] at this
    cases hp : p.handles[h]? with
    | none =>
      rw [hp] at this
      rw [Option.map_eq_none_iff.1 this]
    | some x =>
      rw [hp] at this
      obtain ⟨y, hy, e⟩ := Option.map_eq_some_iff.1 this
      rw [hy]
      exact e.symm

theorem Owned.exists_handle (o : Owned G p) (h0 : G (.owner h) ≠ 0) :
    ∃ x, p.handles[h]? = some x ∧ x.owners = G (.owner h) := by
  rw [o.held] at h0 ⊢
  cases hx : p.handles[h]? with
  | none =>
    rw [hx] at h0
    exact absurd rfl h0
  | some x => exact ⟨x, rfl, rfl⟩

theorem Owned.owners_ne_zero (o : Owned G p) (h0 : G .connection ≠ 0 ∨ ∃ h, G (.owner h) ≠ 0) :
    p.owners ≠ 0 := by
  rw [o.owners]
  rcases h0 with h0 | ⟨h, h0⟩
  · omega
  · obtain ⟨x, hx, hn⟩ := o.exists_handle h0
    have : _ + ownedCount x.owners = _ + 0 :=
      total_update (fun x => ownedCount x.owners) hx fun x => { x with owners := 0 }
    rw [show ownedCount x.owners = 1 from if_neg (hn ▸ h0)] at this
    omega

theorem Held.leasing (hd : Held U A G d) (ho : d.pool.owners ≠ 0) :
    Leasing U A d.pool (fun h => G (.read h)) [] d where
  steady := Steady.refl _
  leased := hd.sound.leased
  linked := hd.sound.linked ho
  good := by
    have := hd.good
    rwa [assets, if_neg ho, add_assoc, add_left_comm, Multiset.singleton_add] at this

theorem Leasing.held (L : Leasing U A p (fun h => G (.read h)) [] d) (o : Owned G p) (b : Backed G)
    (ho : p.owners ≠ 0) (ha : Abandoned d.pool) : Held U A G d where
  sound :=
    { toOwned := o.steady L.steady
      backed := b
      abandoned := ha
      leased := L.leased
      linked := fun _ => L.linked
      ended := fun h0 => absurd (L.steady.owners ▸ h0) ho }
  good := by
    rw [assets, if_neg (L.steady.owners ▸ ho), add_assoc, add_left_comm, Multiset.singleton_add]
    exact L.good

def Stake.withReads (G : Stake) (reads : Nat → Nat) : Stake
  | .connection => G .connection
  | .owner h => G (.owner h)
  | .read h => reads h

theorem Steady.abandoned_at (s : Steady p q) (ha : ∀ x, p.handles[h]? = some x → x.owners = 0 →
    x.word.requested = true) (y : Handle S) (hy : q.handles[h]? = some y) (h0 : y.owners = 0) :
    y.word.requested = true := by
  have := congrArg (·[h]?) s.owned
  simp only [Array.getElem?_map, hy] at this
  obtain ⟨x, hx, e⟩ := Option.map_eq_some_iff.1 this.symm
  exact s.requested h x y hx hy (ha x hx (e.trans h0))

theorem Steady.abandoned (s : Steady p q) (ha : Abandoned p) : Abandoned q :=
  fun h => s.abandoned_at (ha h)

theorem Sound.fresh (link : S.Link) (mode : Mode) :
    Sound (one .connection) ({ link, mode } : Pool S) where
  owners := rfl
  held h := rfl
  backed := Backed.connection
  abandoned h x hx := absurd hx (by simp)
  leased :=
    { counts := fun h x hx => absurd hx (by simp)
      gone_once := fun h => rfl
      gone_all := rfl
      released := rfl
      disposed := rfl
      inline := fun _ => rfl
      lawful := trivial }
  linked _ := List.not_mem_nil
  ended := nofun

theorem Held.lift {y : PoolM S α} {reads : α → Nat → Nat}
    (op : ∀ p, Owned G p → Keeps (Leasing U A p (fun h => G (.read h)) []) y fun a =>
      Leasing U A p (reads a) [])
    (h0 : G .connection ≠ 0 ∨ ∃ h, G (.owner h) ≠ 0)
    (b : Backed G → ∀ a, Backed (G.withReads (reads a))) :
    Keeps (Held U A G) y fun a => Held U A (G.withReads (reads a)) := by
  intro d hd
  have ho := hd.sound.owners_ne_zero h0
  have L := (op d.pool hd.sound.toOwned).post (hd.leasing ho)
  exact ⟨rfl, Leasing.held (G := G.withReads _) L ⟨hd.sound.owners, hd.sound.held⟩
    (b hd.sound.backed _) ho (L.steady.abandoned hd.sound.abandoned)⟩

theorem Stake.withReads_self (G : Stake) : (G.withReads fun h => G (.read h)) = G := by
  funext t
  cases t <;> rfl

theorem Stake.withReads_succ (G : Stake) (h : Nat) :
    G.withReads (Function.update (fun h => G (.read h)) h (G (.read h) + 1)) =
      G + one (.read h) := by
  funext t
  rw [Pi.add_apply, one_apply]
  cases t with
  | connection => rfl
  | owner k => rfl
  | read k =>
    simp only [withReads, Function.update_apply, Token.read.injEq]
    split_ifs with hk
    · rw [hk]
    · rfl

theorem Stake.withReads_pred (G : Stake) (h : Nat) :
    (G + one (.read h)).withReads
      (Function.update (fun k => (G + one (.read h)) (.read k)) h (G (.read h))) = G := by
  funext t
  cases t with
  | connection => rfl
  | owner k => rfl
  | read k =>
    simp only [withReads, Function.update_apply, Pi.add_apply, one_apply, Token.read.injEq]
    split_ifs with hk
    · rw [hk]
    · rfl

theorem Held.lift_same {y : PoolM S α}
    (op : ∀ p, Keeps (Leasing U A p (fun h => G (.read h)) []) y
      fun _ => Leasing U A p (fun h => G (.read h)) [])
    (h0 : G .connection ≠ 0 ∨ ∃ h, G (.owner h) ≠ 0) :
    Keeps (Held U A G) y fun _ => Held U A G := by
  have := Held.lift (fun p _ => op p) h0 fun b _ => by rwa [Stake.withReads_self]
  rwa [Stake.withReads_self] at this

theorem collect_trades : Trades U (one .connection) collect collect fun _ => one .connection :=
  fun _ _ _ _ => Held.lift_same (fun _ => collect_keeps) (.inl (add_one_ne_zero _ _))

theorem releaseAll_trades :
    Trades U (one .connection) releaseAll releaseAll fun _ => one .connection :=
  fun _ _ _ _ => Held.lift_same (fun _ => releaseAll_keeps) (.inl (add_one_ne_zero _ _))

theorem add_apply_ne_zero {X : Stake} {t : Token} (G : Stake) (h0 : X t ≠ 0) : (G + X) t ≠ 0 :=
  fun h => h0 (Nat.add_eq_zero_iff.1 h).2

variable {X : Stake}

theorem requestRelease_trades (h0 : X (.owner h) ≠ 0) :
    Trades U X (requestRelease h) (requestRelease h) fun _ => X :=
  fun G _ _ _ => Held.lift_same
    (fun _ => (requestRelease_keeps h).weaken (fun _ => id) fun _ _ => And.left)
    (.inr ⟨h, add_apply_ne_zero G h0⟩)

theorem acquire_trades (h0 : X (.owner h) ≠ 0) : Trades U X (acquire h) (acquire h)
    (gained X fun _ => one (.read h)) := by
  intro G A _ _
  have h0 := add_apply_ne_zero G h0
  refine (Held.lift (fun _ _ => acquire_keeps h) (.inr ⟨h, h0⟩) ?_).weaken (fun _ => id) ?_
  · rintro backed (_ | ⟨⟨⟩⟩)
    · rwa [Stake.withReads_self]
    · rw [Stake.withReads_succ]
      exact backed.add_read h0
  · rintro (_ | ⟨⟨⟩⟩) d hd
    · rwa [Stake.withReads_self] at hd
    · rwa [Stake.withReads_succ, add_assoc] at hd

theorem Held.endRead (hb : Backed G) (h0 : G (.owner h) ≠ 0) :
    Keeps (Held U A (G + one (.read h))) (Pool.endRead h) fun _ => Held U A G := by
  have h0' : (G + one (.read h)) (.owner h) ≠ 0 := by rwa [add_one_of_ne _ (by nofun)]
  have := Held.lift (U := U) (A := A) (G := G + one (.read h))
    (fun p o => endRead_keeps (h := h) (n := G (.read h)) ?_ ?_) (.inr ⟨h, h0'⟩) fun _ _ => ?_
  · rwa [Stake.withReads_pred] at this
  · rw [Pi.add_apply, one_apply, if_pos rfl]
  · obtain ⟨x, hx, -⟩ := o.exists_handle (h := h) h0'
    exact (Array.getElem?_eq_some_iff.1 hx).1
  · rwa [Stake.withReads_pred]

theorem endRead_trades (h : Nat) :
    Trades U (one (.owner h) + one (.read h)) (endRead h) (endRead h) fun _ => one (.owner h) := by
  intro G A hb _
  rw [← add_assoc]
  exact Held.endRead (hb.add (.owner h)) (add_one_ne_zero G (.owner h))

theorem trades_of_reading {y : PoolM S α} {h : Nat}
    (op : ∀ {A p reads}, reads h ≠ 0 →
      Keeps (Leasing U A p reads []) y fun _ => Leasing U A p reads []) :
    Trades U (one (.owner h) + one (.read h)) y y fun _ => one (.owner h) + one (.read h) := by
  intro G A _ _
  simp only [← add_assoc]
  exact Held.lift_same (fun _ => op (add_one_ne_zero (G + one (.owner h)) (.read h)))
    (.inr ⟨h, add_one_ne_zero G (.owner h)⟩)

theorem fetch_trades (h : Nat) : Trades U (one (.owner h) + one (.read h)) (fetch h) (fetch h)
    fun _ => one (.owner h) + one (.read h) := trades_of_reading fetch_keeps

theorem readCell_trades (h : Nat) (row : S.Row) (column : Nat) :
    Trades U (one (.owner h) + one (.read h)) (readCell h row column) (readCell h row column)
      fun _ => one (.owner h) + one (.read h) :=
  trades_of_reading fun hr => readCell_keeps hr row column

theorem Owned.connection_ne_zero (o : Owned (G + one .connection) p) : p.owners ≠ 0 :=
  o.owners_ne_zero (.inl (add_one_ne_zero _ _))

theorem Owned.update {g : Handle S → Handle S} (o : Owned G p) (hx : p.handles[h]? = some x)
    (hG : ∀ k, G' (.owner k) = if h = k then (g x).owners else G (.owner k))
    (hn : G .connection + ownedCount x.owners = G' .connection + ownedCount (g x).owners) :
    Owned G' (p.update h g) where
  owners := by
    have total : _ + ownedCount x.owners = _ + ownedCount (g x).owners :=
      total_update (fun x => ownedCount x.owners) hx g
    have owners := o.owners
    show p.owners = _
    omega
  held k := by
    rw [hG, getElem?_update, o.held]
    split_ifs with hk
    · rw [← hk, hx]
      rfl
    · rfl

theorem Owned.withOwners {n : Nat} (o : Owned G p) (hG : ∀ h, G' (.owner h) = G (.owner h))
    (hn : n + G .connection = p.owners + G' .connection) : Owned G' { p with owners := n } where
  owners := by
    have owners := o.owners
    show n = G' .connection + p.total fun x => ownedCount x.owners
    omega
  held h := by rw [hG, o.held]

theorem Leasing.update {reads : Nat → Nat} (L : Leasing U A p reads [] d) (h : Nat)
    {g : Handle S → Handle S} (hw : ∀ x, (g x).word = x.word) (hb : ∀ x, (g x).buffer = x.buffer) :
    Leasing U A (d.pool.update h g) reads [] { d with pool := d.pool.update h g } where
  steady := Steady.refl _
  leased := L.leased.update hw
  linked := L.linked
  good := by
    rw [stock_update hw hb]
    exact L.good

theorem Leasing.withOwners {reads : Nat → Nat} (L : Leasing U A p reads [] d) (n : Nat) :
    Leasing U A { d.pool with owners := n } reads [] { d with pool.owners := n } where
  steady := Steady.refl _
  leased := L.leased.move rfl rfl (List.Perm.refl _) L.leased.disposed L.leased.inline
    L.leased.lawful
  linked := L.linked
  good := L.good

theorem join_trades : Trades U (one .connection) join join
    fun _ => one .connection + one .connection := by
  intro G A hb _
  apply Alike.of_modify
  intro d hd
  have L := (hd.leasing hd.sound.connection_ne_zero).withOwners (d.pool.owners + 1)
  show Held U A (G + (one .connection + one .connection)) { d with pool.owners := _ }
  rw [← add_assoc]
  refine Leasing.held L (hd.sound.withOwners (fun h => rfl) ?_)
    ((hb.add .connection).add .connection) (Nat.succ_ne_zero _) hd.sound.abandoned
  rw [add_one_self (G + one .connection)]
  omega

theorem retain_trades (h0 : X (.owner h) ≠ 0) :
    Trades U X (retain h) (retain h) fun _ => X + one (.owner h) := by
  intro G A _ _
  simp only [← add_assoc]
  apply Alike.of_modify
  intro d hd
  have h0 := add_apply_ne_zero G h0
  have ho := hd.sound.owners_ne_zero (.inr ⟨h, h0⟩)
  obtain ⟨x, hx, hn⟩ := hd.sound.exists_handle h0
  have L := (hd.leasing ho).update h (g := fun x => { x with owners := x.owners + 1 })
    (fun _ => rfl) fun _ => rfl
  refine Leasing.held L (hd.sound.update hx (fun k => ?_) ?_) (hd.sound.backed.add (.owner h)) ho
    fun k y hy hy0 => ?_
  · split_ifs with hk
    · subst hk
      rw [add_one_self, hn]
    · exact add_one_of_ne _ (by simpa using Ne.symm hk)
  · show _ = _ + ownedCount (x.owners + 1)
    rw [ownedCount, ownedCount, if_neg (hn ▸ h0), if_neg (Nat.succ_ne_zero _),
      add_one_of_ne _ (by nofun)]
  · rw [getElem?_update] at hy
    split_ifs at hy with hk
    · obtain ⟨z, -, rfl⟩ := Option.map_eq_some_iff.1 hy
      exact absurd hy0 (Nat.succ_ne_zero _)
    · exact hd.sound.abandoned k y hy hy0

theorem claimCursor_trades (h0 : X (.owner h) ≠ 0) :
    Trades U X (claimCursor h) (claimCursor h) fun _ => X :=
  fun G _ _ _ => Held.lift_same (fun _ => claimCursor_keeps h) (.inr ⟨h, add_apply_ne_zero G h0⟩)

theorem Owned.all_shut {inHand : List (Nat × S.Buffer)} (o : Owned G p) (b : Backed G)
    (L : Leased (fun h => G (.read h)) inHand p) (h0 : p.owners = 0) (ha : Abandoned p)
    (h : Nat) (x : Handle S) (hx : p.handles[h]? = some x) : x.word = .shut := by
  have hG : G (.owner h) = 0 := by
    by_contra hG
    exact o.owners_ne_zero (.inr ⟨h, hG⟩) h0
  have counts := L.counts h x hx
  rw [b h hG] at counts
  refine counts.eq_shut (ha h x hx ?_)
  have := o.held h
  rw [hx, hG] at this
  exact this.symm

theorem stock_shut (hs : ∀ (h : Nat) (x : Handle S), p.handles[h]? = some x → x.word = .shut)
    (hq : p.queue = []) :
    p.stock [] = Multiset.replicate p.disposed (.receipt : Asset S B) := by
  have none : (p.total (asset p.link) : Multiset (Asset S B)) = 0 := by
    apply List.sum_eq_zero
    intro a ha
    obtain ⟨x, hx, rfl⟩ := List.mem_map.1 ha
    obtain ⟨h, hx⟩ := List.mem_iff_getElem?.1 hx
    exact if_pos (hs h x (by simpa using hx))
  rw [stock, none, zero_add, leftovers, hq]
  exact zero_add _

theorem Owned.owners_eq_zero (o : Owned G p) (hc : G .connection = 0)
    (ho : ∀ h, G (.owner h) = 0) : p.owners = 0 := by
  rw [o.owners, hc, zero_add]
  apply List.sum_eq_zero
  intro n hn
  obtain ⟨x, hx, rfl⟩ := List.mem_map.1 hn
  obtain ⟨h, hx⟩ := List.mem_iff_getElem?.1 hx
  have := o.held h
  rw [ho, show p.handles[h]? = some x by simpa using hx] at this
  exact if_pos this.symm

theorem close_keeps (o : Owned G p) (b : Backed G) (h0 : p.owners = 0) (ha : Abandoned p)
    (hA : Linked A) :
    Keeps (Leasing U A p (fun h => G (.read h)) [])
      (do
        discard collect
        modify fun d => { pool := d.pool.note .close, engine := S.close d.pool.link d.engine })
      fun _ => Held U A G := by
  refine Alike.bind (q := fun _ d => Leasing U A p (fun h => G (.read h)) [] d ∧ d.pool.queue = [])
    ?_ fun _ => Alike.of_modify ?_
  · intro d hd
    exact ⟨rfl, collect_keeps.post hd, collect_empties.post trivial⟩
  · intro d ⟨L, hq⟩
    have o' := o.steady L.steady
    have h0' := L.steady.owners.trans h0
    have ha' := L.steady.abandoned ha
    constructor
    · exact
        { owners := o'.owners
          held := o'.held
          backed := b
          abandoned := ha'
          leased := L.leased.note rfl L.linked
          linked := absurd h0'
          ended := fun _ => ⟨hq, _, rfl, L.linked⟩ }
    · have stock : d.pool.stock [] = Multiset.replicate d.pool.disposed (.receipt : Asset S B) :=
        stock_shut (o'.all_shut b L.leased h0' ha') hq
      have good := U.close L.good (stock ▸ (Linked.of_receipts _).add hA)
      have : (d.pool.note .close).assets = (d.pool.stock [] : Multiset (Asset S B)) := by
        rw [assets, if_pos (show (d.pool.note .close).owners = 0 from h0'), add_zero]
        rfl
      rwa [this]

theorem leave_trades : Trades U (one .connection) leave leave fun _ => 0 := by
  intro G A hb hA
  refine Alike.bind (q := fun _ d => Leasing U A d.pool (fun h => G (.read h)) [] d ∧
    Owned G d.pool ∧ Abandoned d.pool) (Alike.of_modify ?_) fun _ => Alike.get_bind ?_
  · intro d hd
    have ho := hd.sound.connection_ne_zero
    refine ⟨(hd.leasing ho).withOwners _, hd.sound.withOwners (fun h => rfl) ?_, hd.sound.abandoned⟩
    rw [add_one_self]
    omega
  · intro d ⟨L, o, ha⟩
    dsimp only
    split_ifs with h0
    · exact (close_keeps o hb h0 ha hA).weaken (fun _ e => e ▸ L) fun _ _ => id
    · exact Alike.of_eq rfl (L.held o hb h0 ha)

theorem owned_eq (hx : p.handles[h]? = some x) : p.owned h = (x.owners != 0) := by
  rw [owned, hx]
  rfl

theorem Owned.drop (o : Owned (G + one (.owner h)) p) (hx : p.handles[h]? = some x)
    (hn : x.owners = G (.owner h) + 1) :
    Owned (if G (.owner h) = 0 then G + one .connection else G)
      (p.update h fun x => { x with owners := x.owners - 1 }) := by
  have owner : ∀ k, G (.owner k) =
      if h = k then x.owners - 1 else (G + one (.owner h)) (.owner k) := by
    intro k
    split_ifs with hk
    · rw [← hk, hn, Nat.add_sub_cancel]
    · rw [add_one_of_ne _ (by simpa using Ne.symm hk)]
  have last : ownedCount x.owners = 1 := if_neg (by omega)
  split_ifs with hG
  · refine o.update hx (fun k => ?_) ?_
    · rw [← owner]
      rfl
    · rw [last, add_one_self, show x.owners - 1 = 0 by omega]
      rfl
  · refine o.update hx owner ?_
    rw [last, ownedCount, if_neg (show x.owners - 1 ≠ 0 by omega), add_one_of_ne _ (by nofun)]

structure Orphaned (U : Upkeep S B) (A : Multiset (Asset S B)) (G : Stake) (h : Nat)
    (d : Desk S) : Prop where
  leasing : Leasing U A d.pool (fun h => G (.read h)) [] d
  owned : Owned (G + one .connection) d.pool
  others : ∀ (k : Nat) (x : Handle S), k ≠ h → d.pool.handles[k]? = some x → x.owners = 0 →
    x.word.requested = true

theorem drop_owner (h : Nat) (hb : Backed G) (hd : Held U A (G + one (.owner h)) d)
    (hq : q = d.pool.update h fun x => { x with owners := x.owners - 1 }) :
    if q.owned h then Held U A G { d with pool := q }
    else Orphaned U A G h { d with pool := q } := by
  have h0 := add_one_ne_zero G (.owner h)
  have ho := hd.sound.owners_ne_zero (.inr ⟨h, h0⟩)
  obtain ⟨x, hx, hn⟩ := hd.sound.exists_handle h0
  rw [add_one_self] at hn
  have L := (hd.leasing ho).update h (g := fun x => { x with owners := x.owners - 1 })
    (fun _ => rfl) fun _ => rfl
  have dropped := hd.sound.drop hx hn
  rw [← hq] at L dropped
  have get (k : Nat) : q.handles[k]? = if h = k then some { x with owners := x.owners - 1 }
      else d.pool.handles[k]? := by
    rw [hq, getElem?_update]
    split_ifs with hk
    · rw [← hk, hx]
      rfl
    · rfl
  -- Nobody else is affected: unowned handles have been asked for already.
  have others (k : Nat) (y : Handle S) (hk : k ≠ h) (hy : q.handles[k]? = some y) :
      y.owners = 0 → y.word.requested = true := by
    rw [get, if_neg (Ne.symm hk)] at hy
    exact hd.sound.abandoned k y hy
  rw [owned_eq ((get h).trans (if_pos rfl))]
  by_cases hG : G (.owner h) = 0
  · rw [if_neg (by simp [hn, hG])]
    rw [if_pos hG] at dropped
    exact ⟨L, dropped, others⟩
  · rw [if_pos (by simp [hn, hG])]
    rw [if_neg hG] at dropped
    refine Leasing.held L dropped hb (by rwa [hq]) fun k y hky hk0 => ?_
    by_cases hk : k = h
    · rw [get, if_pos hk.symm] at hky
      obtain rfl := Option.some.inj hky
      exact absurd (show x.owners - 1 = 0 from hk0) (by omega)
    · exact others k y hk hky hk0

theorem Orphaned.keeps (hb : Backed G) : Keeps (Orphaned U A G h) (requestRelease h)
    fun _ => Held U A (G + one .connection) := by
  intro d ⟨L, o, others⟩
  obtain ⟨L', hr⟩ := (requestRelease_keeps h).post L
  refine ⟨rfl, Leasing.held (G := G + one .connection) L' o (hb.add .connection)
    o.connection_ne_zero fun k x hx h0 => ?_⟩
  by_cases hk : k = h
  · subst hk
    exact hr x hx
  · exact L'.steady.abandoned_at (fun x => others k x hk) x hx h0

theorem drop_trades (h : Nat) : Trades U (one (.owner h)) (drop h) (drop h) fun _ => 0 := by
  intro G A hb hA
  refine Alike.bind (q := fun _ d => if d.pool.owned h then Held U A G d else Orphaned U A G h d)
    (Alike.of_modify fun d hd => drop_owner h hb hd rfl) fun _ => Alike.get_bind ?_
  intro d hd
  dsimp only
  cases ho : d.pool.owned h with
  | true => exact Alike.of_eq rfl (by rwa [if_pos ho] at hd)
  | false =>
    rw [if_neg (by rw [ho]; nofun)] at hd
    have requested : Keeps (· = d) (requestRelease h) fun _ => Held U A (G + one .connection) :=
      (Orphaned.keeps hb).weaken (fun _ e => e ▸ hd) fun _ _ => id
    exact (Alike.discard requested).bind fun _ => leave_trades G A hb hA

theorem attend_keeps (n : Nat) : Keeps (Held U A G) (attend n) fun _ => Held U A G := by
  apply Alike.get_bind
  intro d hd
  split_ifs with h
  · have L := (reap_keeps n).post (hd.leasing h)
    exact Alike.of_eq rfl (L.held hd.sound.toOwned hd.sound.backed h
      (L.steady.abandoned hd.sound.abandoned))
  · exact Alike.of_eq rfl hd

theorem settle_keeps (prompt : Bool) :
    Keeps (Held U A G) (settle prompt) fun _ => Held U A G := by
  apply Alike.get_bind
  intro d hd
  dsimp only
  split_ifs
  · exact (attend_keeps _).weaken (fun _ e => e ▸ hd) fun _ _ => id
  · exact Alike.of_eq rfl hd

theorem settled {x y : PoolM S α} {g : α → Stake} (prompt : Bool)
    (h : Alike (Held U A G) x y fun a => Held U A (g a)) :
    Alike (Held U A G) (x <* settle prompt) (y <* settle prompt) fun a => Held U A (g a) :=
  h.bind fun _ => (settle_keeps prompt).bind fun _ => Alike.still

theorem Owned.absent (o : Owned G p) : G (.owner p.handles.size) = 0 := by
  rw [o.held, Array.getElem?_size]
  rfl

theorem Owned.enrol (o : Owned G p) (b : S.Buffer) (columns : List String) :
    Owned (G + one (.owner p.handles.size)) (p.enrol b columns) where
  owners := by
    rw [total_enrol, add_one_of_ne _ (by nofun), ← add_assoc, ← o.owners]
    obtain ⟨tracked, e⟩ := p.exists_enrol b columns
    rw [e]
    rfl
  held h := by
    rw [getElem?_enrol]
    split_ifs with hh
    · rw [hh, add_one_self, o.absent]
      rfl
    · rw [add_one_of_ne _ (by simpa using hh), o.held]

theorem Leasing.enrol {reads : Nat → Nat} (L : Leasing U A p reads [] d) (b : S.Buffer)
    (columns : List String) {engine : S.State} (hr : reads d.pool.handles.size = 0)
    (good : U.Good (.link d.pool.link ::ₘ .buffer d.pool.link b ::ₘ (d.pool.stock [] + A)) engine) :
    Leasing U A (d.pool.enrol b columns) reads [] ⟨d.pool.enrol b columns, engine⟩ where
  steady := Steady.refl _
  leased := L.leased.enrol hr b columns
  linked := by
    obtain ⟨tracked, e⟩ := d.pool.exists_enrol b columns
    rw [e]
    exact L.linked
  good := by
    obtain ⟨tracked, e⟩ := d.pool.exists_enrol b columns
    rw [stock_enrol, Multiset.cons_add]
    rw [e]
    exact good

theorem query_trades (text : String) : Trades U (one .connection) (query text) (query text)
    (gained (one .connection) fun h => one (.owner h)) := by
  intro G A hb _
  apply Alike.get_bind
  intro d hd
  have ho := hd.sound.connection_ne_zero
  have L := hd.leasing ho
  cases he : S.execute d.pool.link text d.engine with
  | mk outcome engine =>
    cases outcome with
    | error f =>
      have good := U.execute_error (f := f) L.good (congrArg Prod.fst he)
      rw [he] at good
      exact Alike.of_eq rfl (Leasing.held (d := ⟨d.pool, engine⟩)
        ⟨L.steady, L.leased, L.linked, good⟩ hd.sound.toOwned (hb.add .connection) ho
        hd.sound.abandoned)
    | ok found =>
      obtain ⟨b, columns⟩ := found
      have good := U.execute_ok (b := b) L.good (congrArg Prod.fst he)
      rw [he] at good
      have backed := hb.add .connection
      have absent := hd.sound.absent
      have L' := L.enrol b columns (backed _ absent) good
      refine Alike.of_eq rfl ?_
      show Held U A (G + (one .connection + one (.owner d.pool.handles.size)))
        ⟨d.pool.enrol b columns, engine⟩
      rw [← add_assoc]
      refine Leasing.held L' (hd.sound.enrol b columns) (backed.add (.owner _)) ?_ ?_
      · obtain ⟨tracked, e⟩ := d.pool.exists_enrol b columns
        rw [e]
        exact Nat.succ_ne_zero _
      · intro k x hx h0
        rw [getElem?_enrol] at hx
        split_ifs at hx with hk
        · obtain rfl := Option.some.inj hx
          cases h0
        · exact hd.sound.abandoned k x hx h0

/-- The link has ended, and each buffer was disposed of once before that. -/
def Ended (p : Pool S) : Prop :=
  ∃ earlier, p.calls = .close :: earlier ∧ ∀ h < p.handles.size, (disposals earlier).count h = 1

theorem Sound.ended_of_owners (s : Sound G p) (h0 : p.owners = 0) : p.Ended := by
  obtain ⟨hq, earlier, hc, -⟩ := s.ended h0
  refine ⟨earlier, hc, fun h hh => ?_⟩
  have hx := Array.getElem?_eq_getElem hh
  have once := s.leased.gone_once h
  rw [gone, hq, hc, hx] at once
  refine once.trans ?_
  rw [Option.elim_some, s.all_shut s.backed s.leased h0 s.abandoned h _ hx]
  rfl

theorem assets_fresh (link : S.Link) (mode : Mode) :
    (({ link, mode } : Pool S).assets : Multiset (Asset S B)) = {.link link} := by
  show 0 + (0 + 0) + _ = _
  rw [add_zero, zero_add]
  rfl

theorem link_of_mem_stock {l : S.Link} {b : S.Buffer} {inHand : List (Nat × S.Buffer)}
    (hb : .buffer l b ∈ (p.stock inHand : Multiset (Asset S B))) : l = p.link := by
  rcases Multiset.mem_add.1 hb with hb | hb
  · obtain ⟨x, -, hx⟩ := mem_sum_map.1 hb
    unfold asset at hx
    split_ifs at hx
    · exact absurd hx (Multiset.notMem_zero _)
    · cases Multiset.mem_singleton.1 hx
      rfl
  · rcases Multiset.mem_add.1 hb with hb | hb
    · obtain ⟨e, -, he⟩ := List.mem_map.1 (Multiset.mem_coe.1 hb)
      cases he
      rfl
    · cases Multiset.eq_of_mem_replicate hb

theorem Sound.assets_ended (s : Sound G p) (h0 : p.owners = 0) :
    p.assets = Multiset.replicate p.disposed (.receipt : Asset S B) := by
  rw [assets, if_pos h0, add_zero]
  exact stock_shut (s.all_shut s.backed s.leased h0 s.abandoned) (s.ended h0).1

theorem Sound.linked_assets (s : Sound G p) : Linked (p.assets : Multiset (Asset S B)) := by
  by_cases h0 : p.owners = 0
  · rw [s.assets_ended h0]
    exact Linked.of_receipts _
  · rw [assets, if_neg h0]
    intro l b hb
    rcases Multiset.mem_add.1 hb with hb | hb
    · rw [link_of_mem_stock hb]
      exact Multiset.mem_add.2 (.inr (Multiset.mem_singleton_self _))
    · cases Multiset.mem_singleton.1 hb

end QueryLease.Pool

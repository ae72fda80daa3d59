import QueryLease.Proofs.Pool.Deeds
import QueryLease.Proofs.Pool.DeskRuns
import QueryLease.Proofs.Pool.Ownership

namespace QueryLease

variable {S : Source} {B : Type}

def Upkeep.free (S : Source) (B : Type) : Upkeep S B where
  Good _ _ := True
  execute_ok _ _ := trivial
  execute_error _ _ := trivial
  fetch _ := trivial
  read _ := trivial
  dispose _ := trivial
  close _ _ := trivial

namespace Pool

def holders (p : Pool S) (h : Nat) : Nat := p.handles[h]?.elim 0 (·.owners)

/-- How many own the pool, handles aside. -/
def connections (p : Pool S) : Nat := p.owners - p.total fun x => ownedCount x.owners

variable {p : Pool S} {G : Stake} {h : Nat} {t : Token}

theorem owned_iff : p.owned h = true ↔ p.holders h ≠ 0 := by
  unfold owned holders
  cases p.handles[h]? with
  | none => simp
  | some x => simp

theorem holders_eq {x : Handle S} (hx : p.handles[h]? = some x) : p.holders h = x.owners := by
  rw [holders, hx]
  rfl

theorem Owned.holders_eq (o : Owned G p) (h : Nat) : p.holders h = G (.owner h) := (o.held h).symm

theorem Owned.connections_eq (o : Owned G p) : p.connections = G .connection := by
  rw [connections, o.owners, Nat.add_sub_cancel]

theorem Sound.reads_eq (s : Sound G p) (h : Nat) : (p.word h).reads = G (.read h) := by
  cases hx : p.handles[h]? with
  | none =>
    have owner : G (.owner h) = 0 := by rw [s.held, hx]; rfl
    rw [word_absent hx, s.backed h owner]
    rfl
  | some x =>
    rw [word_eq hx]
    exact (s.leased.counts h x hx).reads_eq

theorem exists_add_one (h0 : G t ≠ 0) : ∃ G', G = G' + one t := by
  refine ⟨fun u => if u = t then G t - 1 else G u, funext fun u => ?_⟩
  rw [Pi.add_apply, one_apply]
  split_ifs with hu
  · rw [hu]
    omega
  · rfl

theorem Backed.of_add_one (b : Backed (G + one t)) (ht : ∀ h, .owner h ≠ t) : Backed G := by
  intro k hk
  refine (Nat.add_eq_zero_iff.1 (b k ?_)).1
  rwa [add_one_of_ne _ (ht k)]

theorem Backed.of_add_owner (b : Backed (G + one (.owner h)))
    (last : G (.owner h) = 0 → G (.read h) = 0) : Backed G := by
  intro k hk
  by_cases hkh : k = h
  · subst hkh
    exact last hk
  · refine (Nat.add_eq_zero_iff.1 (b k ?_)).1
    rwa [add_one_of_ne _ (by simpa using hkh)]

end Pool

open Pool

namespace Deed

/-- Somebody holds what it takes: an owner for what is done with a handle, a read for what is done
under it, a connection for the rest. The last owner leaves when the reads have ended. -/
def possible (p : Pool S) : Deed S → Bool
  | acquire h | requestRelease h | claimCursor h | retain h => p.owned h
  | endRead h | fetch h | read h _ _ => (p.word h).reads != 0
  | drop h => p.owned h && (p.holders h != 1 || (p.word h).reads == 0)
  | query _ | join | leave | releaseAll => p.connections != 0
  | reap _ | source _ => true

def take (d : Desk S) (deed : Deed S) : Desk S :=
  if deed.possible d.pool then (deed.perform.run d).2 else d

/-- What a desk has become after some deeds, first deed first. -/
def course (d : Desk S) (deeds : List (Deed S)) : Desk S := deeds.foldl take d

end Deed

/-- Just so much is held as the pool counts. -/
def Desk.Sound (d : Desk S) : Prop := ∃ G, d.pool.Sound G

namespace Desk.Sound

variable {d : Desk S} {G : Stake} {h n : Nat} {α : Type} {deed : Deed S}

theorem held (s : d.pool.Sound G) : Held (Upkeep.free S Empty) 0 G d := ⟨s, trivial⟩

theorem fresh (link : S.Link) (mode : Mode) (engine : S.State) :
    Desk.Sound ⟨{ link, mode }, engine⟩ := ⟨_, Pool.Sound.fresh link mode⟩

theorem of_trades {x : PoolM S α} {X : Stake} {post : α → Stake}
    (trades : Trades (Upkeep.free S Empty) X x x post) (b : Backed G)
    (s : d.pool.Sound (G + X)) : Desk.Sound (x.run d).2 :=
  ⟨_, ((trades G 0 b Linked.zero).post (held s)).sound⟩

theorem of_trades_all {x : PoolM S α} {post : α → Stake}
    (trades : Trades (Upkeep.free S Empty) G x x post) (s : d.pool.Sound G) :
    Desk.Sound (x.run d).2 := of_trades trades Backed.zero (by rwa [zero_add])

theorem of_connection {x : PoolM S α} {post : α → Stake}
    (trades : Trades (Upkeep.free S Empty) (one .connection) x x post) (s : d.pool.Sound G)
    (h0 : G .connection ≠ 0) : Desk.Sound (x.run d).2 := by
  obtain ⟨G, rfl⟩ := exists_add_one h0
  exact of_trades trades (s.backed.of_add_one (by simp)) s

theorem of_reading {x : PoolM S α}
    (op : ∀ {p reads}, reads h ≠ 0 → Keeps (Leasing (Upkeep.free S Empty) 0 p reads []) x fun _ =>
      Leasing (Upkeep.free S Empty) 0 p reads [])
    (s : d.pool.Sound G) (h0 : G (.read h) ≠ 0) : Desk.Sound (x.run d).2 := by
  have owner : G (.owner h) ≠ 0 := fun none => h0 (s.backed h none)
  exact ⟨G, ((Held.lift_same (fun _ => op h0) (.inr ⟨h, owner⟩)).post (held s)).sound⟩

theorem endRead (s : d.pool.Sound G) (h0 : G (.read h) ≠ 0) :
    Desk.Sound ((Pool.endRead h).run d).2 := by
  have owner : G (.owner h) ≠ 0 := fun none => h0 (s.backed h none)
  obtain ⟨G, rfl⟩ := exists_add_one h0
  rw [add_one_of_ne _ (by nofun)] at owner
  exact ⟨G, ((Held.endRead (s.backed.of_add_one (by simp)) owner).post (held s)).sound⟩

theorem drop (s : d.pool.Sound G) (h0 : G (.owner h) ≠ 0)
    (last : G (.owner h) = 1 → G (.read h) = 0) : Desk.Sound ((Pool.drop h).run d).2 := by
  obtain ⟨G, rfl⟩ := exists_add_one h0
  refine of_trades (drop_trades h) (s.backed.of_add_owner fun none => ?_) s
  have := last (by rw [add_one_self, none])
  rwa [add_one_of_ne _ (by nofun)] at this

theorem reap (s : d.pool.Sound G) (n : Nat) : Desk.Sound ((Pool.reap n).run d).2 := by
  by_cases h0 : d.pool.owners = 0
  · rw [reap_empty (s.ended h0).1]
    exact ⟨G, s⟩
  · have L := (reap_keeps n).post ((held s).leasing h0)
    exact ⟨G, (L.held s.toOwned s.backed h0 (L.steady.abandoned s.abandoned)).sound⟩

theorem perform (s : d.pool.Sound G) (possible : deed.possible d.pool = true) :
    Desk.Sound (deed.perform.run d).2 := by
  have owner {h : Nat} (owned : d.pool.owned h = true) : G (.owner h) ≠ 0 := by
    rw [← s.holders_eq]
    exact owned_iff.1 owned
  have reading {h : Nat} (reads : ((d.pool.word h).reads != 0) = true) : G (.read h) ≠ 0 := by
    rw [← s.reads_eq]
    exact bne_iff_ne.1 reads
  have connected (connected : (d.pool.connections != 0) = true) : G .connection ≠ 0 := by
    rw [← s.connections_eq]
    exact bne_iff_ne.1 connected
  cases deed with
  | acquire h => exact of_trades_all (x := Pool.acquire h) (acquire_trades (owner possible)) s
  | endRead h => exact endRead s (reading possible)
  | fetch h => exact of_reading (x := Pool.fetch h) fetch_keeps s (reading possible)
  | read h row column =>
    exact of_reading (x := Pool.readCell h row column) (readCell_keeps · row column) s
      (reading possible)
  | query text =>
    exact of_connection (x := Pool.query text) (query_trades text) s (connected possible)
  | requestRelease h =>
    exact of_trades_all (x := Pool.requestRelease h) (requestRelease_trades (owner possible)) s
  | claimCursor h =>
    exact of_trades_all (x := Pool.claimCursor h) (claimCursor_trades (owner possible)) s
  | retain h => exact of_trades_all (retain_trades (owner possible)) s
  | drop h =>
    obtain ⟨owned, last⟩ := Bool.and_eq_true_iff.1 possible
    refine drop s (owner owned) fun one => ?_
    rw [s.holders_eq, one, s.reads_eq] at last
    simpa using last
  | join => exact of_connection join_trades s (connected possible)
  | leave => exact of_connection leave_trades s (connected possible)
  | releaseAll =>
    exact of_connection (x := Pool.releaseAll) releaseAll_trades s (connected possible)
  | reap n => exact reap s n
  | source change => exact ⟨G, s⟩

theorem take (s : d.Sound) (deed : Deed S) : (deed.take d).Sound := by
  unfold Deed.take
  split_ifs with possible
  · obtain ⟨G, s⟩ := s
    exact perform s possible
  · exact s

theorem course (s : d.Sound) (deeds : List (Deed S)) : (Deed.course d deeds).Sound := by
  induction deeds generalizing d with
  | nil => exact s
  | cons deed deeds ih => exact ih (s.take deed)

end Desk.Sound

theorem Deed.keeps_course {P : Pool S → Prop} {d : Desk S}
    (keeps : ∀ {d : Desk S} {G : Stake} {deed : Deed S}, d.pool.Sound G →
      deed.possible d.pool = true → P d.pool → P (deed.perform.run d).2.pool)
    (s : d.Sound) (kept : P d.pool) (deeds : List (Deed S)) : P (course d deeds).pool := by
  induction deeds generalizing d with
  | nil => exact kept
  | cons deed deeds ih =>
    refine ih (s.take deed) ?_
    unfold take
    split_ifs with possible
    · obtain ⟨G, s⟩ := s
      exact keeps s possible kept
    · exact kept

end QueryLease

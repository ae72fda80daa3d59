import QueryLease.Proofs.Session.KindredMoves

namespace QueryLease.Session

open Pool

variable {O W α β : Type} [Preorder W] {K : Kinship Venue.tables.source O W} {w : W}

namespace Tables

theorem readRow_akin (t : Totals) {r r' : Row .tables} (hr : r.Kin K w r') :
    Akin K.rel w (readRow t r) (readRow t r') (Walked Same) := by
  refine (Row.values_akin hr).bind fun v read _ _ same => ?_
  obtain rfl := same
  cases read with
  | ok vs => exact Akin.pure ⟨rfl, rfl⟩
  | error e => exact Akin.pure ⟨rfl, rfl⟩

theorem reader_akin (text : String) (t : Totals) :
    Akin K.rel w (reader text t) (reader text t) Same := by
  refine (K.query text).bind fun v h k _ both => ?_
  match h, k, both with
  | .error e, .error _, rfl => exact Akin.pure rfl
  | .ok h, .ok k, ht =>
    refine Akin.bind (fold_akin K.pool id (A := Same) (fun _ _ _ _ _ => id) ?_ ht rfl) ?_
    · rintro w t _ r r' rfl hr
      exact readRow_akin t hr
    · rintro v ⟨t, outcome⟩ ⟨_, _⟩ hv ⟨rfl, rfl⟩
      refine (K.drop (K.twin_mono hv ht)).bind fun _ _ _ _ _ => ?_
      cases outcome with
      | ok => exact Akin.pure rfl
      | error e => exact Akin.pure rfl

theorem readers_akin (text : String) (n : Nat) (t : Totals) :
    Akin K.rel w (readers text n t) (readers text n t) Same := by
  induction n generalizing w t with
  | zero => exact Akin.pure rfl
  | succ n ih =>
    refine (reader_akin text t).bind fun v t _ _ same => ?_
    obtain rfl := same
    exact ih t

theorem parallel_akin (text : String) (n : Nat) :
    Akin K.rel w (parallel text n) (parallel text n) Same := by
  refine (readers_akin text n {}).bind fun v totals _ _ same => ?_
  obtain rfl := same
  refine (K.query text).bind fun v h k _ both => ?_
  match h, k, both with
  | .error e, .error _, _ => exact K.collect.discard.bind fun _ _ _ _ _ => Akin.pure rfl
  | .ok h, .ok k, ht =>
    exact (K.drop ht).bind fun _ _ _ _ _ =>
      K.collect.discard.bind fun _ _ _ _ _ => Akin.pure rfl

end Tables

namespace Kindred

theorem onEngine {A : W → α → β → Prop} {f : QueryLease.Tables.State → α × QueryLease.Tables.State}
    {g : QueryLease.Tables.State → β × QueryLease.Tables.State}
    (h : ∀ {o w d e}, K.rel o w d e → K.rel o w { d with engine := (f d.engine).2 }
      { e with engine := (g e.engine).2 } ∧ A w (f d.engine).1 (g e.engine).1) :
    Kindred K w (Session.onEngine (V := .tables) f) (Session.onEngine (V := .tables) g) A := by
  refine Akin.still fun o s t r => ?_
  obtain ⟨⟨p, q, hs, ht, related⟩, kept⟩ := r
  obtain ⟨related, answer⟩ := h related
  exact ⟨⟨⟨p, q, hs, ht, related⟩, kept⟩, answer⟩

theorem spin (c : String) :
    Kindred K w (Tables.Move.spin c).perform (Tables.Move.spin c).perform Same :=
  (connection c).bind fun _ _ _ _ _ => pure rfl

theorem parallel (c text : String) (n : Nat) :
    Kindred K w (Tables.Move.parallel c text n).perform (Tables.Move.parallel c text n).perform
      Same := by
  refine (connection c).bind fun v p _ _ same => ?_
  obtain rfl := same
  exact (onPool p (Tables.parallel_akin text n)).bind fun _ a b _ (same : a = b) =>
    pure (same ▸ rfl)

end Kindred

theorem shown_kin {o : O} {s t : Session .tables} (r : Kin K o w s t) (name : String)
    {a b : Object .tables} (hab : a.Kin K w b) : t.shown name b = s.shown name a := by
  obtain ⟨⟨p, q, hs, ht, related⟩, -⟩ := r
  cases hab with
  | @result i h k twins =>
    show t.pools[i]?.map _ = s.pools[i]?.map _
    rw [hs, ht]
    cases i with
    | zero =>
      have same : q.word k = p.word h := K.word related twins
      show some (name, (q.word k).stage, (q.word k).reads) =
        some (name, (p.word h).stage, (p.word h).reads)
      rw [same]
    | succ i => rfl
  | _ => rfl

theorem results_kin {o : O} {s t : Session .tables} (r : Kin K o w s t)
    {as bs : List (String × Object .tables)} (h : List.Forall₂ (Named K w) as bs) :
    bs.filterMap (fun e => t.shown e.1 e.2) = as.filterMap fun e => s.shown e.1 e.2 := by
  induction h with
  | nil => rfl
  | cons hab _ ih => rw [List.filterMap_cons, List.filterMap_cons, ih, ← hab.1, shown_kin r _ hab.2]

def poolSeen (p : Pool Venue.tables.source) : Option Stats :=
  if p.owners = 0 then none else some p.stats

theorem snapshot_akin {seen : W → Snapshot → Snapshot → Prop}
    (h : ∀ {o w d e}, K.rel o w d e → ∀ results, seen w
      { pools := [poolSeen d.pool], results, report := .counters d.engine.counters }
      { pools := [poolSeen e.pool], results, report := .counters e.engine.counters }) :
    Akin (Kin K) w (snapshot (V := .tables)) snapshot seen := by
  refine Akin.still fun o s t r => ⟨r, ?_⟩
  have results := results_kin r r.kept
  obtain ⟨⟨p, q, hs, ht, related⟩, -⟩ := r
  have seen := h related (s.kept.filterMap fun e => s.shown e.1 e.2)
  have look {s : Session .tables} {p : Pool Venue.tables.source} (hs : s.pools = #[p]) :
      ((snapshot (V := .tables)).run s).1 =
        { pools := [poolSeen p]
          results := s.kept.filterMap fun e => s.shown e.1 e.2
          report := .counters s.engine.counters } := by
    show Snapshot.mk (s.pools.toList.map _) _ _ = _
    rw [hs]
    rfl
  rw [look hs, look ht, results]
  exact seen

/-- A reaper takes the first `n` buffers that wait, or all if there are fewer, as a collection pass
does. -/
def Tables.reaping (n : Nat) (s : Session .tables) : Session .tables :=
  ((onPool 0 (Pool.attend n)).run.run s).2

theorem Tables.reaping_some {s : Session .tables} {p : Pool Venue.tables.source}
    (hp : s.pools[0]? = some p) (n : Nat) :
    let desk := ((Pool.settle s.prompt).run ((Pool.attend n).run ⟨p, s.engine⟩).2).2
    Tables.reaping n s =
      { s with pools := s.pools.setIfInBounds 0 desk.pool, engine := desk.engine } := by
  rw [Tables.reaping, onPool_some hp]
  rfl

theorem Tables.reaping_none {s : Session .tables} (hp : s.pools[0]? = none) (n : Nat) :
    Tables.reaping n s = s := by
  rw [Tables.reaping, onPool_none hp]

theorem Kin.reaping {o : O} {s t : Session .tables} (r : Kin K o w s t) (n : Nat) :
    Kin K o w s (Tables.reaping n t) := by
  obtain ⟨⟨p, q, hs, ht, related⟩, kept⟩ := r
  have first : t.pools[0]? = some q := by rw [ht]; rfl
  rw [Tables.reaping_some first]
  exact ⟨⟨p, _, hs, by rw [ht]; rfl, K.settle_right t.prompt (K.attend_right n related)⟩, kept⟩

end QueryLease.Session

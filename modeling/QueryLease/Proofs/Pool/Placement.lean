import Mathlib.Algebra.Group.Prod
import Mathlib.Data.List.Nodup
import QueryLease.Proofs.Pool.DeskRuns
import QueryLease.Proofs.Pool.Kinship
import QueryLease.Proofs.Pool.Reaper

/-! One pool over tables beside another that has all of its handles, in the same order, but may have
more handles of others among them. What its own handles are asked is the same in both, and the
others' handles stay as they are. -/

namespace QueryLease

def Tables.Counters.work (c : Counters) : ℕ × ℕ × ℕ := (c.executions, c.fetches, c.reads)

namespace Pool

open Tables (Counters)

/-- Where the handles of one pool are in another. -/
structure Placement where
  places : List Nat

namespace Placement

instance : Preorder Placement where
  le v w := v.places <+: w.places
  le_refl v := List.prefix_refl v.places
  le_trans _ _ _ := List.IsPrefix.trans

def At (w : Placement) (h k : Nat) : Prop := w.places[h]? = some k

def add (w : Placement) (k : Nat) : Placement := ⟨w.places ++ [k]⟩

variable {v w : Placement} {h k : Nat}

theorem At.mono (ht : v.At h k) (hv : v ≤ w) : w.At h k := by
  obtain ⟨rest, hrest⟩ : v.places <+: w.places := hv
  rw [At, ← hrest, List.getElem?_append_left (List.getElem?_eq_some_iff.1 ht).1]
  exact ht

theorem At.mem (ht : w.At h k) : k ∈ w.places := List.mem_of_getElem? ht

theorem At.lt (ht : w.At h k) : h < w.places.length := (List.getElem?_eq_some_iff.1 ht).1

theorem le_add (w : Placement) (k : Nat) : w ≤ w.add k := List.prefix_append w.places [k]

theorem at_add : (w.add k).At w.places.length k := by
  simp [At, add]

theorem At.of_add {l : Nat} (ht : (w.add k).At h l) : w.At h l ∨ h = w.places.length ∧ l = k := by
  rcases Nat.lt_or_ge h w.places.length with lt | ge
  · exact .inl ((List.getElem?_append_left lt).symm.trans ht)
  · have last : [k][h - w.places.length]? = some l := (List.getElem?_append_right ge).symm.trans ht
    have same : h = w.places.length := by
      have := (List.getElem?_eq_some_iff.1 last).1
      rw [List.length_singleton] at this
      omega
    rw [same, Nat.sub_self] at last
    exact .inr ⟨same, (Option.some.inj last).symm⟩

theorem At.inj {i : Nat} (hn : w.places.Nodup) (hi : w.At i k) (hh : w.At h k) : i = h :=
  (List.getElem?_inj hi.lt hn).1 (hi.trans hh.symm)

end Placement

structure Others where
  handle : Nat → Option (Handle .tables)
  work : ℕ × ℕ × ℕ

/-- The handles of the first pool are in the second one at these places, and all others have the
rest. -/
structure Placed (m : Mode) (bound : List (String × Tables.Bound)) (o : Others)
    (w : Placement) (d e : Desk .tables) : Prop where
  mode : d.pool.mode = m
  mode' : e.pool.mode = m
  queries : d.engine.queries = bound
  queries' : e.engine.queries = bound
  size : w.places.length = d.pool.handles.size
  nodup : w.places.Nodup
  own {h k : Nat} : w.At h k → d.pool.handles[h]? = e.pool.handles[k]?
  other {k : Nat} : k ∉ w.places → e.pool.handles[k]? = o.handle k
  vacant {k : Nat} : k ∈ w.places → o.handle k = none
  work : e.engine.counters.work = d.engine.counters.work + o.work

structure Untouched (d d' : Desk .tables) : Prop where
  mode : d'.pool.mode = d.pool.mode
  handles : d'.pool.handles = d.pool.handles
  queries : d'.engine.queries = d.engine.queries
  work : d'.engine.counters.work = d.engine.counters.work

namespace Untouched

variable {d d' d'' : Desk .tables}

theorem refl (d : Desk .tables) : Untouched d d := ⟨rfl, rfl, rfl, rfl⟩

theorem trans (h : Untouched d d') (h' : Untouched d' d'') : Untouched d d'' where
  mode := h'.mode.trans h.mode
  handles := h'.handles.trans h.handles
  queries := h'.queries.trans h.queries
  work := h'.work.trans h.work

theorem disposeNow (d : Desk .tables) (h : Nat) (b : Tables.Buffer) :
    Untouched d ((disposeNow h b).run d).2 := ⟨rfl, rfl, rfl, rfl⟩

theorem reap (d : Desk .tables) (n : Nat) : Untouched d ((reap n).run d).2 := by
  induction n generalizing d with
  | zero => exact reap_zero d ▸ refl d
  | succ n ih =>
    cases hq : d.pool.queue with
    | nil => exact reap_empty hq (n + 1) ▸ refl d
    | cons entry rest =>
      rw [reap_succ hq]
      have first : Untouched d ((Pool.disposeNow entry.1 entry.2).run
          { d with pool := { d.pool with queue := rest } }).2 := ⟨rfl, rfl, rfl, rfl⟩
      exact first.trans (ih _)

theorem handOver (d : Desk .tables) (h : Nat) (b : Tables.Buffer) :
    Untouched d ((handOver h b).run d).2 := by
  by_cases hm : d.pool.mode = .inline
  · rw [handOver_inline b hm]
    exact disposeNow d h b
  · rw [handOver_later b hm]
    exact ⟨rfl, rfl, rfl, rfl⟩

theorem join (d : Desk .tables) : Untouched d (join.run d).2 := ⟨rfl, rfl, rfl, rfl⟩

theorem leave (d : Desk .tables) : Untouched d (leave.run d).2 := by
  have left : Untouched d { d with pool.owners := d.pool.owners - 1 } := ⟨rfl, rfl, rfl, rfl⟩
  rw [leave_run]
  by_cases h0 : d.pool.owners - 1 = 0
  · rw [if_pos h0]
    exact (left.trans (reap _ _)).trans ⟨rfl, rfl, rfl, rfl⟩
  · rw [if_neg h0]
    exact left

theorem settle (d : Desk .tables) (prompt : Bool) : Untouched d ((settle prompt).run d).2 := by
  rcases settle_cases prompt d with h | ⟨n, h⟩ <;> rw [h]
  · exact refl d
  · exact reap d n

theorem attend (d : Desk .tables) (n : Nat) : Untouched d ((attend n).run d).2 := by
  rcases attend_cases n d with h | h <;> rw [h]
  · exact refl d
  · exact reap d n

end Untouched

namespace Placed

variable {m : Mode} {bound : List (String × Tables.Bound)} {o : Others} {w : Placement}
  {d d' e e' : Desk .tables} {h k : Nat}

theorem untouched (r : Placed m bound o w d e) (hd : Untouched d d') (he : Untouched e e') :
    Placed m bound o w d' e' where
  mode := hd.mode.trans r.mode
  mode' := he.mode.trans r.mode'
  queries := hd.queries.trans r.queries
  queries' := he.queries.trans r.queries'
  size := hd.handles ▸ r.size
  nodup := r.nodup
  own ht := by rw [hd.handles, he.handles, r.own ht]
  other hk := he.handles ▸ r.other hk
  vacant := r.vacant
  work := by rw [he.work, hd.work, r.work]

theorem worked (r : Placed m bound o w d e) (f : Counters → Counters) {n : ℕ × ℕ × ℕ}
    (hf : ∀ c : Counters, (f c).work = c.work + n) :
    Placed m bound o w { d with engine := d.engine.count f }
      { e with engine := e.engine.count f } := by
  refine { r with work := ?_ }
  show (f e.engine.counters).work = (f d.engine.counters).work + o.work
  rw [hf, hf, r.work, add_right_comm]

theorem update (r : Placed m bound o w d e) (ht : w.At h k) (f : Handle .tables → Handle .tables) :
    Placed m bound o w { d with pool := d.pool.update h f }
      { e with pool := e.pool.update k f } := by
  refine { r with size := ?_, own := fun {i j} hi => ?_, other := fun {j} hj => ?_ }
  · show _ = (d.pool.handles.modify h f).size
    rw [Array.size_modify, r.size]
  · show (d.pool.handles.modify h f)[i]? = (e.pool.handles.modify k f)[j]?
    have same : h = i ↔ k = j := by
      constructor
      · rintro rfl
        exact Option.some.inj (ht.symm.trans hi)
      · rintro rfl
        exact ht.inj r.nodup hi
    rw [Array.getElem?_modify, Array.getElem?_modify, r.own hi]
    exact if_congr same rfl rfl
  · show (e.pool.handles.modify k f)[j]? = _
    have ne : k ≠ j := fun same => hj (same ▸ ht.mem)
    rw [Array.getElem?_modify, if_neg ne, r.other hj]

theorem present (r : Placed m bound o w d e) (hk : k ∈ w.places) :
    ∃ x, e.pool.handles[k]? = some x := by
  obtain ⟨h, ht⟩ := List.mem_iff_getElem?.1 hk
  rw [← r.own ht]
  exact ⟨_, Array.getElem?_eq_getElem (r.size ▸ Placement.At.lt ht)⟩

theorem fresh (r : Placed m bound o w d e) : e.pool.handles.size ∉ w.places := by
  intro mem
  obtain ⟨x, hx⟩ := r.present mem
  exact absurd ((Array.getElem?_eq_none le_rfl).symm.trans hx) (Option.some_ne_none x).symm

theorem enrol (r : Placed m bound o w d e) (b : Source.tables.Buffer) (columns : List String) :
    Placed m bound o (w.add e.pool.handles.size) { d with pool := d.pool.enrol b columns }
      { e with pool := e.pool.enrol b columns } := by
  rw [enrol_eq, enrol_eq]
  refine { r with
    size := ?_
    nodup := ?_
    own := fun {h k} ht => ?_
    other := fun {k} hk => ?_
    vacant := fun {k} hk => ?_ }
  · show (w.places ++ [_]).length = (d.pool.handles.push _).size
    rw [List.length_append, Array.size_push, r.size]
    rfl
  · exact List.nodup_append'.2 ⟨r.nodup, List.nodup_singleton _,
      List.disjoint_singleton.2 r.fresh⟩
  · show (d.pool.handles.push _)[h]? = (e.pool.handles.push _)[k]?
    rw [Array.getElem?_push, Array.getElem?_push]
    rcases ht.of_add with old | ⟨rfl, rfl⟩
    · have ne : k ≠ e.pool.handles.size := fun same => r.fresh (same ▸ old.mem)
      rw [if_neg (r.size ▸ old.lt.ne), if_neg ne, r.own old]
    · rw [if_pos r.size, if_pos rfl]
  · obtain ⟨hk, ne⟩ : k ∉ w.places ∧ k ≠ e.pool.handles.size := by
      simpa [Placement.add] using hk
    show (e.pool.handles.push _)[k]? = _
    rw [Array.getElem?_push, if_neg ne, r.other hk]
  · rcases List.mem_append.1 hk with old | new
    · exact r.vacant old
    · rw [List.mem_singleton.1 new, ← r.other r.fresh]
      exact Array.getElem?_eq_none le_rfl

theorem query (r : Placed m bound o w d e) (text : String) : ∃ v, w ≤ v ∧
    Placed m bound o v ((query text).run d).2 ((query text).run e).2 ∧
      Both Placement.At v ((query text).run d).1 ((query text).run e).1 := by
  have same : e.engine.queries = d.engine.queries := r.queries'.trans r.queries.symm
  cases hl : d.engine.queries.lookup text with
  | none =>
    rw [query_unknown hl, query_unknown (same ▸ hl)]
    exact ⟨w, le_rfl, r, rfl⟩
  | some bound =>
    rw [query_known hl, query_known (same ▸ hl)]
    refine ⟨_, Placement.le_add _ _, (r.enrol _ _).worked Counters.executed (n := (1, 0, 0))
      fun _ => rfl, ?_⟩
    show Placement.At _ d.pool.handles.size e.pool.handles.size
    rw [← r.size]
    exact Placement.at_add

theorem fetch (r : Placed m bound o w d e) (ht : w.At h k) :
    Placed m bound o w ((fetch h).run d).2 ((fetch k).run e).2 ∧
      ((fetch h).run d).1 = ((fetch k).run e).1 := by
  have same := r.own ht
  cases hx : d.pool.handles[h]? with
  | none =>
    rw [fetch_absent hx, fetch_absent (same ▸ hx)]
    exact ⟨r, rfl⟩
  | some x =>
    rw [fetch_present hx, fetch_present (same ▸ hx)]
    have noted : Placed m bound o w { d with pool := d.pool.note (.fetch h x.word) }
        { e with pool := e.pool.note (.fetch k x.word) } :=
      r.untouched ⟨rfl, rfl, rfl, rfl⟩ ⟨rfl, rfl, rfl, rfl⟩
    exact ⟨(noted.update ht _).worked Counters.fetched (n := (0, 1, 0)) fun _ => rfl, rfl⟩

theorem readCell (r : Placed m bound o w d e) (ht : w.At h k) (row column : Nat) :
    Placed m bound o w ((readCell h row column).run d).2 ((readCell k row column).run e).2 ∧
      ((readCell h row column).run d).1 = ((readCell k row column).run e).1 := by
  have same := r.own ht
  cases hx : d.pool.handles[h]? with
  | none =>
    rw [readCell_absent hx, readCell_absent (same ▸ hx)]
    exact ⟨r, rfl⟩
  | some x =>
    rw [readCell_present hx, readCell_present (same ▸ hx)]
    have noted : Placed m bound o w { d with pool := d.pool.note (.read h x.word) }
        { e with pool := e.pool.note (.read k x.word) } :=
      r.untouched ⟨rfl, rfl, rfl, rfl⟩ ⟨rfl, rfl, rfl, rfl⟩
    exact ⟨noted.worked Counters.read (n := (0, 0, 1)) fun _ => rfl, rfl⟩

theorem framed {v u : Placement} {o' : Others} {f : Desk .tables} {n : ℕ × ℕ × ℕ}
    (r : Placed m bound o w d e) (r' : Placed m bound o v d' e') (s : Placed m bound o' u f e)
    (hu : w.places.Disjoint u.places)
    (total : e'.engine.counters.work = f.engine.counters.work + n) :
    v.places.Disjoint u.places ∧ ∃ o'', Placed m bound o'' u f e' := by
  have others {k : Nat} (hk : k ∈ u.places) : e.pool.handles[k]? = o.handle k :=
    r.other fun mem => hu mem hk
  have apart : v.places.Disjoint u.places := by
    intro k mem hk
    obtain ⟨x, hx⟩ := s.present hk
    rw [others hk, r'.vacant mem] at hx
    exact absurd hx (Option.some_ne_none x).symm
  refine ⟨apart, ⟨fun k => if k ∈ u.places then none else e'.pool.handles[k]?, n⟩, ?_⟩
  refine ⟨s.mode, r'.mode', s.queries, r'.queries', s.size, s.nodup, fun ht => ?_, fun hk => ?_,
    fun hk => if_pos hk, total⟩
  · rw [s.own ht, others ht.mem, r'.other fun mem => apart mem ht.mem]
  · exact (if_neg hk).symm

end Placed

def Kinship.apart (m : Mode) (bound : List (String × Tables.Bound)) :
    Kinship .tables Others Placement where
  rel := Placed m bound
  twin := Placement.At
  twin_mono hv ht := ht.mono hv
  handle r ht := r.own ht
  modes m n := m = n
  mode r := r.mode.trans r.mode'.symm
  update f r ht := r.update ht f
  released r := r.untouched ⟨rfl, rfl, rfl, rfl⟩ ⟨rfl, rfl, rfl, rfl⟩
  handOver b _ := Akin.still fun _ _ _ r =>
    ⟨r.untouched (Untouched.handOver _ _ b) (Untouched.handOver _ _ b), rfl⟩
  reap_left n r := r.untouched (Untouched.reap _ n) (Untouched.refl _)
  reap_right n r := r.untouched (Untouched.refl _) (Untouched.reap _ n)
  join := Akin.still fun _ _ _ r => ⟨r.untouched (Untouched.join _) (Untouched.join _), rfl⟩
  leave := Akin.still fun _ _ _ r => ⟨r.untouched (Untouched.leave _) (Untouched.leave _), rfl⟩
  query text := fun _ _ _ r => r.query text
  fetch ht := Akin.still fun _ _ _ r => r.fetch ht
  readCell row column ht := Akin.still fun _ _ _ r => r.readCell ht row column

end Pool

end QueryLease

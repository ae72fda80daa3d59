import Mathlib.Algebra.BigOperators.Group.Finset.Basic
import QueryLease.Proofs.Pool.Placement
import QueryLease.Proofs.Session.KindredTables

namespace QueryLease.Session

open Pool

variable {ι α : Type} {m : Mode} {bound : List (String × QueryLease.Tables.Bound)}

def work (s : Session .tables) : ℕ × ℕ × ℕ := s.engine.counters.work

theorem work_reaping (n : Nat) (s : Session .tables) : (Tables.reaping n s).work = s.work := by
  cases hp : s.pools[0]? with
  | none => rw [Tables.reaping_none hp]
  | some p =>
    rw [Tables.reaping_some hp]
    exact ((Untouched.attend ⟨p, s.engine⟩ n).trans (Untouched.settle _ s.prompt)).work

/-- A client does the next piece of what it has to do, or a reaper disposes of some buffers. -/
inductive Turn (ι : Type) where
  | client (i : ι)
  | reap (n : Nat)
  deriving DecidableEq

structure Crowd (ι α : Type) where
  shared : Session .tables
  kept : ι → List (String × Object .tables)
  doing : ι → Strand (Session .tables) α

namespace Crowd

def view (c : Crowd ι α) (i : ι) : Session .tables := { c.shared with kept := c.kept i }

variable [DecidableEq ι]

def take (c : Crowd ι α) : Turn ι → Crowd ι α
  | .client i =>
    let (rest, s) := Strand.step (c.doing i, c.view i)
    { shared := { s with kept := [] }
      kept := Function.update c.kept i s.kept
      doing := Function.update c.doing i rest }
  | .reap n => { c with shared := Tables.reaping n c.shared }

def after (c : Crowd ι α) (turns : List (Turn ι)) : Crowd ι α := turns.foldl take c

variable {c : Crowd ι α} {i j : ι}

theorem view_take_self : (c.take (.client i)).view i = (Strand.step (c.doing i, c.view i)).2 := by
  have kept : (c.take (.client i)).kept i = (Strand.step (c.doing i, c.view i)).2.kept :=
    Function.update_self ..
  rw [view, kept]
  rfl

theorem view_take_other (h : j ≠ i) : (c.take (.client i)).view j =
    { (Strand.step (c.doing i, c.view i)).2 with kept := c.kept j } := by
  have kept : (c.take (.client i)).kept j = c.kept j := Function.update_of_ne h ..
  rw [view, kept]
  rfl

theorem view_reap (n : Nat) : (c.take (.reap n)).view i = Tables.reaping n (c.view i) := by
  show { Tables.reaping n c.shared with kept := c.kept i } = _
  cases hp : c.shared.pools[0]? with
  | none =>
    have hp' : (c.view i).pools[0]? = none := hp
    rw [Tables.reaping_none hp, Tables.reaping_none hp']
    rfl
  | some p =>
    have hp' : (c.view i).pools[0]? = some p := hp
    rw [Tables.reaping_some hp, Tables.reaping_some hp']
    rfl

end Crowd

abbrev Alone (α : Type) := Strand (Session .tables) α × Session .tables

/-- Every client is as it would be alone, with places for its handles that are nobody else's. -/
structure Together [Fintype ι] (m : Mode) (bound : List (String × QueryLease.Tables.Bound))
    (A : ι → Placement → α → α → Prop) (alone : ι → Alone α) (w : ι → Placement)
    (c : Crowd ι α) : Prop where
  kin (i : ι) : ∃ o, Kin (Kinship.apart m bound) o (w i) (alone i).2 (c.view i)
  doing (i : ι) : (alone i).1.Akin (Kin (Kinship.apart m bound)) (A i) (w i) (c.doing i)
  disjoint {i j : ι} : i ≠ j → (w i).places.Disjoint (w j).places
  total : c.shared.work = ∑ i, (alone i).2.work

theorem Kin.framed {o o' : Others} {v w u : Placement} {s s' t t' r : Session .tables}
    {names : List (String × Object .tables)} {n : ℕ × ℕ × ℕ}
    (before : Kin (Kinship.apart m bound) o w s t) (now : Kin (Kinship.apart m bound) o v s' t')
    (other : Kin (Kinship.apart m bound) o' u r { t with kept := names })
    (hu : w.places.Disjoint u.places) (total : t'.work = r.work + n) :
    v.places.Disjoint u.places ∧
      ∃ o'', Kin (Kinship.apart m bound) o'' u r { t' with kept := names } := by
  obtain ⟨⟨p, q, hs, ht, placed⟩, -⟩ := before
  obtain ⟨⟨p', q', hs', ht', placed'⟩, -⟩ := now
  obtain ⟨⟨f, q₂, hr, ht₂, theirs⟩, kept⟩ := other
  obtain rfl : q = q₂ := by simpa using ht.symm.trans ht₂
  obtain ⟨apart, o'', still⟩ := Placed.framed placed placed' theirs hu total
  exact ⟨apart, o'', ⟨f, q', hr, ht', still⟩, kept⟩

theorem Kin.work_eq {o : Others} {w : Placement} {s t : Session .tables}
    (r : Kin (Kinship.apart m bound) o w s t) : t.work = s.work + o.work := by
  obtain ⟨⟨p, q, -, -, placed⟩, -⟩ := r
  exact placed.work

variable [DecidableEq ι] [Fintype ι]

theorem sum_update (alone : ι → Alone α) (i : ι) (a : Alone α) :
    ∑ j, (Function.update alone i a j).2.work + (alone i).2.work =
      a.2.work + ∑ j, (alone j).2.work := by
  have others : ∑ j ∈ Finset.univ.erase i, (Function.update alone i a j).2.work =
      ∑ j ∈ Finset.univ.erase i, (alone j).2.work :=
    Finset.sum_congr rfl fun j hj => by rw [Function.update_of_ne (Finset.ne_of_mem_erase hj)]
  rw [← Finset.add_sum_erase _ _ (Finset.mem_univ i), others, Function.update_self, add_assoc,
    Finset.sum_erase_add _ (fun j => (alone j).2.work) (Finset.mem_univ i)]

namespace Together

variable {A : ι → Placement → α → α → Prop} {alone : ι → Alone α} {w : ι → Placement}
  {c : Crowd ι α}

omit [DecidableEq ι] in
theorem nodup (h : Together m bound A alone w c) (i : ι) : (w i).places.Nodup := by
  obtain ⟨o, ⟨p, q, -, -, placed⟩, -⟩ := h.kin i
  exact placed.nodup

theorem client (h : Together m bound A alone w c) (i : ι) : ∃ w', Together m bound A
    (Function.update alone i (Strand.step (alone i))) w' (c.take (.client i)) := by
  obtain ⟨o, before⟩ := h.kin i
  obtain ⟨v, hv, now, rest⟩ := (h.doing i).step before
  have total : (Strand.step (c.doing i, c.view i)).2.work =
      ∑ j, (Function.update alone i (Strand.step (alone i)) j).2.work := by
    have shared : c.shared.work = (alone i).2.work + o.work := before.work_eq
    refine add_right_cancel (b := (alone i).2.work) ?_
    rw [sum_update, ← h.total, shared, now.work_eq, add_assoc, add_comm o.work]
  -- The others' pools are as before, their places still their own.
  have framed {j : ι} (hj : j ≠ i) : v.places.Disjoint (w j).places ∧
      ∃ o', Kin (Kinship.apart m bound) o' (w j) (alone j).2 ((c.take (.client i)).view j) := by
    obtain ⟨o', other⟩ := h.kin j
    rw [← Finset.add_sum_erase _ _ (Finset.mem_univ j), Function.update_of_ne hj] at total
    rw [Crowd.view_take_other hj]
    exact before.framed now other (h.disjoint hj.symm) total
  refine ⟨Function.update w i v, fun j => ?_, fun j => ?_, fun {j k} hjk => ?_, total⟩
  · rcases eq_or_ne j i with rfl | hj
    · rw [Function.update_self, Function.update_self, Crowd.view_take_self]
      exact ⟨o, now⟩
    · rw [Function.update_of_ne hj, Function.update_of_ne hj]
      exact (framed hj).2
  · show Strand.Akin _ _ _ _ (Function.update c.doing i _ j)
    rcases eq_or_ne j i with rfl | hj
    · rw [Function.update_self, Function.update_self, Function.update_self]
      exact rest
    · rw [Function.update_of_ne hj, Function.update_of_ne hj, Function.update_of_ne hj]
      exact h.doing j
  · rcases eq_or_ne j i with rfl | hj
    · rw [Function.update_self, Function.update_of_ne hjk.symm]
      exact (framed hjk.symm).1
    rcases eq_or_ne k i with rfl | hk
    · rw [Function.update_self, Function.update_of_ne hj]
      exact (framed hj).1.symm
    · rw [Function.update_of_ne hj, Function.update_of_ne hk]
      exact h.disjoint hjk

theorem reap (h : Together m bound A alone w c) (n : Nat) :
    Together m bound A alone w (c.take (.reap n)) where
  kin i := by
    obtain ⟨o, r⟩ := h.kin i
    rw [Crowd.view_reap]
    exact ⟨o, r.reaping n⟩
  doing := h.doing
  disjoint := h.disjoint
  total := (work_reaping n c.shared).trans h.total

theorem after (h : Together m bound A alone w c) (turns : List (Turn ι)) : ∃ w', Together m bound A
    (fun i => Strand.step^[turns.count (.client i)] (alone i)) w' (c.after turns) := by
  induction turns generalizing alone w c with
  | nil => exact ⟨w, h⟩
  | cons turn turns ih =>
    cases turn with
    | client i =>
      obtain ⟨v, taken⟩ := h.client i
      obtain ⟨w', done⟩ := ih taken
      refine ⟨w', ?_⟩
      have same : (fun j => Strand.step^[(Turn.client i :: turns).count (.client j)] (alone j)) =
          fun j => Strand.step^[turns.count (.client j)]
            (Function.update alone i (Strand.step (alone i)) j) := by
        funext j
        rcases eq_or_ne j i with rfl | hj
        · rw [List.count_cons_self, Function.update_self, Function.iterate_succ_apply]
        · have other : Turn.client i ≠ Turn.client j := fun same => hj (Turn.client.inj same).symm
          rw [List.count_cons_of_ne other, Function.update_of_ne hj]
      rw [same]
      exact done
    | reap n =>
      obtain ⟨w', done⟩ := ih (h.reap n)
      refine ⟨w', ?_⟩
      have same (j : ι) : (Turn.reap n :: turns).count (.client j) = turns.count (.client j) :=
        List.count_cons_of_ne (by simp)
      simp only [same]
      exact done

end Together

end QueryLease.Session

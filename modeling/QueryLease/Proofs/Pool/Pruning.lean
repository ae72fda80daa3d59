import Mathlib.Algebra.Group.Nat.Defs
import QueryLease.Proofs.Pool.Registry

namespace QueryLease

open Pool

variable {S : Source}

namespace Pool

variable {p q : Pool S} {m n : Nat}

/-- Where the list has outgrown a power of two, so has `n`, which stands for the most handles that
have been owned at once so far. -/
def Trimmed (n : Nat) (p : Pool S) : Prop :=
  ∀ j, 64 ≤ 2 ^ j → 2 ^ j < p.tracked.length → 2 ^ j < n

namespace Trimmed

theorem mono (t : p.Trimmed m) (le : m ≤ n) : p.Trimmed n :=
  fun j large long => (t j large long).trans_le le

theorem shorten (t : p.Trimmed n) (le : q.tracked.length ≤ p.tracked.length) : q.Trimmed n :=
  fun j large long => t j large (long.trans_le le)

theorem of_length_le (le : p.tracked.length ≤ n) : p.Trimmed n :=
  fun _ _ long => long.trans_le le

theorem length_le (t : p.Trimmed n) : p.tracked.length ≤ max 64 (2 * n) := by
  by_cases few : p.tracked.length ≤ 64
  · exact le_max_of_le_left few
  · -- The greatest power of two that the list has outgrown.
    have some : p.tracked.length - 1 ≠ 0 := by omega
    generalize hj : (p.tracked.length - 1).log2 = j
    have long : 2 ^ j ≤ p.tracked.length - 1 := hj ▸ Nat.log2_self_le some
    have short : p.tracked.length - 1 < 2 ^ (j + 1) := hj ▸ Nat.lt_log2_self
    have large : 2 ^ 6 ≤ 2 ^ j :=
      Nat.pow_le_pow_right Nat.two_pos (hj ▸ (Nat.le_log2 some).2 (by omega))
    have outgrown := t j large (by omega)
    rw [Nat.pow_succ] at short
    exact le_max_of_le_right (by omega)

end Trimmed

theorem crowded_of_length {j : Nat} (large : 64 ≤ 2 ^ j) (length : p.tracked.length = 2 ^ j) :
    p.crowded = true := by
  rw [crowded, length, Nat.log2_two_pow]
  exact Bool.and_eq_true_iff.2 ⟨decide_eq_true large, beq_self_eq_true _⟩

theorem ownedHandles_enrol (p : Pool S) (b : S.Buffer) (columns : List String) :
    (p.enrol b columns).ownedHandles = p.ownedHandles ++ [p.handles.size] := by
  have new : (p.enrol b columns).owned p.handles.size = true := by rw [owned_enrol, if_pos rfl]
  have old : ∀ h ∈ List.range p.handles.size, (p.enrol b columns).owned h = p.owned h :=
    fun h mem => by rw [owned_enrol, if_neg (List.mem_range.1 mem).ne]
  rw [ownedHandles, size_enrol, List.range_succ, List.filter_append, List.filter_congr old,
    List.filter_singleton, new]
  rfl

theorem Registered.tracked_enrol (r : p.Registered) (b : S.Buffer) (columns : List String) :
    (p.enrol b columns).tracked =
      if p.crowded then (p.enrol b columns).ownedHandles else p.tracked ++ [p.handles.size] := by
  rw [ownedHandles_enrol, enrol_eq]
  show (p.track p.handles.size).tracked = _
  unfold track
  split_ifs
  · exact congrArg (· ++ [p.handles.size]) r.filter_eq
  · rfl

theorem Trimmed.enrol (t : p.Trimmed n) (r : p.Registered) (b : S.Buffer) (columns : List String) :
    (p.enrol b columns).Trimmed (max n (p.enrol b columns).ownedHandles.length) := by
  have tracked := r.tracked_enrol b columns
  cases crowded : p.crowded with
  | true =>
    rw [if_pos crowded] at tracked
    exact of_length_le (tracked ▸ le_max_right ..)
  | false =>
    rw [if_neg (Bool.eq_false_iff.1 crowded)] at tracked
    intro j large long
    rw [tracked, List.length_append, List.length_singleton] at long
    -- A list as long as the power would have been crowded.
    have other : 2 ^ j ≠ p.tracked.length := fun same => by
      rw [crowded_of_length large same.symm] at crowded
      cases crowded
    exact lt_max_of_lt_left (t j large (lt_of_le_of_ne (Nat.le_of_lt_succ long) other))

end Pool

namespace Deed

variable {d : Desk S} {deed : Deed S} {n : Nat}

/-- The most handles that are owned at once in the course of some deeds. -/
def peak (d : Desk S) : List (Deed S) → Nat
  | [] => d.pool.ownedHandles.length
  | deed :: deeds => max d.pool.ownedHandles.length (peak (deed.take d) deeds)

theorem owned_le_peak (d : Desk S) (deeds : List (Deed S)) :
    d.pool.ownedHandles.length ≤ peak d deeds := by
  cases deeds with
  | nil => exact le_rfl
  | cons deed deeds => exact le_max_left ..

theorem trimmed_perform (r : d.pool.Registered) (t : d.pool.Trimmed n) :
    (deed.perform.run d).2.pool.Trimmed
      (max n (deed.perform.run d).2.pool.ownedHandles.length) := by
  rcases old_or_enrols deed d with old | same | ⟨b, columns, made⟩
  · exact (t.shorten (tracked_sublist old).length_le).mono (le_max_left ..)
  · rw [same]
    exact t.mono (le_max_left ..)
  · rw [made]
    exact t.enrol r b columns

theorem trimmed_take (r : d.pool.Registered) (t : d.pool.Trimmed n) :
    (deed.take d).pool.Trimmed (max n (deed.take d).pool.ownedHandles.length) := by
  unfold take
  split_ifs
  · exact trimmed_perform r t
  · exact t.mono (le_max_left ..)

theorem trimmed_course (s : d.Sound) (r : d.pool.Registered) (t : d.pool.Trimmed n)
    (deeds : List (Deed S)) : (course d deeds).pool.Trimmed (max n (peak d deeds)) := by
  induction deeds generalizing d n with
  | nil => exact t.mono (le_max_left ..)
  | cons deed deeds ih =>
    have next := ih (s.take deed) (registered_course s r [deed]) (trimmed_take r t)
    -- What is owned after the first deed counts among what is owned in the course of the others.
    refine next.mono (max_le (max_le_max le_rfl ?_) (le_max_of_le_right (le_max_right ..)))
    exact (owned_le_peak (deed.take d) deeds).trans (le_max_right ..)

end Deed

namespace Pool

/-- However often handles are made, dropped and released, at no time are more of them tracked than
64, or twice the most that have been owned at once so far. -/
theorem tracked_length_le (link : S.Link) (mode : Mode) (engine : S.State)
    (deeds : List (Deed S)) :
    let start : Desk S := ⟨{ link, mode }, engine⟩
    (Deed.course start deeds).pool.tracked.length ≤ max 64 (2 * Deed.peak start deeds) := by
  intro start
  have empty : start.pool.Trimmed 0 := Trimmed.of_length_le le_rfl
  have t := Deed.trimmed_course (.fresh link mode engine) (.fresh link mode) empty deeds
  rw [Nat.zero_max] at t
  exact t.length_le

end Pool

end QueryLease

import Mathlib.Data.Nat.Bitwise
import Mathlib.Tactic.SplitIfs
import QueryLease.Lease.Word

namespace QueryLease.Lease.Word

def limit : Nat := 2 ^ 62

def pack (requested closed : Bool) (reads : Nat) : Word :=
  ⟨UInt64.ofNat
    (reads + (if closed then 2 ^ 62 else 0) + (if requested then 2 ^ 63 else 0))⟩

variable {r c : Bool} {n : Nat}

theorem toNat_pack (h : n < limit) : (pack r c n).bits.toNat =
    n + (if c then 2 ^ 62 else 0) + (if r then 2 ^ 63 else 0) := by
  rw [pack, UInt64.toNat_ofNat']
  apply Nat.mod_eq_of_lt
  unfold limit at h
  split_ifs <;> omega

theorem eq_of_toNat {v w : Word} (h : v.bits.toNat = w.bits.toNat) : v = w := by
  cases v
  cases w
  exact congrArg Word.mk (UInt64.toNat_inj.1 h)

theorem and_bit {x b : UInt64} {k : Nat} (hb : b.toNat = 2 ^ k) :
    (x &&& b != 0) = decide (x.toNat / 2 ^ k % 2 = 1) := by
  have h : (x &&& b).toNat = (x.toNat.testBit k).toNat * 2 ^ k := by
    rw [UInt64.toNat_and, hb, Nat.and_two_pow]
  rw [← Nat.testBit_eq_decide_div_mod_eq]
  cases hx : x.toNat.testBit k with
  | false =>
    have hz : x &&& b = 0 := UInt64.toNat_inj.1 (by simp [h, hx])
    simp [hz]
  | true =>
    have hz : x &&& b ≠ 0 := by
      intro hz
      have := Nat.two_pow_pos k
      simp only [hz, hx, UInt64.toNat_zero, Bool.toNat_true, Nat.one_mul] at h
      omega
    simp [hz]

theorem requested_pack (h : n < limit) : (pack r c n).requested = r := by
  rw [requested, and_bit (k := 63) rfl, toNat_pack h]
  unfold limit at h
  cases r <;> cases c <;> simp <;> omega

theorem closed_pack (h : n < limit) : (pack r c n).closed = c := by
  rw [closed, and_bit (k := 62) rfl, toNat_pack h]
  unfold limit at h
  cases r <;> cases c <;> simp <;> omega

theorem toNat_and_countMask (x : UInt64) : (x &&& countMask).toNat = x.toNat % limit := by
  rw [UInt64.toNat_and, show countMask.toNat = 2 ^ 62 - 1 from rfl, Nat.and_two_pow_sub_one_eq_mod,
    limit]

theorem reads_pack (h : n < limit) : (pack r c n).reads = n := by
  rw [reads, toNat_and_countMask, toNat_pack h]
  unfold limit at h ⊢
  cases r <;> cases c <;> simp <;> omega

theorem full_pack (h : n < limit) : (pack r c n).full = decide (n + 1 = limit) := by
  have hr := reads_pack (r := r) (c := c) h
  unfold reads at hr
  rw [full, Bool.eq_iff_iff, beq_iff_eq, ← UInt64.toNat_inj, hr, decide_eq_true_eq]
  rw [show countMask.toNat = limit - 1 from rfl]
  unfold limit at h ⊢
  omega

theorem stage_pack (h : n < limit) :
    (pack r c n).stage = if c then .closed else if r then .closing else .opened := by
  rw [stage, closed_pack h, requested_pack h]

theorem acquire_pack_opened (h : n + 1 < limit) :
    (pack false false n).acquire = .ok (pack false false (n + 1)) := by
  have hn : n < limit := by omega
  have hf : (pack false false n).full = false := by
    rw [full_pack hn]
    exact decide_eq_false (by omega)
  simp only [acquire, closed_pack hn, requested_pack hn, hf, Bool.false_eq_true, if_false]
  apply congrArg
  apply eq_of_toNat
  rw [toNat_pack h, UInt64.toNat_add, toNat_pack hn]
  unfold limit at h
  simp
  omega

theorem acquire_pack_full (h : n + 1 = limit) :
    (pack false false n).acquire = .error .overflow := by
  have hn : n < limit := by omega
  simp [acquire, closed_pack hn, requested_pack hn, full_pack hn, h]

theorem acquire_pack_requested (h : n < limit) :
    (pack true c n).acquire = .error (if c then .released else .closing) := by
  cases c <;> simp [acquire, closed_pack h, requested_pack h]

theorem endRead_pack (h : n + 1 < limit) :
    (pack r c (n + 1)).endRead = (r && !c && decide (n = 0), pack r c n) := by
  have hn : n < limit := by omega
  have hw := toNat_pack (r := r) (c := c) h
  have hm := toNat_pack (r := r) (c := c) hn
  unfold limit at h
  have last : ((pack r c (n + 1)).bits == closingBit ||| 1) = (r && !c && decide (n = 0)) := by
    rw [Bool.eq_iff_iff, beq_iff_eq, ← UInt64.toNat_inj, hw,
      show (closingBit ||| 1).toNat = 2 ^ 63 + 1 by decide]
    simp only [Bool.and_eq_true, Bool.not_eq_true', decide_eq_true_eq]
    cases r <;> cases c <;> simp only [if_true, Bool.false_eq_true, if_false, true_and, false_and,
      and_false, reduceCtorEq, iff_false] <;> omega
  have rest : (⟨(pack r c (n + 1)).bits - 1⟩ : Word) = pack r c n := by
    apply eq_of_toNat
    rw [UInt64.toNat_sub, hw, hm, UInt64.toNat_one]
    split_ifs <;> omega
  rw [endRead, last, rest]

theorem toNat_or_closingBit (x : UInt64) : (x ||| closingBit).toNat =
    if x.toNat / 2 ^ 63 = 0 then x.toNat + 2 ^ 63 else x.toNat := by
  have hx := x.toNat_lt
  rw [UInt64.toNat_or, show closingBit.toNat = 2 ^ 63 by decide, Nat.lor_comm]
  split_ifs with h
  · have := Nat.two_pow_add_eq_or_of_lt (i := 63) (b := x.toNat) (by omega) 1
    rw [Nat.mul_one] at this
    omega
  · apply Nat.eq_of_testBit_eq
    intro i
    rw [Nat.testBit_or, Nat.testBit_two_pow]
    by_cases hi : 63 = i
    · subst hi
      rw [Nat.testBit_eq_decide_div_mod_eq]
      simp only [decide_true, Bool.true_or]
      exact (decide_eq_true (by omega)).symm
    · simp [hi]

theorem request_pack (h : n < limit) :
    (pack r c n).request = (if r then none else some n, pack true c n) := by
  have hw := toNat_pack (r := r) (c := c) h
  have all : (⟨(pack r c n).bits ||| closingBit⟩ : Word) = pack true c n := by
    apply eq_of_toNat
    rw [toNat_or_closingBit, hw, toNat_pack h]
    unfold limit at h
    cases r <;> cases c <;> simp <;> omega
  rw [request, requested_pack h, reads_pack h, all]

theorem finish?_pack (h : n < limit) : (pack r c n).finish? =
    if r && !c && decide (n = 0) then some shut else none := by
  have only : ((pack r c n).bits == closingBit) = (r && !c && decide (n = 0)) := by
    rw [Bool.eq_iff_iff, beq_iff_eq, ← UInt64.toNat_inj, toNat_pack h,
      show closingBit.toNat = 2 ^ 63 by decide]
    unfold limit at h
    cases r <;> cases c <;> simp <;> omega
  rw [finish?, only]

theorem exists_pack (w : Word) : ∃ r c n, n < limit ∧ w = pack r c n := by
  refine ⟨decide (w.bits.toNat / 2 ^ 63 = 1), decide (w.bits.toNat / 2 ^ 62 % 2 = 1),
    w.bits.toNat % limit, Nat.mod_lt _ (by decide), eq_of_toNat ?_⟩
  have := w.bits.toNat_lt
  rw [toNat_pack (Nat.mod_lt _ (by decide)), limit]
  simp only [decide_eq_true_eq]
  split_ifs <;> omega

theorem acquire_endRead {w : Word} (opened : w.stage = .opened) (room : w.full = false) :
    ∃ v, w.acquire = .ok v ∧ v.endRead = (false, w) := by
  obtain ⟨r, c, n, hn, rfl⟩ := w.exists_pack
  rw [full_pack hn, decide_eq_false_iff_not] at room
  have small : n + 1 < limit := by omega
  rw [stage_pack hn] at opened
  split_ifs at opened with closed requested
  rw [Bool.not_eq_true] at closed requested
  subst closed requested
  exact ⟨_, acquire_pack_opened small, endRead_pack small⟩

end QueryLease.Lease.Word

import Mathlib.Algebra.Group.Nat.Defs
import Mathlib.Tactic.SplitIfs
import QueryLease.Text.Utf8

namespace QueryLease

theorem Except.map_eq_ok {ε α β : Type} {f : α → β} {x : Except ε α} {b : β} :
    f <$> x = .ok b ↔ ∃ a, x = .ok a ∧ f a = b := by
  cases x with
  | error e => simp [Functor.map, Except.map]
  | ok a => simp [Functor.map, Except.map]

namespace Utf8

/-- Octets that spell a text, each character in its one encoding. -/
def WellFormed (bytes : Octets) : Prop := ∃ s, encode s = bytes

def octet (n k : Nat) : UInt8 := .ofNat (n / 64 ^ k % 64 + 0x80)

def trail (n : Nat) : Nat → Octets
  | 0 => []
  | k + 1 => octet n k :: trail n k

/-- The octet begins the character numbered `n`, and so many are to follow. -/
inductive Heads (n : Nat) (b : UInt8) : Nat → Prop
  | two (least : 0x80 ≤ n) (most : n < 0x800) (eq : b.toNat = n / 0x40 + 0xC0) : Heads n b 1
  | three (least : 0x800 ≤ n) (most : n < 0x10000) (eq : b.toNat = n / 0x1000 + 0xE0) :
      Heads n b 2
  | four (least : 0x10000 ≤ n) (eq : b.toNat = n / 0x40000 + 0xF0) : Heads n b 3

namespace Pending

/-- Something is owed, and it lies among the octets that continue a character. -/
structure Owing (p : Pending) : Prop where
  owed : 0 < p.owed
  low : 0x80 ≤ p.low.toNat
  high : p.high.toNat ≤ 0xBF

structure Begins (p : Pending) (n : Nat) : Prop where
  code : n / 64 ^ p.owed = p.code
  low : p.low.toNat ≤ n / 64 ^ (p.owed - 1) % 64 + 0x80
  high : n / 64 ^ (p.owed - 1) % 64 + 0x80 ≤ p.high.toNat

end Pending

variable {b : UInt8} {p q : Pending} {n k : Nat} {c : Char}

theorem toNat_ofNat (h : n.isValidChar) : (Char.ofNat n).val.toNat = n := by
  rw [Char.ofNat, dif_pos h]
  rfl

theorem toNat_octet (n k : Nat) : (octet n k).toNat = n / 64 ^ k % 64 + 0x80 := by
  rw [octet, UInt8.toNat_ofNat']
  omega

theorem Heads.spell (h : Heads n b k) (hn : n.isValidChar) :
    String.utf8EncodeChar (Char.ofNat n) = b :: trail n k := by
  have := b.toNat_lt
  simp only [String.utf8EncodeChar, toNat_ofNat hn]
  cases h with
  | two least most eq =>
    rw [if_neg (by omega), if_pos (by omega)]
    simp [trail, octet, ← UInt8.toNat_inj]
    omega
  | three least most eq =>
    rw [if_neg (by omega), if_neg (by omega), if_pos (by omega)]
    simp [trail, octet, ← UInt8.toNat_inj]
    omega
  | four least eq =>
    rw [if_neg (by omega), if_neg (by omega), if_neg (by omega)]
    simp [trail, octet, ← UInt8.toNat_inj]
    omega

theorem exists_heads (hn : n.isValidChar) (least : 0x80 ≤ n) : ∃ b k, Heads n b k := by
  simp only [Nat.isValidChar] at hn
  rcases Nat.lt_or_ge n 0x800 with two | h
  · exact ⟨.ofNat (n / 0x40 + 0xC0), 1, .two least two (by simp; omega)⟩
  rcases Nat.lt_or_ge n 0x10000 with three | four
  · exact ⟨.ofNat (n / 0x1000 + 0xE0), 2, .three h three (by simp; omega)⟩
  · exact ⟨.ofNat (n / 0x40000 + 0xF0), 3, .four four (by simp; omega)⟩

theorem Lead.owing (h : lead b = .opens p) : p.Owing := by
  simp only [lead, Lead.after] at h
  split_ifs at h
  all_goals
    simp only [Lead.opens.injEq] at h
    subst h
    constructor <;> simp

theorem Lead.spell_whole (h : lead b = .whole c) : String.utf8EncodeChar c = [b] := by
  simp only [lead, Lead.after] at h
  split_ifs at h with ascii
  obtain rfl := Lead.whole.inj h
  have valid : b.toNat.isValidChar := Or.inl (by omega)
  rw [String.utf8EncodeChar, toNat_ofNat valid, if_pos (by omega), UInt8.ofNat_toNat]

theorem Lead.heads (h : lead b = .opens p) (hn : p.Begins n) :
    n.isValidChar ∧ Heads n b p.owed := by
  obtain ⟨code, low, high⟩ := hn
  simp only [lead, Lead.after] at h
  split_ifs at h
  all_goals
    simp only [Lead.opens.injEq] at h
    subst h
    simp only [UInt8.reduceToNat, Nat.reduceSub, Nat.reducePow] at code low high
    refine ⟨by simp only [Nat.isValidChar]; omega, ?_⟩
  · exact .two (by omega) (by omega) (by omega)
  · exact .three (by omega) (by omega) (by omega)
  · exact .three (by omega) (by omega) (by omega)
  · exact .three (by omega) (by omega) (by omega)
  · exact .four (by omega) (by omega)
  · exact .four (by omega) (by omega)
  · exact .four (by omega) (by omega)

theorem Heads.lead (h : Heads n b k) (hn : n.isValidChar) :
    ∃ p, lead b = .opens p ∧ p.seen = 1 ∧ p.owed = k ∧ p.Begins n := by
  simp only [Nat.isValidChar] at hn
  simp only [Utf8.lead, Lead.after]
  -- Each kind of first octet lies in a band of its own.
  cases h with
  | two least most eq =>
    rw [if_neg (by omega), if_neg (by omega), if_pos (by omega)]
    refine ⟨_, rfl, rfl, rfl, ?_⟩
    constructor <;> simp only [UInt8.reduceToNat, Nat.reduceSub, Nat.reducePow] <;> omega
  | three least most eq =>
    rw [if_neg (by omega), if_neg (by omega), if_neg (by omega)]
    split_ifs <;> try omega
    all_goals
      refine ⟨_, rfl, rfl, rfl, ?_⟩
      constructor <;> simp only [UInt8.reduceToNat, Nat.reduceSub, Nat.reducePow] <;> omega
  | four least eq =>
    rw [if_neg (by omega), if_neg (by omega), if_neg (by omega), if_neg (by omega),
      if_neg (by omega), if_neg (by omega)]
    split_ifs <;> try omega
    all_goals
      refine ⟨_, rfl, rfl, rfl, ?_⟩
      constructor <;> simp only [UInt8.reduceToNat, Nat.reduceSub, Nat.reducePow] <;> omega

namespace Pending

theorem next_octet (h : p.Begins n) (owed : p.owed = k + 1) :
    p.next (octet n k) =
      if k = 0 then .whole (Char.ofNat n)
      else .opens ⟨n / 64 ^ k, p.seen + 1, k, 0x80, 0xBF⟩ := by
  obtain ⟨code, low, high⟩ := h
  rw [owed, Nat.add_sub_cancel, ← toNat_octet, ← UInt8.le_iff_toNat_le] at low high
  have bits : p.code * 64 + (octet n k).toNat % 64 = n / 64 ^ k := by
    rw [← code, owed, toNat_octet, Nat.pow_succ, ← Nat.div_div_eq_div_mul]
    omega
  rw [next, if_pos ⟨low, high⟩]
  simp only [owed, bits, Nat.add_eq_right, Nat.add_sub_cancel]
  split_ifs with last
  · rw [last, Nat.pow_zero, Nat.div_one]
  · rfl

theorem next_whole (owing : p.Owing) (h : p.next b = .whole c) :
    ∃ n, c = Char.ofNat n ∧ p.owed = 1 ∧ p.Begins n ∧ octet n 0 = b := by
  obtain ⟨owed, low, high⟩ := owing
  rw [next] at h
  split_ifs at h with range last
  rw [UInt8.le_iff_toNat_le, UInt8.le_iff_toNat_le] at range
  have bits : (octet (p.code * 64 + b.toNat % 64) 0).toNat = b.toNat := by
    rw [toNat_octet]
    omega
  refine ⟨_, (Lead.whole.inj h).symm, last, ⟨?_, ?_, ?_⟩, UInt8.toNat_inj.1 bits⟩ <;>
    rw [last] <;> omega

theorem next_opens (owing : p.Owing) (h : p.next b = .opens q) :
    q.Owing ∧ q.seen = p.seen + 1 ∧ p.owed = q.owed + 1 ∧
      ∀ n, q.Begins n → p.Begins n ∧ octet n q.owed = b := by
  obtain ⟨owed, low, high⟩ := owing
  rw [next] at h
  split_ifs at h with range last
  rw [UInt8.le_iff_toNat_le, UInt8.le_iff_toNat_le] at range
  obtain rfl := Lead.opens.inj h
  refine ⟨⟨by simp only []; omega, by simp, by simp⟩, rfl, by simp only []; omega, ?_⟩
  rintro n ⟨code, -, -⟩
  simp only [] at code ⊢
  have bits : (octet n (p.owed - 1)).toNat = b.toNat := by
    rw [toNat_octet]
    omega
  refine ⟨⟨?_, ?_, ?_⟩, UInt8.toNat_inj.1 bits⟩
  · rw [show p.owed = p.owed - 1 + 1 by omega, Nat.pow_succ, ← Nat.div_div_eq_div_mul]
    omega
  · omega
  · omega

end Pending

@[simp] theorem length_trail (n k : Nat) : (trail n k).length = k := by
  induction k with
  | zero => rfl
  | succ k ih => rw [trail, List.length_cons, ih]

theorem scan_trail (v : Nat) (rest : Octets) (h : p.Begins n) (owed : p.owed = k + 1) :
    scan v (some p) (trail n (k + 1) ++ rest) =
      (Char.ofNat n :: ·) <$> scan (v + p.seen + (k + 1)) none rest := by
  induction k generalizing p with
  | zero => simp [trail, scan, p.next_octet h owed]
  | succ k ih =>
    have q : Pending.Begins ⟨n / 64 ^ (k + 1), p.seen + 1, k + 1, 0x80, 0xBF⟩ n :=
      ⟨rfl, by simp, by simp; omega⟩
    rw [trail, List.cons_append, scan, p.next_octet h owed, if_neg k.succ_ne_zero]
    simp only []
    rw [ih q rfl]
    simp only [Nat.add_assoc, Nat.add_comm 1]

theorem scan_spelled (v : Nat) (c : Char) (rest : Octets) :
    scan v none (String.utf8EncodeChar c ++ rest) =
      (c :: ·) <$> scan (v + (String.utf8EncodeChar c).length) none rest := by
  have valid : c.toNat.isValidChar := c.valid
  rcases Nat.lt_or_ge c.toNat 0x80 with ascii | several
  · have spell : String.utf8EncodeChar c = [.ofNat c.toNat] := if_pos (Nat.le_of_lt_succ ascii)
    have whole : lead (.ofNat c.toNat) = .whole c := by
      rw [lead, UInt8.toNat_ofNat', Nat.mod_eq_of_lt (by omega), if_pos ascii, Char.ofNat_toNat]
    rw [spell, List.singleton_append, scan, whole]
    rfl
  · obtain ⟨b, k, heads⟩ := exists_heads valid several
    obtain ⟨p, opens, seen, rfl, begins⟩ := heads.lead valid
    obtain ⟨k, owed⟩ := Nat.exists_eq_add_one.2 (Lead.owing opens).owed
    have spell := heads.spell valid
    rw [Char.ofNat_toNat] at spell
    rw [spell, List.cons_append, scan, opens]
    simp only []
    rw [owed, scan_trail v rest begins owed, Char.ofNat_toNat, seen, List.length_cons,
      length_trail, Nat.add_assoc, Nat.add_comm 1]

theorem scan_encode (v : Nat) (cs : List Char) :
    scan v none (cs.flatMap String.utf8EncodeChar) = .ok cs := by
  induction cs generalizing v with
  | nil => rfl
  | cons c cs ih =>
    rw [List.flatMap_cons, scan_spelled, ih]
    rfl

theorem decode_encode (s : String) : decode (encode s) = .ok s := by
  rw [decode, encode, scan_encode]
  exact congrArg _ s.ofList_toList

theorem scan_some_ok {v : Nat} {bytes : Octets} {cs : List Char} (owing : p.Owing)
    (h : scan v (some p) bytes = .ok cs) :
    ∃ n rest cs', p.Begins n ∧ bytes = trail n p.owed ++ rest ∧ cs = Char.ofNat n :: cs' ∧
      scan (v + p.seen + p.owed) none rest = .ok cs' := by
  induction bytes generalizing p with
  | nil => cases h
  | cons b rest ih =>
    rw [scan] at h
    cases next : p.next b with
    | whole c =>
      obtain ⟨n, rfl, owed, begins, octet⟩ := p.next_whole owing next
      rw [next] at h
      obtain ⟨cs', read, rfl⟩ := Except.map_eq_ok.1 h
      exact ⟨n, rest, cs', begins, by rw [owed, trail, octet]; rfl, rfl, by rwa [owed]⟩
    | opens q =>
      obtain ⟨owing, seen, owed, step⟩ := p.next_opens owing next
      rw [next] at h
      obtain ⟨n, rest, cs', begins, rfl, rfl, read⟩ := ih owing h
      obtain ⟨begins, octet⟩ := step n begins
      refine ⟨n, rest, cs', begins, by rw [owed, trail, octet]; rfl, rfl, ?_⟩
      rwa [owed, Nat.add_comm q.owed, ← Nat.add_assoc, Nat.add_assoc v, ← seen]
    | bad =>
      rw [next] at h
      cases h

theorem scan_none_ok {v : Nat} {bytes : Octets} {cs : List Char} (h : scan v none bytes = .ok cs) :
    cs.flatMap String.utf8EncodeChar = bytes := by
  -- On the length, as a character takes up to four octets at once.
  induction k : bytes.length using Nat.strongRecOn generalizing v bytes cs with
  | ind k ih =>
  cases bytes with
  | nil =>
    cases h
    rfl
  | cons b rest =>
    rw [scan] at h
    cases first : lead b with
    | whole c =>
      rw [first] at h
      obtain ⟨cs', read, rfl⟩ := Except.map_eq_ok.1 h
      have shorter : rest.length < (b :: rest).length := Nat.lt_succ_self _
      rw [List.flatMap_cons, ih rest.length (k ▸ shorter) read rfl, Lead.spell_whole first]
      rfl
    | opens p =>
      rw [first] at h
      obtain ⟨n, rest, cs', begins, rfl, rfl, read⟩ := scan_some_ok (Lead.owing first) h
      obtain ⟨valid, heads⟩ := Lead.heads first begins
      have shorter : rest.length < (b :: (trail n p.owed ++ rest)).length := by
        rw [List.length_cons, List.length_append]
        omega
      rw [List.flatMap_cons, ih rest.length (k ▸ shorter) read rfl, heads.spell valid]
      rfl
    | bad =>
      rw [first] at h
      cases h

theorem decode_eq_ok {bytes : Octets} {s : String} : decode bytes = .ok s ↔ encode s = bytes := by
  constructor
  · intro h
    obtain ⟨cs, read, rfl⟩ := Except.map_eq_ok.1 h
    rw [encode, String.toList_ofList, scan_none_ok read]
  · rintro rfl
    exact decode_encode s

theorem isOk_decode {bytes : Octets} : (decode bytes).isOk ↔ WellFormed bytes := by
  simp only [WellFormed, ← decode_eq_ok]
  cases decode bytes <;> simp [Except.isOk, Except.toBool]

instance (bytes : Octets) : Decidable (WellFormed bytes) := decidable_of_iff _ isOk_decode

end Utf8

end QueryLease

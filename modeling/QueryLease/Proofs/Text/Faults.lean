import Mathlib.Order.Bounds.Basic
import QueryLease.Proofs.Value.Conversion

namespace QueryLease

namespace Utf8

/-- The octets begin a character that goes on after them. -/
def Begun (bytes : Octets) : Prop :=
  ∃ c, bytes <+: String.utf8EncodeChar c ∧ bytes ≠ String.utf8EncodeChar c

def Longest (P : Octets → Prop) (bytes : Octets) (n : Nat) : Prop :=
  IsGreatest {k | ∃ start, start <+: bytes ∧ P start ∧ start.length = k} n

/-- The text goes as far as it can, and the character after it is cut off by the end or goes wrong
at the octet after its longest beginning, or at its first. -/
structure Fault.Locates (f : Fault) (bytes : Octets) : Prop where
  valid : Longest WellFormed bytes f.validUpTo
  cutOff : f.errorLen = none ↔ bytes.drop f.validUpTo ≠ [] ∧ Begun (bytes.drop f.validUpTo)
  bad : ∀ n, f.errorLen = some n →
    ∃ k, Longest Begun (bytes.drop f.validUpTo) k ∧ n = max 1 k

structure Pending.Reads (p : Pending) (bytes : Octets) : Prop where
  length : bytes.length = p.seen
  seen : 0 < p.seen
  owing : p.Owing
  range : p.low ≤ p.high
  spells : ∀ n, p.Begins n →
    n.isValidChar ∧ String.utf8EncodeChar (Char.ofNat n) = bytes ++ trail n p.owed
  begins : ∀ c, bytes <+: String.utf8EncodeChar c → p.Begins c.toNat

inductive Awaits : Option Pending → Octets → Prop
  | between : Awaits none []
  | within {p : Pending} {bytes : Octets} (reads : p.Reads bytes) : Awaits (some p) bytes

/-- Octets that begin no text of their own: they end inside a character, or one of them rules out
every character. -/
inductive Breaks : Octets → Option Nat → Prop
  | cutOff {bytes : Octets} (some : bytes ≠ []) (begun : Begun bytes) : Breaks bytes none
  | bad {bytes : Octets} {b : UInt8} (rest : Octets) (begun : Begun bytes)
    (none : ∀ c, ¬ bytes ++ [b] <+: String.utf8EncodeChar c) :
    Breaks (bytes ++ b :: rest) (some (max 1 bytes.length))

variable {b : UInt8} {p q : Pending} {bytes rest start : Octets} {c d : Char} {n v : Nat}

theorem eq_of_spelled_prefix (h : String.utf8EncodeChar c <+: String.utf8EncodeChar d) : c = d := by
  obtain ⟨more, split⟩ := h
  have whole : scan 0 none (String.utf8EncodeChar d) = .ok [d] := by
    have read := scan_encode 0 [d]
    rwa [List.flatMap_singleton] at read
  rw [← split, scan_spelled] at whole
  obtain ⟨cs, -, same⟩ := Except.map_eq_ok.1 whole
  exact (List.cons.inj same).1

theorem spelled_ne_nil (c : Char) : String.utf8EncodeChar c ≠ [] := by
  intro none
  have length := String.length_utf8EncodeChar c
  rw [none] at length
  exact absurd length.symm (Char.utf8Size_pos c).ne'

theorem begun_nil : Begun [] := ⟨'a', List.nil_prefix, (spelled_ne_nil _).symm⟩

theorem Begun.not_spelled (h : Begun bytes) : ¬ String.utf8EncodeChar c <+: bytes := by
  intro complete
  obtain ⟨d, begins, other⟩ := h
  obtain rfl := eq_of_spelled_prefix (complete.trans begins)
  exact other (begins.eq_of_length (Nat.le_antisymm begins.length_le complete.length_le))

theorem Begun.length_lt (h : Begun bytes) : bytes.length < 4 := by
  obtain ⟨c, begins, other⟩ := h
  have shorter : bytes.length ≠ (String.utf8EncodeChar c).length :=
    fun same => other (begins.eq_of_length same)
  have le := begins.length_le
  have size := Char.utf8Size_le_four c
  rw [String.length_utf8EncodeChar] at shorter le
  omega

theorem Pending.exists_begins (owing : p.Owing) (range : p.low ≤ p.high) : ∃ n, p.Begins n := by
  obtain ⟨owed, low, high⟩ := owing
  obtain ⟨k, hk⟩ := Nat.exists_eq_add_one.2 owed
  rw [UInt8.le_iff_toNat_le] at range
  have bits : (p.code * 64 + (p.low.toNat - 0x80)) * 64 ^ k / 64 ^ k =
      p.code * 64 + (p.low.toNat - 0x80) := Nat.mul_div_cancel _ (Nat.pow_pos (by decide))
  refine ⟨(p.code * 64 + (p.low.toNat - 0x80)) * 64 ^ k, ?_, ?_, ?_⟩
  · rw [hk, Nat.pow_succ, ← Nat.div_div_eq_div_mul, bits]
    omega
  · rw [hk, Nat.add_sub_cancel, bits]
    omega
  · rw [hk, Nat.add_sub_cancel, bits]
    omega

namespace Pending.Reads

theorem begun (r : p.Reads bytes) : Begun bytes := by
  obtain ⟨n, begins⟩ := exists_begins r.owing r.range
  obtain ⟨-, spelled⟩ := r.spells n begins
  refine ⟨Char.ofNat n, ⟨_, spelled.symm⟩, fun same => ?_⟩
  have length := congrArg List.length (same.trans spelled)
  rw [List.length_append, length_trail] at length
  have owed := r.owing.owed
  omega

theorem ne_nil (r : p.Reads bytes) : bytes ≠ [] := by
  rintro rfl
  exact absurd r.length r.seen.ne

theorem octet (r : p.Reads bytes) (h : bytes ++ [b] <+: String.utf8EncodeChar c) :
    ∃ k, p.owed = k + 1 ∧ p.Begins c.toNat ∧ b = Utf8.octet c.toNat k := by
  have begins := r.begins c ((List.prefix_append _ _).trans h)
  obtain ⟨k, owed⟩ := Nat.exists_eq_add_one.2 r.owing.owed
  obtain ⟨-, spelled⟩ := r.spells _ begins
  rw [Char.ofNat_toNat, owed] at spelled
  rw [spelled, List.prefix_append_right_inj, trail, List.cons_prefix_cons] at h
  exact ⟨k, owed, begins, h.1⟩

theorem whole (r : p.Reads bytes) (h : p.next b = .whole c) :
    String.utf8EncodeChar c = bytes ++ [b] := by
  obtain ⟨n, rfl, owed, begins, octet⟩ := p.next_whole r.owing h
  obtain ⟨-, spelled⟩ := r.spells n begins
  rw [spelled, owed, trail, octet, trail]

theorem bad (r : p.Reads bytes) (h : p.next b = .bad) (c : Char) :
    ¬ bytes ++ [b] <+: String.utf8EncodeChar c := by
  intro goes
  obtain ⟨k, owed, begins, rfl⟩ := r.octet goes
  rw [p.next_octet begins owed] at h
  split_ifs at h

theorem opens (r : p.Reads bytes) (h : p.next b = .opens q) : q.Reads (bytes ++ [b]) := by
  obtain ⟨owing, seen, owed, step⟩ := p.next_opens r.owing h
  have range : q.low ≤ q.high := by
    rw [next] at h
    split_ifs at h
    obtain rfl := Lead.opens.inj h
    exact (by decide : (0x80 : UInt8) ≤ 0xBF)
  refine ⟨?_, seen ▸ Nat.succ_pos _, owing, range, fun n begins => ?_, fun c goes => ?_⟩
  · rw [List.length_append, r.length, seen]
    rfl
  · obtain ⟨begins, octet⟩ := step n begins
    obtain ⟨valid, spelled⟩ := r.spells n begins
    refine ⟨valid, ?_⟩
    rw [spelled, owed, trail, octet, List.append_assoc, List.singleton_append]
  · obtain ⟨k, owed', begins, rfl⟩ := r.octet goes
    rw [p.next_octet begins owed'] at h
    split_ifs at h
    obtain rfl := Lead.opens.inj h
    exact ⟨rfl, by simp, by simp; omega⟩

end Pending.Reads

theorem lead_spelled (h : [b] <+: String.utf8EncodeChar c) :
    lead b = .whole c ∨ ∃ p, lead b = .opens p ∧ p.Begins c.toNat := by
  have valid : c.toNat.isValidChar := c.valid
  rcases Nat.lt_or_ge c.toNat 0x80 with ascii | several
  · have spell : String.utf8EncodeChar c = [.ofNat c.toNat] := if_pos (Nat.le_of_lt_succ ascii)
    rw [spell, List.cons_prefix_cons] at h
    obtain ⟨rfl, -⟩ := h
    rw [lead, UInt8.toNat_ofNat', Nat.mod_eq_of_lt (by omega), if_pos ascii, Char.ofNat_toNat]
    exact .inl rfl
  · obtain ⟨b', k, heads⟩ := exists_heads valid several
    have spell := heads.spell valid
    rw [Char.ofNat_toNat] at spell
    rw [spell, List.cons_prefix_cons] at h
    obtain ⟨rfl, -⟩ := h
    obtain ⟨p, opens, -, -, begins⟩ := heads.lead valid
    exact .inr ⟨p, opens, begins⟩

theorem lead_bad (h : lead b = .bad) (c : Char) : ¬ [b] <+: String.utf8EncodeChar c := by
  intro begins
  rcases lead_spelled begins with whole | ⟨p, opens, -⟩
  · cases h.symm.trans whole
  · cases h.symm.trans opens

theorem lead_opens (h : lead b = .opens p) : p.Reads [b] := by
  have seen : p.seen = 1 ∧ p.low ≤ p.high := by
    have opens := h
    simp only [lead, Lead.after] at opens
    split_ifs at opens
    all_goals
      obtain rfl := Lead.opens.inj opens
      simp
  refine ⟨seen.1.symm, seen.1 ▸ Nat.one_pos, Lead.owing h, seen.2, fun n begins => ?_,
    fun c begins => ?_⟩
  · obtain ⟨valid, heads⟩ := Lead.heads h begins
    exact ⟨valid, heads.spell valid⟩
  · rcases lead_spelled begins with whole | ⟨q, opens, begins⟩
    · cases h.symm.trans whole
    · obtain rfl := Lead.opens.inj (h.symm.trans opens)
      exact begins

theorem WellFormed.cons (h : WellFormed bytes) (c : Char) :
    WellFormed (String.utf8EncodeChar c ++ bytes) := by
  obtain ⟨s, rfl⟩ := h
  refine ⟨String.ofList (c :: s.toList), ?_⟩
  rw [encode, String.toList_ofList, List.flatMap_cons, encode]

theorem scan_error {s : Option Pending} {f : Fault} (awaits : Awaits s start)
    (h : scan v s bytes = .error f) : ∃ good rest, start ++ bytes = good ++ rest ∧
      WellFormed good ∧ f.validUpTo = v + good.length ∧ Breaks rest f.errorLen := by
  have nothing : WellFormed [] := ⟨"", rfl⟩
  induction bytes generalizing v s start with
  | nil =>
    cases awaits with
    | between => cases h
    | within reads =>
      obtain rfl := Except.error.inj h
      refine ⟨[], start, by simp, nothing, rfl, .cutOff reads.ne_nil reads.begun⟩
  | cons b bytes ih =>
    -- A character done is a part of the text, and what comes after it is scanned from there.
    have done {c : Char} {w : Nat} (spelled : String.utf8EncodeChar c = start ++ [b])
        (hw : w = v + (start ++ [b]).length)
        (later : (c :: ·) <$> scan w none bytes = .error f) :
        ∃ good rest, start ++ b :: bytes = good ++ rest ∧ WellFormed good ∧
          f.validUpTo = v + good.length ∧ Breaks rest f.errorLen := by
      have failed : scan w none bytes = .error f := by
        cases read : scan w none bytes with
        | error e =>
          rw [read] at later
          exact congrArg _ (Except.error.inj later)
        | ok cs =>
          rw [read] at later
          cases later
      obtain ⟨good, rest, split, wellFormed, valid, breaks⟩ := ih .between failed
      refine ⟨String.utf8EncodeChar c ++ good, rest, ?_, wellFormed.cons c, ?_, breaks⟩
      · rw [List.nil_append] at split
        rw [spelled, List.append_assoc, List.append_assoc, ← split, List.singleton_append]
      · have length : (start ++ [b] ++ good).length = (start ++ [b]).length + good.length :=
          List.length_append
        rw [valid, hw, spelled, length, Nat.add_assoc]
    -- A character that goes on takes the octet in.
    have goes {p : Pending} (reads : p.Reads (start ++ [b]))
        (later : scan v (some p) bytes = .error f) :
        ∃ good rest, start ++ b :: bytes = good ++ rest ∧ WellFormed good ∧
          f.validUpTo = v + good.length ∧ Breaks rest f.errorLen := by
      rw [List.append_cons]
      exact ih (.within reads) later
    cases awaits with
    | between =>
      rw [scan] at h
      cases first : lead b with
      | whole c =>
        rw [first] at h
        exact done (Lead.spell_whole first) rfl h
      | opens p =>
        rw [first] at h
        exact goes (lead_opens first) h
      | bad =>
        rw [first] at h
        obtain rfl := Except.error.inj h
        exact ⟨[], b :: bytes, rfl, nothing, rfl, .bad bytes begun_nil (lead_bad first)⟩
    | @within p _ reads =>
      rw [scan] at h
      cases next : p.next b with
      | whole c =>
        rw [next] at h
        refine done (reads.whole next) ?_ h
        rw [List.length_append, reads.length, Nat.add_assoc]
        rfl
      | opens q =>
        rw [next] at h
        exact goes (reads.opens next) h
      | bad =>
        rw [next] at h
        obtain rfl := Except.error.inj h
        refine ⟨[], start ++ b :: bytes, rfl, nothing, rfl, ?_⟩
        have breaks := Breaks.bad bytes reads.begun (reads.bad next)
        rwa [reads.length, Nat.max_eq_right reads.seen] at breaks

theorem Breaks.not_spelled {e : Option Nat} (h : Breaks rest e) :
    ¬ String.utf8EncodeChar c <+: rest := by
  intro complete
  cases h with
  | cutOff some begun => exact begun.not_spelled complete
  | @bad bytes b rest begun none =>
    have upTo : bytes ++ [b] <+: bytes ++ b :: rest :=
      ⟨rest, by rw [List.append_assoc, List.singleton_append]⟩
    rcases List.prefix_or_prefix_of_prefix complete upTo with within | goes
    · rcases List.prefix_concat_iff.1 within with same | within
      · exact none c (same ▸ List.prefix_refl _)
      · exact begun.not_spelled within
    · exact none c goes

theorem scan_encode_append (cs : List Char) :
    scan v none (cs.flatMap String.utf8EncodeChar ++ rest) =
      (cs ++ ·) <$> scan (v + (cs.flatMap String.utf8EncodeChar).length) none rest := by
  induction cs generalizing v with
  | nil =>
    show scan v none rest = id <$> scan v none rest
    rw [id_map]
  | cons c cs ih =>
    rw [List.flatMap_cons, List.append_assoc, scan_spelled, ih, List.length_append, ← Nat.add_assoc,
      ← comp_map]
    rfl

theorem WellFormed.of_append (h : WellFormed (bytes ++ rest)) (good : WellFormed bytes) :
    WellFormed rest := by
  obtain ⟨s, rfl⟩ := good
  obtain ⟨t, whole⟩ := h
  have read : decode (encode s ++ rest) = .ok t := decode_eq_ok.2 whole
  rw [decode, encode, scan_encode_append] at read
  obtain ⟨_, read, -⟩ := Except.map_eq_ok.1 read
  obtain ⟨cs, read, -⟩ := Except.map_eq_ok.1 read
  refine ⟨String.ofList cs, ?_⟩
  rw [encode, String.toList_ofList, scan_none_ok read]

theorem Breaks.longest {e : Option Nat} (h : Breaks rest e) (good : WellFormed bytes) :
    Longest WellFormed (bytes ++ rest) bytes.length := by
  refine ⟨⟨bytes, List.prefix_append _ _, good, rfl⟩, ?_⟩
  rintro _ ⟨start, begins, wellFormed, rfl⟩
  by_contra longer
  obtain ⟨more, rfl⟩ := List.prefix_of_prefix_length_le (List.prefix_append _ _) begins
    (Nat.le_of_not_le longer)
  rw [List.prefix_append_right_inj] at begins
  obtain ⟨s, spelled⟩ := wellFormed.of_append good
  cases chars : s.toList with
  | nil =>
    rw [encode, chars] at spelled
    rw [← spelled] at longer
    exact longer (by simp)
  | cons c cs =>
    rw [encode, chars, List.flatMap_cons] at spelled
    exact h.not_spelled ((spelled ▸ List.prefix_append _ _ : _ <+: more).trans begins)

theorem Breaks.eq_none_iff {e : Option Nat} (h : Breaks rest e) :
    e = none ↔ rest ≠ [] ∧ Begun rest := by
  cases h with
  | cutOff some begun => exact iff_of_true rfl ⟨some, begun⟩
  | @bad bytes b rest begun none =>
    refine iff_of_false (by simp) ?_
    rintro ⟨-, c, begins, -⟩
    refine none c (List.IsPrefix.trans ⟨rest, ?_⟩ begins)
    rw [List.append_assoc, List.singleton_append]

theorem Breaks.eq_max (h : Breaks rest (some n)) : ∃ k, Longest Begun rest k ∧ n = max 1 k := by
  cases h with
  | @bad bytes b rest begun none =>
    refine ⟨bytes.length, ⟨⟨bytes, List.prefix_append _ _, begun, rfl⟩, ?_⟩, rfl⟩
    rintro _ ⟨start, begins, ⟨c, goes, -⟩, rfl⟩
    by_contra longer
    have upTo : bytes ++ [b] <+: bytes ++ b :: rest :=
      ⟨rest, by rw [List.append_assoc, List.singleton_append]⟩
    refine none c ((List.prefix_of_prefix_length_le upTo begins ?_).trans goes)
    rw [List.length_append, List.length_singleton]
    omega

namespace Fault.Locates

variable {f g : Fault}

theorem of_breaks (h : Breaks rest f.errorLen) (good : WellFormed bytes)
    (valid : f.validUpTo = bytes.length) : f.Locates (bytes ++ rest) := by
  have left : (bytes ++ rest).drop f.validUpTo = rest := by rw [valid, List.drop_left]
  refine ⟨valid ▸ h.longest good, ?_, fun n bad => ?_⟩
  · rw [left]
    exact h.eq_none_iff
  · rw [left]
    exact (bad ▸ h).eq_max

theorem unique (hf : f.Locates bytes) (hg : g.Locates bytes) : f = g := by
  obtain ⟨valid, errorLen⟩ := f
  obtain ⟨valid', errorLen'⟩ := g
  obtain rfl : valid = valid' := hf.valid.unique hg.valid
  have cutOff : errorLen = none ↔ errorLen' = none := hf.cutOff.trans hg.cutOff.symm
  cases errorLen with
  | none => rw [cutOff.1 rfl]
  | some n =>
    cases errorLen' with
    | none => cases cutOff.2 rfl
    | some m =>
      obtain ⟨k, longest, rfl⟩ := hf.bad n rfl
      obtain ⟨l, longest', rfl⟩ := hg.bad m rfl
      rw [longest.unique longest']

theorem errorLen_le (hf : f.Locates bytes) (bad : f.errorLen = some n) : 1 ≤ n ∧ n ≤ 3 := by
  obtain ⟨k, longest, rfl⟩ := hf.bad n bad
  obtain ⟨start, -, begun, rfl⟩ := longest.1
  have := begun.length_lt
  omega

end Fault.Locates

theorem decode_eq_error {f : Fault} :
    decode bytes = .error f ↔ ¬ WellFormed bytes ∧ f.Locates bytes := by
  have located {f : Fault} (h : decode bytes = .error f) : f.Locates bytes := by
    have failed : scan 0 none bytes = .error f := by
      rw [decode] at h
      cases read : scan 0 none bytes with
      | error e =>
        rw [read] at h
        exact congrArg _ (Except.error.inj h)
      | ok cs =>
        rw [read] at h
        cases h
    obtain ⟨good, rest, split, wellFormed, valid, breaks⟩ := scan_error .between failed
    rw [← List.nil_append bytes, split]
    exact .of_breaks breaks wellFormed (valid.trans (Nat.zero_add _))
  constructor
  · intro h
    refine ⟨?_, located h⟩
    rintro ⟨s, spelled⟩
    rw [decode_eq_ok.2 spelled] at h
    cases h
  · rintro ⟨ill, locates⟩
    cases read : decode bytes with
    | ok s => exact absurd ⟨s, decode_eq_ok.1 read⟩ ill
    | error g => rw [(located read).unique locates]

end Utf8

namespace Cell

/-- A text is accepted exactly if its octets are those of characters one after another, and it is
then those characters, as an accessor gives it or as a value. Any other has one fault: the text goes
as far as it can, and the octets after that are cut short inside a character or begin none. -/
theorem text_judged (bytes : Utf8.Octets) :
    (∀ s, (text bytes).asUtf8 = some (.ok s) ↔ Utf8.encode s = bytes) ∧
    ((∃ s, (text bytes).asUtf8 = some (.ok s)) ↔
      ∃ cs : List Char, (cs.map String.utf8EncodeChar).flatten = bytes) ∧
    (∀ v, (text bytes).toValue = .ok v ↔
      ∃ s, (text bytes).asUtf8 = some (.ok s) ∧ v = .string s) ∧
    ((∃ f, (text bytes).asUtf8 = some (.error f)) ↔ ¬ Utf8.WellFormed bytes) ∧
    (∀ f, (text bytes).asUtf8 = some (.error f) ↔ ¬ Utf8.WellFormed bytes ∧ f.Locates bytes) ∧
    ∀ f n, (text bytes).asUtf8 = some (.error f) → f.errorLen = some n → n = 1 ∨ n = 2 ∨ n = 3 := by
  have accepted (s : String) : (text bytes).asUtf8 = some (.ok s) ↔ Utf8.encode s = bytes :=
    Option.some_inj.trans Utf8.decode_eq_ok
  have refused (f : Utf8.Fault) :
      (text bytes).asUtf8 = some (.error f) ↔ ¬ Utf8.WellFormed bytes ∧ f.Locates bytes :=
    Option.some_inj.trans Utf8.decode_eq_error
  refine ⟨accepted, ?_, fun v => ?_, ?_, refused, fun f n failed bad => ?_⟩
  · constructor
    · rintro ⟨s, read⟩
      exact ⟨s.toList, (List.flatMap_def ..).symm.trans ((accepted s).1 read)⟩
    · rintro ⟨cs, rfl⟩
      refine ⟨String.ofList cs, (accepted _).2 ?_⟩
      rw [Utf8.encode, String.toList_ofList, List.flatMap_def]
  · rw [toValue, Except.map_eq_ok]
    exact exists_congr fun s => and_congr (TextRole.decode_eq_ok.trans (accepted s).symm) eq_comm
  · constructor
    · rintro ⟨f, failed⟩
      exact ((refused f).1 failed).1
    · intro ill
      cases read : Utf8.decode bytes with
      | ok s => exact absurd ⟨s, Utf8.decode_eq_ok.1 read⟩ ill
      | error f => exact ⟨f, congrArg some read⟩
  · have := ((refused f).1 failed).2.errorLen_le bad
    omega

/-- Two octets of the three that spell a euro sign, after one letter. -/
example : (text [0x61, 0xE2, 0x82]).asUtf8 = some (.error ⟨1, none⟩) := rfl

example : (text [0x61, 0xED, 0xA0, 0x80]).asUtf8 = some (.error ⟨1, some 1⟩) := rfl

end Cell

end QueryLease

import Mathlib.Algebra.Order.Group.Multiset
import QueryLease.Proofs.Engine.Discipline

namespace QueryLease.Engine

def Childless (o : Object) (X : Multiset Stand) : Prop := ∀ e ∈ X, e.2 ≠ some o

theorem Childless.cons {X : Multiset Stand} {o p : Object} {parent : Option Object}
    (h : Childless o X) (hp : parent ≠ some o) : Childless o ((p, parent) ::ₘ X) :=
  Multiset.forall_mem_cons.2 ⟨hp, h⟩

def Asked (X : Multiset Stand) : Option (Option Object) → Prop
  | none => True
  | some none => False
  | some (some o) => o ∈ X.map Prod.fst

theorem mem_self {X : Multiset Stand} {o : Object} {parent : Option Object} :
    o ∈ Multiset.map Prod.fst ((o, parent) ::ₘ X) := by
  rw [Multiset.map_cons]
  exact Multiset.mem_cons_self o _

@[simp] theorem Tally.count_add_self (t : Tally) (k : Kind) :
    (t.add k).count k = t.count k + 1 := by
  cases k <;> rfl

theorem Tally.count_le_add (t : Tally) (k j : Kind) : t.count j ≤ (t.add k).count j := by
  cases k <;> cases j <;> simp [add, count]

namespace Ledger

/-- Disciplined calls, after which just `X` stands. -/
structure Stands (X : Multiset Stand) (l : Ledger) : Prop where
  disciplined : Disciplined l.calls
  standing : (Engine.standing l.calls : Multiset Stand) = X
  issued : ∀ o ∈ handed l.calls, o.number ≤ l.issued.count o.kind

structure Received (X : Multiset Stand) (k : Kind) (object : Option Object)
    (l : Ledger) : Prop where
  stands : Stands X l
  kind : ∀ o, object = some o → o.kind = k
  fresh : ∀ o, object = some o → o ∉ handed l.calls
  issued : ∀ o, object = some o → o.number ≤ l.issued.count o.kind

def Got (k : Kind) (parent : Option Object) (X : Multiset Stand) : Option Object → Ledger → Prop
  | none, l => Stands X l
  | some o, l =>
    (o.kind = k ∧ Childless o ((o, parent) ::ₘ X)) ∧ Stands ((o, parent) ::ₘ X) l

variable {X : Multiset Stand} {l : Ledger} {c : Call} {o : Object} {parent : Option Object}
  {k : Kind} {entry : Entry} {subject : Option (Option Object)} {details : List String}

abbrev Leaves {α : Type} (X : Multiset Stand) (x : LedgerM α) : Prop :=
  Keeps (Stands X) x fun _ => Stands X

theorem Leaves.bind {α β : Type} {x : LedgerM α} {f : α → LedgerM β} {q : β → Ledger → Prop}
    (hx : Leaves X x) (hf : ∀ a, Keeps (Stands X) (f a) q) : Keeps (Stands X) (x >>= f) q :=
  Alike.bind hx hf

namespace Stands

theorem mem_map (L : Stands X l) (h : o ∈ X.map Prod.fst) :
    o ∈ (Engine.standing l.calls).map Prod.fst := by
  rwa [← L.standing, Multiset.map_coe, Multiset.mem_coe] at h

theorem mem_standing (L : Stands X l) {e : Stand} : e ∈ Engine.standing l.calls ↔ e ∈ X := by
  rw [← L.standing, Multiset.mem_coe]

theorem nodup (L : Stands X l) : (X.map Prod.fst).Nodup := by
  rw [← L.standing, Multiset.map_coe, Multiset.coe_nodup]
  exact L.disciplined.nodup

theorem notMem (L : Stands ((o, parent) ::ₘ X) l) : o ∉ X.map Prod.fst := by
  have once := L.nodup
  rw [Multiset.map_cons, Multiset.nodup_cons] at once
  exact once.1

theorem asked (L : Stands X l) (hs : Asked X c.subject) (hd : c.entry.destroys = false)
    (fresh : ∀ o, c.given? = some o → o ∉ handed l.calls) : c.Disciplined l.calls := by
  have none : c.destroyed? = none := by rw [Call.destroyed?, hd]; rfl
  refine ⟨fresh, fun o ho => ?_, fun ho => ?_, fun o ho => ?_, fun o ho => ?_⟩
  · rw [ho] at hs
    exact L.mem_map hs
  · rw [ho] at hs
    exact hs.elim
  · rw [none] at ho
    cases ho
  · rw [none] at ho
    cases ho

end Stands

theorem standing_cons (hd : c.entry.destroys = false) (calls : List Call) :
    (Engine.standing (c :: calls) : Multiset Stand) =
      ((c.given?.map fun o => (o, c.subject.join)).toList : Multiset Stand) +
        (Engine.standing calls : Multiset Stand) := by
  have all : ((Engine.standing calls).filter fun e => c.destroyed? ≠ some e.1) =
      Engine.standing calls := by
    rw [Call.destroyed?, hd]
    exact List.filter_eq_self.2 fun _ _ => by simp
  rw [Engine.standing, all, Multiset.coe_add]

theorem record_keeps (hg : c.given? = none) (hd : c.entry.destroys = false)
    (hs : Asked X c.subject) : Leaves X (record c) := by
  apply Alike.of_modify
  intro l L
  refine ⟨⟨L.asked hs hd fun o ho => ?_, L.disciplined⟩, ?_, fun o ho => ?_⟩
  · rw [hg] at ho
    cases ho
  · show (Engine.standing (c :: l.calls) : Multiset Stand) = X
    rw [standing_cons hd, hg, L.standing]
    exact zero_add X
  · rcases mem_filterMap_cons.1 ho with ho | ho
    · rw [hg] at ho
      cases ho
    · exact L.issued o ho

theorem receive_keeps (given : Bool) : Keeps (Stands X) (receive k given)
    fun object l => object.isSome = given ∧ Received X k object l := by
  apply Alike.keeps
  intro l L
  cases given with
  | false => exact ⟨rfl, L, nofun, nofun, nofun⟩
  | true =>
    refine ⟨rfl, ⟨L.disciplined, L.standing, fun o ho => ?_⟩, ?_, ?_, ?_⟩
    · exact (L.issued o ho).trans (Tally.count_le_add _ _ _)
    · rintro _ ⟨rfl⟩
      rfl
    · rintro _ ⟨rfl⟩ ho
      have := L.issued _ ho
      rw [Tally.count_add_self] at this
      exact absurd this (Nat.not_succ_le_self _)
    · rintro _ ⟨rfl⟩
      exact le_rfl

theorem record_received {object : Option Object} (hg : c.given? = object)
    (hd : c.entry.destroys = false) (hs : Asked X c.subject) :
    Keeps (Received X k object) (record c) fun _ => Got k c.subject.join X object := by
  apply Alike.of_modify
  intro l ⟨L, kind, fresh, issued⟩
  cases object with
  | none => exact (record_keeps hg hd hs).post L
  | some o =>
    have disciplined := L.asked hs hd fun o' ho' => fresh o' (hg.symm.trans ho')
    refine ⟨⟨kind o rfl, fun e he => ?_⟩, ⟨disciplined, L.disciplined⟩, ?_, fun o' ho' => ?_⟩
    · intro ho
      refine fresh o rfl ?_
      rcases Multiset.mem_cons.1 he with rfl | he
      · exact mem_handed_of_subject disciplined (Option.join_eq_some_iff.1 ho)
      · exact L.disciplined.from_handed (L.mem_standing.2 he) ho
    · show (Engine.standing (c :: l.calls) : Multiset Stand) = _
      rw [standing_cons hd, hg, L.standing]
      exact Multiset.singleton_add _ X
    · rcases mem_filterMap_cons.1 ho' with ho' | ho'
      · exact issued o' (hg.symm.trans ho')
      · exact L.issued o' ho'

theorem handOut_keeps (handing : Handing) (hd : entry.destroys = false) (hs : Asked X subject) :
    Keeps (Stands X) (handOut entry k handing subject details)
      fun object l => object.isSome = handing.given ∧ Got k subject.join X object l := by
  refine (receive_keeps handing.given).bind fun object => Alike.assume fun given => ?_
  refine Alike.bind (q := fun _ => Got k subject.join X object) (record_received rfl hd hs)
    fun _ => Alike.of_pure fun _ got => ⟨given, got⟩

theorem destroy_keeps (entry : Entry) (hd : entry.destroys = true)
    (ho : Childless o ((o, parent) ::ₘ X)) :
    Keeps (Stands ((o, parent) ::ₘ X)) (destroy entry (some o)) fun _ => Stands X := by
  refine Leaves.bind (Alike.of_modify ?_) fun _ =>
    Alike.of_modify ?_
  · exact fun l L => ⟨L.disciplined, L.standing, L.issued⟩
  · intro l L
    have destroyed : Call.destroyed? { entry, subject := some (some o) } = some o := by
      rw [Call.destroyed?, hd]
      rfl
    have here : (o, parent) ∈ Engine.standing l.calls :=
      L.mem_standing.2 (Multiset.mem_cons_self _ _)
    -- It stands, so it has not been destroyed before, and nothing stands on it.
    refine ⟨⟨⟨nofun, ?_, nofun, ?_, ?_⟩, L.disciplined⟩, ?_, fun o' ho' => ?_⟩
    · rintro _ ⟨rfl⟩
      exact List.mem_map_of_mem here
    · intro o' ho'
      obtain rfl := Option.some.inj (destroyed.symm.trans ho')
      exact L.disciplined.not_destroyed here
    · intro o' ho' e he
      obtain rfl := Option.some.inj (destroyed.symm.trans ho')
      exact ho e (L.mem_standing.1 he)
    · show (((Engine.standing l.calls).filter fun e =>
        Call.destroyed? { entry, subject := some (some o) } ≠ some e.1 : List Stand) :
          Multiset Stand) = X
      rw [destroyed, ← Multiset.filter_coe, L.standing, Multiset.filter_cons_of_neg _ (by simp)]
      refine Multiset.filter_eq_self.2 fun e he same => L.notMem ?_
      exact Multiset.mem_map.2 ⟨e, he, (Option.some.inj same).symm⟩
    · rcases mem_filterMap_cons.1 ho' with ho' | ho'
      · cases ho'
      · exact L.issued o' ho'

theorem destroy_missing_keeps :
    Leaves X (destroy .valueDestroy none) := by
  refine Leaves.bind (Alike.of_modify fun l L =>
    ⟨L.disciplined, L.standing, L.issued⟩) fun _ => Alike.of_modify fun l L => ?_
  refine ⟨⟨⟨nofun, nofun, fun _ => rfl, nofun, nofun⟩, L.disciplined⟩, ?_, fun o ho => ?_⟩
  · refine Eq.trans ?_ L.standing
    exact congrArg _ (List.filter_eq_self.2 fun _ _ => rfl)
  · rcases mem_filterMap_cons.1 ho with ho | ho
    · cases ho
    · exact L.issued o ho

theorem takeBytes_keeps {string : Option Object} {bytes : Option Utf8.Octets}
    (h : string.isSome = bytes.isSome) :
    Keeps (Got .string parent X string) (takeBytes string bytes) fun _ => Stands X := by
  match string, bytes with
  | none, none => exact Alike.still
  | some o, some bytes =>
    refine Alike.assume fun ⟨_, childless⟩ => ?_
    exact (destroy_keeps _ rfl childless).bind fun _ => Alike.still

theorem takeName_keeps (naming : Naming) (hd : entry.destroys = false) (ho : o ∈ X.map Prod.fst) :
    Leaves X (takeName entry naming (some o) details) := by
  refine Alike.bind (handOut_keeps _ hd ho) fun string => Alike.assume fun given => ?_
  exact takeBytes_keeps given

theorem takeText_keeps (bytes : Option Utf8.Octets) (hd : entry.destroys = false)
    (ho : o ∈ X.map Prod.fst) :
    Leaves X (takeText entry bytes (some o)) := by
  refine (receive_keeps bytes.isSome).bind fun string => Alike.assume fun given => ?_
  exact Alike.bind (record_received rfl hd ho) fun _ => takeBytes_keeps given

end Ledger

end QueryLease.Engine

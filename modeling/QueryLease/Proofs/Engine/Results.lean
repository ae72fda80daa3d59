import QueryLease.Engine.Result
import QueryLease.Proofs.Engine.Decoding

namespace QueryLease.Engine

def HonestColumns (column : Nat → Nat → Handing × Answers) : Prop :=
  ∀ now n, (column now n).1.Honest ∧
    ((column now n).1.status = .success → (column now n).2.Honest)

def Turn.Honest : Turn → Prop
  | .pause => True
  | .row handing column =>
    handing.Honest ∧ (handing.status = .success → HonestColumns column)

namespace Result

open Ledger

structure Honest (r : Result) : Prop where
  kind : r.object.kind = .result
  turns : ∀ turn ∈ r.turns, turn.Honest
  tuple : ∀ t, r.tuple = some t → ∃ o, t.object = some o ∧ o.kind = .tuple ∧ HonestColumns t.column

def onTuple (r : Result) : Multiset Stand :=
  match r.tuple.bind (·.object) with
  | none => 0
  | some o => {(o, some r.object)}

def stands (c : Object) (r : Result) : Multiset Stand := (r.object, some c) ::ₘ r.onTuple

def Untupled (X : Multiset Stand) : Prop := ∀ e ∈ X, ∀ o, e.2 = some o → o.kind ≠ .tuple

variable {X : Multiset Stand} {r : Result} {c o : Object}

theorem columnNames_keeps (i : Nat) (columns : List Naming) (ho : o ∈ X.map Prod.fst) :
    Leaves X (columnNames o i columns) := by
  induction columns generalizing i with
  | nil => exact Alike.still
  | cons naming rest ih =>
    refine Leaves.bind (takeName_keeps naming rfl ho) fun bytes => ?_
    split
    · exact Alike.still
    · exact (ih (i + 1)).bind fun _ => Alike.still

theorem succeeded_keeps (answers : ResultAnswers) (ho : o ∈ X.map Prod.fst) :
    Leaves X (succeeded o answers) := by
  unfold succeeded
  cases answers.handing.status with
  | failure => exact Alike.still
  | success => exact Leaves.bind (record_keeps rfl rfl ho) fun _ => Alike.still

def Outcome (c : Object) (X : Multiset Stand) :
    Except Fault (Result × List String) → Ledger → Prop
  | .error _, l => Stands X l
  | .ok (r, _), l => r.Honest ∧ Stands (r.stands c + X) l

theorem ofGiven_keeps {answers : ResultAnswers} (honest : ∀ turn ∈ answers.turns, turn.Honest)
    (kind : o.kind = .result) (childless : Childless o ((o, some c) ::ₘ X)) :
    Keeps (Stands ((o, some c) ::ₘ X)) (ofGiven o answers) (Outcome c X) := by
  have destroyed := destroy_keeps .resultDestroy rfl childless
  refine Leaves.bind (succeeded_keeps answers mem_self) fun succeeded => ?_
  cases succeeded with
  | true =>
    refine Leaves.bind (record_keeps rfl rfl mem_self)
      fun _ => ?_
    refine Leaves.bind (columnNames_keeps 0 _ mem_self) fun columns => ?_
    cases columns with
    | error f => exact destroyed.bind fun _ => Alike.still
    | ok columns =>
      refine Alike.of_pure fun l L => ⟨⟨kind, honest, nofun⟩, ?_⟩
      rw [stands, Multiset.cons_add]
      exact (zero_add X).symm ▸ L
  | false =>
    refine Leaves.bind (takeText_keeps _ rfl mem_self) fun message => ?_
    exact destroyed.bind fun _ => Alike.still

theorem ofAnswers_keeps {answers : ResultAnswers} (honest : ∀ turn ∈ answers.turns, turn.Honest)
    (hc : c ∈ X.map Prod.fst) : Keeps (Stands X) (ofAnswers c answers) (Outcome c X) := by
  refine Alike.bind (handOut_keeps _ rfl hc) fun object => Alike.assume fun given => ?_
  cases object with
  | none =>
    cases answers.handing.status with
    | failure => exact Alike.still
    | success => exact Alike.still
  | some o => exact Alike.assume fun ⟨kind, childless⟩ => ofGiven_keeps honest kind childless

theorem onTuple_none (h : r.tuple = none) : r.onTuple = 0 := by
  rw [onTuple, h]
  rfl

theorem onTuple_some {t : Tuple} (h : r.tuple = some t) (ho : t.object = some o) :
    r.onTuple = {(o, some r.object)} := by
  rw [onTuple, h, Option.bind_some, ho]

theorem parent_of_mem_onTuple {e : Stand} (he : e ∈ r.onTuple) : e.2 = some r.object := by
  unfold onTuple at he
  split at he
  · exact absurd he (Multiset.notMem_zero _)
  · rw [Multiset.mem_singleton.1 he]

theorem dropTuple_keeps (hr : r.Honest) (hc : c.kind = .connection) (hX : Untupled X) :
    Keeps (Stands (r.stands c + X)) r.dropTuple fun _ => Stands ((r.object, some c) ::ₘ X) := by
  rw [stands, Multiset.cons_add, dropTuple]
  cases ht : r.tuple with
  | none =>
    rw [onTuple_none ht, zero_add]
    exact Alike.still
  | some t =>
    obtain ⟨o, ho, kind, -⟩ := hr.tuple t ht
    rw [onTuple_some ht ho, Multiset.singleton_add, Multiset.cons_swap]
    show Keeps _ (destroy .tupleDestroy t.object) _
    rw [ho]
    refine destroy_keeps _ rfl (Childless.cons (Childless.cons (fun e he same => ?_) ?_) ?_)
    · exact hX e he o same kind
    · rintro ⟨rfl⟩
      cases kind.symm.trans hc
    · rintro ⟨rfl⟩
      cases kind.symm.trans hr.kind

theorem fetch_keeps (hr : r.Honest) (hc : c.kind = .connection) (hX : Untupled X) :
    Keeps (Stands (r.stands c + X)) r.fetch fun fetched l =>
      (fetched.2.Honest ∧ fetched.2.object = r.object) ∧ Stands (fetched.2.stands c + X) l := by
  have left {turns : List Turn} (ht : ∀ turn ∈ turns, turn.Honest) (l : Ledger)
      (L : Stands ((r.object, some c) ::ₘ X) l) :
      (({ r with tuple := none, turns } : Result).Honest ∧ r.object = r.object) ∧
        Stands (({ r with tuple := none, turns } : Result).stands c + X) l := by
    refine ⟨⟨⟨hr.kind, ht, nofun⟩, rfl⟩, ?_⟩
    rw [stands, Multiset.cons_add]
    exact (zero_add X).symm ▸ L
  -- The tuple goes before anything is asked, so a result never has two.
  refine (dropTuple_keeps hr hc hX).bind fun _ => ?_
  have asked (b : Bool) : Leaves ((r.object, some c) ::ₘ X) (r.hasNext b) :=
    record_keeps rfl rfl mem_self
  cases ht : r.turns with
  | nil => exact (asked false).bind fun _ => Alike.of_pure (left (ht ▸ hr.turns))
  | cons turn turns =>
    obtain ⟨honest, rest⟩ := List.forall_mem_cons.1 (ht ▸ hr.turns)
    cases turn with
    | pause => exact (asked false).bind fun _ => Alike.of_pure (left rest)
    | row handing column =>
      refine (asked true).bind fun _ => ?_
      refine Alike.bind (handOut_keeps handing rfl mem_self) fun object => ?_
      refine Alike.assume fun given => ?_
      cases hs : handing.status with
      | success =>
        obtain ⟨o, rfl⟩ := Option.isSome_iff_exists.1 (given.trans (honest.1 hs))
        refine Alike.assume fun ⟨kind, _⟩ => Alike.of_pure fun l L => ?_
        refine ⟨⟨⟨hr.kind, rest, ?_⟩, rfl⟩, ?_⟩
        · rintro _ ⟨rfl⟩
          exact ⟨o, rfl, kind, honest.2 hs⟩
        · rw [stands, onTuple_some rfl rfl, Multiset.cons_add, Multiset.singleton_add,
            Multiset.cons_swap]
          exact L
      | failure =>
        cases object with
        | none => exact Alike.of_pure (left rest)
        | some o =>
          refine Alike.assume fun ⟨_, childless⟩ => ?_
          exact (destroy_keeps _ rfl childless).bind fun _ => Alike.of_pure (left rest)

theorem read_keeps (hr : r.Honest) (row column : Nat) :
    Leaves (r.stands c + X) (r.read row column) := by
  unfold Result.read
  cases ht : r.tuple? row with
  | none => exact Alike.still
  | some t =>
    obtain ⟨o, ho, -, honest⟩ := hr.tuple t (Option.filter_eq_some_iff.1 ht).1
    have here : o ∈ (r.stands c + X).map Prod.fst := by
      rw [stands, onTuple_some (Option.filter_eq_some_iff.1 ht).1 ho, Multiset.cons_add,
        Multiset.singleton_add, Multiset.cons_swap]
      exact mem_self
    apply Alike.get_bind
    intro l L
    obtain ⟨handed, copied⟩ := honest l.now column
    rw [ho]
    refine Alike.weaken (withValue_keeps rfl here handed fun success o =>
      decode_keeps (copied success) mem_self) (fun _ e => e ▸ L) fun _ _ => id

theorem dispose_keeps (hr : r.Honest) (hc : c.kind = .connection) (hX : Untupled X)
    (ho : Childless r.object X) :
    Keeps (Stands (r.stands c + X)) r.dispose fun _ => Stands X := by
  refine (dropTuple_keeps hr hc hX).bind fun _ => ?_
  refine destroy_keeps _ rfl (ho.cons ?_)
  rintro ⟨rfl⟩
  cases hr.kind.symm.trans hc

end Result

end QueryLease.Engine

import QueryLease.Engine.Decode
import QueryLease.Proofs.Engine.Stands

namespace QueryLease.Engine

def Handing.Honest (h : Handing) : Prop := h.status = .success → h.given = true

def Handing.Exact (h : Handing) : Prop := h.given = true ↔ h.status = .success

/-- Answers about a value. Those about a part are of no account unless the part is got. -/
inductive Answers.Honest : Answers → Prop
  | null : Honest .null
  | untyped : Honest (.untyped false)
  | plain (type : UInt32) (payload : Payload) : Honest (.plain type true payload)
  | items (type : UInt32) {items : List (Handing × Answers)} :
    (∀ e ∈ items, e.1.Honest) → (∀ e ∈ items, e.1.status = .success → Honest e.2) →
      Honest (.items type true items)
  | fields (type : UInt32) {fields : List ((Naming × Handing) × Answers)} :
    (∀ e ∈ fields, e.1.2.Honest) → (∀ e ∈ fields, e.1.2.status = .success → Honest e.2) →
      Honest (.fields type true fields)

namespace Ledger

variable {X : Multiset Stand} {v : Object} {entry : Entry}

theorem get_keeps {α : Type} (found : Option α) (keep : α → Except Fault Cell)
    (hd : entry.destroys = false) (hv : v ∈ X.map Prod.fst) :
    Leaves X (get entry (some v) found keep) := by
  cases found with
  | none => exact Leaves.bind (record_keeps rfl hd hv) fun _ => Alike.still
  | some a => exact Leaves.bind (record_keeps rfl hd hv) fun _ => Alike.still

theorem typeOf_keeps (id : UInt32) (hv : v ∈ X.map Prod.fst) :
    Leaves X (typeOf (some v) id true) := by
  refine Alike.bind (handOut_keeps _ rfl hv) fun type => Alike.assume fun given => ?_
  match type with
  | some o =>
    refine Alike.assume fun ⟨_, childless⟩ => ?_
    refine Leaves.bind (record_keeps rfl rfl ?_) fun _ =>
      destroy_keeps _ rfl childless
    exact mem_self

theorem decodePlain_keeps (shape : Shape) (payload : Payload) (hv : v ∈ X.map Prod.fst) :
    Leaves X (decodePlain (some v) shape payload) := by
  cases shape with
  | bool => exact get_keeps _ _ rfl hv
  | integer w => exact get_keeps _ _ (by cases w <;> rfl) hv
  | single => exact get_keeps _ _ rfl hv
  | double => exact get_keeps _ _ rfl hv
  | string => exact Leaves.bind (takeName_keeps _ rfl hv) fun _ => Alike.still
  | items => exact get_keeps none Empty.elim rfl hv
  | fields => exact get_keeps none Empty.elim rfl hv
  | other => exact Leaves.bind (takeText_keeps _ rfl hv) fun _ => Alike.still

theorem withValue_keeps {handing : Handing} {details : List String}
    {copy : Option Object → LedgerM (Except Fault Cell)} (hd : entry.destroys = false)
    (hv : v ∈ X.map Prod.fst) (honest : handing.Honest)
    (hc : handing.status = .success → ∀ o, Leaves ((o, some v) ::ₘ X) (copy (some o))) :
    Leaves X (withValue entry (some v) details handing copy) := by
  refine Alike.bind (handOut_keeps _ hd hv) fun value => Alike.assume fun given => ?_
  match value with
  | none =>
    have refused : handing.status = .failure := by
      cases hs : handing.status with
      | failure => rfl
      | success => exact absurd (given.trans (honest hs)) nofun
    rw [refused]
    refine Leaves.bind Alike.still fun _ => ?_
    exact destroy_missing_keeps.bind fun _ => Alike.still
  | some o =>
    refine Alike.assume fun ⟨_, childless⟩ => ?_
    have destroyed := destroy_keeps .valueDestroy rfl childless
    cases hs : handing.status with
    | failure =>
      refine Leaves.bind Alike.still fun _ => ?_
      exact destroyed.bind fun _ => Alike.still
    | success =>
      refine Leaves.bind (hc hs o) fun _ => ?_
      exact destroyed.bind fun _ => Alike.still

mutual

theorem decode_keeps : ∀ {answers : Answers}, answers.Honest → ∀ {X : Multiset Stand} {v : Object},
    v ∈ X.map Prod.fst → Leaves X (decode (some v) answers)
  | .null, _, _, _, hv => Leaves.bind (record_keeps rfl rfl hv) fun _ => Alike.still
  | .untyped _, .untyped, X, v, hv => by
    refine Leaves.bind (record_keeps rfl rfl hv) fun _ => ?_
    refine Alike.bind (Alike.discard ?_) fun _ => Alike.still
    refine Alike.weaken (handOut_keeps _ rfl hv) (fun _ => id) fun type l ⟨given, got⟩ => ?_
    cases type with
    | none => exact got
    | some o => cases given
  | .plain type _ payload, .plain _ _, X, v, hv =>
    Leaves.bind (record_keeps rfl rfl hv) fun _ =>
      Leaves.bind (typeOf_keeps type hv) fun _ => decodePlain_keeps _ payload hv
  | .items type _ items, .items _ hs ha, X, v, hv => by
    refine Leaves.bind (record_keeps rfl rfl hv) fun _ => ?_
    refine Leaves.bind (typeOf_keeps type hv) fun _ => ?_
    split
    · refine Leaves.bind (record_keeps rfl rfl hv) fun _ => ?_
      exact Leaves.bind (decodeItems_keeps hs ha 0 hv) fun _ => Alike.still
    · exact decodePlain_keeps _ _ hv
  | .fields type _ fields, .fields _ hs ha, X, v, hv => by
    refine Leaves.bind (record_keeps rfl rfl hv) fun _ => ?_
    refine Leaves.bind (typeOf_keeps type hv) fun _ => ?_
    split
    · refine Leaves.bind (record_keeps rfl rfl hv) fun _ => ?_
      exact Leaves.bind (decodeFields_keeps hs ha 0 hv) fun _ => Alike.still
    · exact decodePlain_keeps _ _ hv

theorem decodeItems_keeps : ∀ {items : List (Handing × Answers)}, (∀ e ∈ items, e.1.Honest) →
    (∀ e ∈ items, e.1.status = .success → e.2.Honest) →
    ∀ {X : Multiset Stand} {v : Object} (i : Nat), v ∈ X.map Prod.fst →
    Leaves X (decodeItems (some v) i items)
  | [], _, _, _, _, _, _ => Alike.still
  | (handing, answers) :: rest, hs, ha, X, v, i, hv => by
    obtain ⟨honest, hs⟩ := List.forall_mem_cons.1 hs
    obtain ⟨copied, ha⟩ := List.forall_mem_cons.1 ha
    refine Leaves.bind (withValue_keeps rfl hv honest fun success o =>
      decode_keeps (copied success) mem_self) fun cell => ?_
    cases cell with
    | error f => exact Alike.still
    | ok cell => exact Leaves.bind (decodeItems_keeps hs ha (i + 1) hv) fun _ => Alike.still

theorem decodeFields_keeps : ∀ {fields : List ((Naming × Handing) × Answers)},
    (∀ e ∈ fields, e.1.2.Honest) → (∀ e ∈ fields, e.1.2.status = .success → e.2.Honest) →
    ∀ {X : Multiset Stand} {v : Object} (i : Nat), v ∈ X.map Prod.fst →
    Leaves X (decodeFields (some v) i fields)
  | [], _, _, _, _, _, _ => Alike.still
  | ((naming, handing), answers) :: rest, hs, ha, X, v, i, hv => by
    obtain ⟨honest, hs⟩ := List.forall_mem_cons.1 hs
    obtain ⟨copied, ha⟩ := List.forall_mem_cons.1 ha
    refine Leaves.bind (takeName_keeps naming rfl hv) fun name => ?_
    cases naming.status with
    | failure => exact Alike.still
    | success =>
      refine Leaves.bind (withValue_keeps rfl hv honest fun success o =>
        decode_keeps (copied success) mem_self) fun cell => ?_
      cases cell with
      | error f => exact Alike.still
      | ok cell =>
        exact Leaves.bind (decodeFields_keeps hs ha (i + 1) hv) fun _ => Alike.still

end

end Ledger

end QueryLease.Engine

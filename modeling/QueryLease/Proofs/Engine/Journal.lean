import QueryLease.Engine.Result
import QueryLease.Proofs.Alike

namespace QueryLease.Engine.Ledger

variable {α β : Type} {calls : List Call}

def Extends (calls : List Call) (l : Ledger) : Prop := calls <:+ l.calls

abbrev Grows (calls : List Call) (x : LedgerM α) : Prop :=
  Keeps (Extends calls) x fun _ => Extends calls

theorem Grows.andThen {x : LedgerM α} {f : α → LedgerM β} (hx : Grows calls x)
    (hf : ∀ a, Grows calls (f a)) : Grows calls (x >>= f) := Alike.bind hx hf

theorem Grows.pure (a : α) : Grows calls (Pure.pure a) := Alike.still

variable {call : Call} {kind : Kind} {given : Bool} {entry : Entry} {handing : Handing}
  {object : Option Object} {subject : Option (Option Object)} {details : List String}

theorem grows_record : Grows calls (record call) :=
  Alike.of_modify fun _ hl => hl.trans (List.suffix_cons call _)

theorem grows_receive : Grows calls (receive kind given) := by
  cases given <;> exact Alike.keeps fun _ => id

theorem grows_handOut : Grows calls (handOut entry kind handing subject details) :=
  grows_receive.andThen fun _ => grows_record.andThen fun _ => Grows.pure _

theorem grows_destroy : Grows calls (destroy entry object) :=
  Grows.andThen (Alike.of_modify fun _ => id) fun _ => grows_record

theorem grows_takeBytes {bytes : Option Utf8.Octets} : Grows calls (takeBytes object bytes) := by
  unfold takeBytes
  split
  · exact grows_destroy.andThen fun _ => Grows.pure _
  · exact Grows.pure _

theorem grows_takeName {naming : Naming} : Grows calls (takeName entry naming object details) :=
  grows_handOut.andThen fun _ => grows_takeBytes

theorem grows_takeText {bytes : Option Utf8.Octets} : Grows calls (takeText entry bytes object) :=
  grows_receive.andThen fun _ => grows_record.andThen fun _ => grows_takeBytes

theorem grows_get {found : Option α} {keep : α → Except Fault Cell} :
    Grows calls (get entry object found keep) := by
  cases found <;> exact grows_record.andThen fun _ => Grows.pure _

theorem grows_typeOf {id : UInt32} : Grows calls (typeOf object id given) :=
  grows_handOut.andThen fun _ => grows_record.andThen fun _ => grows_destroy

theorem grows_decodePlain {shape : Shape} {payload : Payload} :
    Grows calls (decodePlain object shape payload) := by
  cases shape with
  | string => exact grows_takeName.andThen fun _ => Grows.pure _
  | other => exact grows_takeText.andThen fun _ => Grows.pure _
  | bool | integer w | single | double => exact grows_get
  | items | fields => exact grows_record.andThen fun _ => Grows.pure _

def asking (entry : Entry) (object : Option Object) (details : List String) (handing : Handing)
    (value : Option Object) : Call :=
  { entry, subject := some object, details, reply := .handed handing.status value }

theorem handOut_asks (l : Ledger) :
    Keeps (· = l) (handOut entry kind handing (some object) details) fun value =>
      Extends (asking entry object details handing value :: l.calls) := by
  rintro _ rfl
  refine ⟨rfl, ?_⟩
  obtain ⟨status, given⟩ := handing
  cases given <;> exact List.suffix_rfl

theorem withValue_extends {P : Ledger → Prop} {later : Option Object → List Call}
    {copy : Option Object → LedgerM (Except Fault Cell)}
    (asks : Keeps P (handOut entry .value handing (some object) details) fun v =>
      Extends (later v)) (hc : ∀ v, Grows (later v) (copy v)) :
    Keeps P (withValue entry object details handing copy) fun _ l => ∃ v, Extends (later v) l := by
  refine asks.bind fun v => ?_
  have destroyed (cell : Except Fault Cell) : Grows (later v) do
      destroy .valueDestroy v
      return cell := grows_destroy.andThen fun _ => Grows.pure _
  refine Alike.weaken ?_ (fun _ => id) fun _ _ h => ⟨v, h⟩
  cases handing.status with
  | failure => exact destroyed _
  | success => exact (hc v).andThen destroyed

theorem grows_withValue {copy : Option Object → LedgerM (Except Fault Cell)}
    (hc : ∀ v, Grows calls (copy v)) : Grows calls (withValue entry object details handing copy) :=
  (withValue_extends grows_handOut hc).weaken (fun _ => id) fun _ _ h => h.elim fun _ => id

mutual

theorem grows_decode (v : Option Object) : ∀ answers : Answers, Grows calls (decode v answers)
  | .null => grows_record.andThen fun _ => Grows.pure _
  | .untyped _ => grows_record.andThen fun _ =>
    Grows.andThen (Alike.discard grows_handOut) fun _ => Grows.pure _
  | .plain _ _ _ => grows_record.andThen fun _ => grows_typeOf.andThen fun _ => grows_decodePlain
  | .items _ _ items => by
    refine grows_record.andThen fun _ => grows_typeOf.andThen fun _ => ?_
    split
    · exact grows_record.andThen fun _ =>
        (grows_decodeItems v 0 items).andThen fun _ => Grows.pure _
    · exact grows_decodePlain
  | .fields _ _ fields => by
    refine grows_record.andThen fun _ => grows_typeOf.andThen fun _ => ?_
    split
    · exact grows_record.andThen fun _ =>
        (grows_decodeFields v 0 fields).andThen fun _ => Grows.pure _
    · exact grows_decodePlain

theorem grows_decodeItems (v : Option Object) :
    ∀ (i : Nat) (items : List (Handing × Answers)), Grows calls (decodeItems v i items)
  | _, [] => Grows.pure _
  | i, (_, answers) :: rest => by
    refine (grows_withValue fun v => grows_decode v answers).andThen fun cell => ?_
    cases cell with
    | error f => exact Grows.pure _
    | ok cell => exact (grows_decodeItems v (i + 1) rest).andThen fun _ => Grows.pure _

theorem grows_decodeFields (v : Option Object) :
    ∀ (i : Nat) (fields : List ((Naming × Handing) × Answers)),
      Grows calls (decodeFields v i fields)
  | _, [] => Grows.pure _
  | i, ((naming, _), answers) :: rest => by
    refine grows_takeName.andThen fun name => ?_
    cases naming.status with
    | failure => exact Grows.pure _
    | success =>
      refine (grows_withValue fun v => grows_decode v answers).andThen fun cell => ?_
      cases cell with
      | error f => exact Grows.pure _
      | ok cell => exact (grows_decodeFields v (i + 1) rest).andThen fun _ => Grows.pure _

end

theorem withValue_asks (answers : Answers) (l : Ledger) : ∃ value,
    Extends (asking entry object details handing value :: l.calls)
      ((withValue entry object details handing (decode · answers)).run l).2 :=
  (withValue_extends (handOut_asks l) fun v => grows_decode v answers).post rfl

end QueryLease.Engine.Ledger

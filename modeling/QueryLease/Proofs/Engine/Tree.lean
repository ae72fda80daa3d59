import Mathlib.Data.List.Forall2
import QueryLease.Engine.Decode
import QueryLease.Proofs.Number.Widening

/-! What an engine has and what it answers. It has trees of typed values. It answers about a value
according to its tree, except that it may refuse calls; `Told` says which answers those are. -/

namespace QueryLease.Engine

structure CString where
  bytes : Utf8.Octets
  free : 0 ∉ bytes

inductive Integral where
  | int8
  | int16
  | int32
  | int64
  | serial
  | uint8
  | uint16
  | uint32

namespace Integral

def type : Integral → UInt32
  | int8 => 26
  | int16 => 25
  | int32 => 24
  | int64 => 23
  | serial => 13
  | uint8 => 30
  | uint16 => 29
  | uint32 => 28

def getter : Integral → Entry
  | int8 => .valueGetInt8
  | int16 => .valueGetInt16
  | int32 => .valueGetInt32
  | int64 | serial => .valueGetInt64
  | uint8 => .valueGetUInt8
  | uint16 => .valueGetUInt16
  | uint32 => .valueGetUInt32

def Holds (i : Int) : Integral → Prop
  | int8 => -2 ^ 7 ≤ i ∧ i < 2 ^ 7
  | int16 => -2 ^ 15 ≤ i ∧ i < 2 ^ 15
  | int32 => -2 ^ 31 ≤ i ∧ i < 2 ^ 31
  | int64 | serial => -2 ^ 63 ≤ i ∧ i < 2 ^ 63
  | uint8 => 0 ≤ i ∧ i < 2 ^ 8
  | uint16 => 0 ≤ i ∧ i < 2 ^ 16
  | uint32 => 0 ≤ i ∧ i < 2 ^ 32

def width : Integral → Width
  | int8 => .int8
  | int16 => .int16
  | int32 => .int32
  | int64 | serial => .int64
  | uint8 => .uint8
  | uint16 => .uint16
  | uint32 => .uint32

variable {i : Int}

theorem entry_width (kind : Integral) : kind.width.entry = kind.getter := by cases kind <;> rfl

theorem shape_type (kind : Integral) : Shape.ofType kind.type = .integer kind.width := by
  cases kind <;> rfl

theorem holds_width (kind : Integral) (h : kind.Holds i) : kind.width.holds i = true := by
  cases kind <;> exact (Bool.and_eq_true _ _).mpr ⟨decide_eq_true h.1, decide_eq_true h.2⟩

theorem fits (kind : Integral) (h : kind.Holds i) : -2 ^ 63 ≤ i ∧ i < 2 ^ 63 := by
  cases kind <;> simp only [Holds] at h <;> omega

instance : (kind : Integral) → Decidable (kind.Holds i)
  | int8 | int16 | int32 | int64 | serial | uint8 | uint16 | uint32 =>
    inferInstanceAs (Decidable (_ ∧ _))

end Integral

def ownGetter : List UInt32 :=
  [10, 11, 13, 22, 23, 24, 25, 26, 27, 28, 29, 30, 32, 33, 50, 52, 53, 54, 55]

theorem shape_textual {type : UInt32} (h : type ∉ ownGetter) : Shape.ofType type = .other := by
  simp only [ownGetter, List.mem_cons, List.not_mem_nil, or_false, not_or, ← UInt32.toNat_inj] at h
  unfold Shape.ofType
  split <;> simp_all

inductive Scalar where
  | bool (b : Bool)
  | integer (kind : Integral) (i : Int) (holds : kind.Holds i)
  | uint64 (n : UInt64)
  | single (x : Binary32)
  | double (x : Binary64)

namespace Scalar

def type : Scalar → UInt32
  | bool _ => 22
  | integer kind _ _ => kind.type
  | uint64 _ => 27
  | single _ => 33
  | double _ => 32

def getter : Scalar → Entry
  | bool _ => .valueGetBool
  | integer kind _ _ => kind.getter
  | uint64 _ => .valueGetUInt64
  | single _ => .valueGetFloat
  | double _ => .valueGetDouble

def payload : Scalar → Payload
  | bool b => .bool b
  | integer _ i _ => .integer i
  | uint64 n => .integer n.toNat
  | single x => .single x
  | double x => .double x

def uint64s : Scalar → List UInt64
  | uint64 n => [n]
  | _ => []

inductive Mirrors : Scalar → Cell → Prop
  | bool {b : Bool} : Mirrors (.bool b) (.bool b)
  | integer {kind : Integral} {i : Int} {holds : kind.Holds i} {n : Int64} :
    n.toInt = i → Mirrors (.integer kind i holds) (.integer n)
  | uint64 {n : UInt64} {m : Int64} : m.toInt = n.toNat → Mirrors (.uint64 n) (.integer m)
  | single {x : Binary32} {y : Binary64} : y.value = x.value → Mirrors (.single x) (.float y)
  | double {x : Binary64} : Mirrors (.double x) (.float x)

end Scalar

inductive Sequence where
  | list
  | array
  | map

def Sequence.type : Sequence → UInt32
  | list => 52
  | array => 53
  | map => 55

theorem Sequence.shape_type (kind : Sequence) : Shape.ofType kind.type = .items := by
  cases kind <;> rfl

inductive Composite where
  | struct
  | node
  | rel

def Composite.type : Composite → UInt32
  | struct => 54
  | node => 10
  | rel => 11

theorem Composite.shape_type (kind : Composite) : Shape.ofType kind.type = .fields := by
  cases kind <;> rfl

/-- A value as the engine has it. Of a type without a getter there is the engine's text. -/
inductive Tree where
  | null (type : UInt32)
  | scalar (s : Scalar)
  | string (s : CString)
  | other (type : UInt32) (textual : type ∉ ownGetter) (text : CString)
  | sequence (kind : Sequence) (elements : List Tree)
  | composite (kind : Composite) (fields : List (CString × Tree))

/-- The cell shows what the tree is, whatever the types. Parts correspond one to one, in order. -/
inductive Tree.Mirrors : Tree → Cell → Prop
  | null {type : UInt32} : Mirrors (.null type) .null
  | scalar {s : Scalar} {c : Cell} : s.Mirrors c → Mirrors (.scalar s) c
  | string {s : CString} : Mirrors (.string s) (.text s.bytes)
  | other {type : UInt32} {textual : type ∉ ownGetter} {text : CString} :
    Mirrors (.other type textual text) (.text text.bytes)
  | sequence {kind : Sequence} {elements : List Tree} {cells : List Cell} :
    List.Forall₂ Mirrors elements cells → Mirrors (.sequence kind elements) (.list cells)
  | composite {kind : Composite} {fields : List (CString × Tree)}
      {cells : List (Utf8.Octets × Cell)} :
    cells.map Prod.fst = fields.map (·.1.bytes) →
      List.Forall₂ Mirrors (fields.map Prod.snd) (cells.map Prod.snd) →
      Mirrors (.composite kind fields) (.struct cells)

abbrev Place := List Nat

inductive Step where
  | call (place : Place) (entry : Entry)
  | keep (n : UInt64)

abbrev Refusals := Place → Entry → Bool

def exceedsInt64 (n : UInt64) : Bool := 2 ^ 63 - 1 < n.toNat

namespace Step

def fails (refused : Refusals) : Step → Bool
  | call place entry => refused place entry
  | keep n => exceedsInt64 n

def fault : Step → Fault
  | call _ entry => .refused entry
  | keep n => .aboveInt64 n

end Step

namespace Tree

open Step

mutual

/-- The steps of reading a value, depth first and left to right. Asking whether it is null and
asking for its text cannot be refused. -/
def steps (place : Place) : Tree → List Step
  | null _ => []
  | scalar s => call place .valueGetDataType :: call place s.getter :: s.uint64s.map keep
  | string _ => [call place .valueGetDataType, call place .valueGetString]
  | other _ _ _ => [call place .valueGetDataType]
  | sequence _ elements =>
    call place .valueGetDataType :: call place .valueGetListSize :: elementSteps place 0 elements
  | composite _ fields =>
    call place .valueGetDataType :: call place .valueGetStructNumFields ::
      fieldSteps place 0 fields

def elementSteps (place : Place) (i : Nat) : List Tree → List Step
  | [] => []
  | t :: rest =>
    call (i :: place) .valueGetListElement :: steps (i :: place) t ++
      elementSteps place (i + 1) rest

def fieldSteps (place : Place) (i : Nat) : List (CString × Tree) → List Step
  | [] => []
  | (_, t) :: rest =>
    call (i :: place) .valueGetStructFieldName :: call (i :: place) .valueGetStructFieldValue ::
      steps (i :: place) t ++ fieldSteps place (i + 1) rest

end

theorem steps_typed (place : Place) {t : Tree} (value : ∀ type, t ≠ .null type) :
    ∃ rest, t.steps place = call place .valueGetDataType :: rest := by
  cases t with
  | null type => cases value type rfl
  | scalar | string | other | sequence | composite => exact ⟨_, by rw [steps]⟩

mutual

def uint64s : Tree → List UInt64
  | scalar s => s.uint64s
  | sequence _ elements => elementUInt64s elements
  | composite _ fields => fieldUInt64s fields
  | _ => []

def elementUInt64s : List Tree → List UInt64
  | [] => []
  | t :: rest => uint64s t ++ elementUInt64s rest

def fieldUInt64s : List (CString × Tree) → List UInt64
  | [] => []
  | (_, t) :: rest => uint64s t ++ fieldUInt64s rest

end

def freely : Step → Bool := Step.fails fun _ _ => false

theorem find_call (place : Place) (entry : Entry) (rest : List Step) :
    (call place entry :: rest).find? freely = rest.find? freely := rfl

theorem find_keep (numbers : List UInt64) :
    (numbers.map keep).find? freely = (numbers.find? exceedsInt64).map keep :=
  List.find?_map ..

mutual

theorem find_steps : ∀ (place : Place) (t : Tree),
    (t.steps place).find? freely = (t.uint64s.find? exceedsInt64).map keep
  | _, .null _ | _, .string _ | _, .other .. => rfl
  | _, .scalar s => find_keep s.uint64s
  | place, .sequence _ elements => find_elementSteps place 0 elements
  | place, .composite _ fields => find_fieldSteps place 0 fields

theorem find_elementSteps : ∀ (place : Place) (i : Nat) (elements : List Tree),
    (elementSteps place i elements).find? freely =
      ((elementUInt64s elements).find? exceedsInt64).map keep
  | _, _, [] => rfl
  | place, i, t :: rest => by
    rw [elementSteps, List.cons_append, find_call, List.find?_append, find_steps,
      find_elementSteps, elementUInt64s, List.find?_append, Option.map_or]

theorem find_fieldSteps : ∀ (place : Place) (i : Nat) (fields : List (CString × Tree)),
    (fieldSteps place i fields).find? freely =
      ((fieldUInt64s fields).find? exceedsInt64).map keep
  | _, _, [] => rfl
  | place, i, (_, t) :: rest => by
    rw [fieldSteps, List.cons_append, List.cons_append, find_call, find_call, List.find?_append,
      find_steps, find_fieldSteps, fieldUInt64s, List.find?_append, Option.map_or]

end

end Tree

def Payload.unless (refused : Bool) (payload : Payload) : Payload :=
  if refused then none else payload

def Status.Of (status : Status) (refused : Bool) : Prop := status = .failure ↔ refused = true

theorem Status.Of.passed {status : Status} {refused : Bool} (h : status.Of refused)
    (success : status = .success) : refused = false := by
  cases refused with
  | false => rfl
  | true => cases success.symm.trans (h.2 rfl)

mutual

/-- The engine answers about the value at a place according to its tree, except for the calls that
it refuses. It gives what it likes with a refusal, and about what is not got. -/
inductive Told (refused : Refusals) : Place → Tree → Answers → Prop
  | null {place : Place} {type : UInt32} : Told refused place (.null type) .null
  | untyped {place : Place} {t : Tree} {given : Bool} :
    (∀ type, t ≠ .null type) → refused place .valueGetDataType = true →
      Told refused place t (.untyped given)
  | scalar {place : Place} {s : Scalar} {given : Bool} :
    refused place .valueGetDataType = false →
      Told refused place (.scalar s)
        (.plain s.type given (.unless (refused place s.getter) s.payload))
  | string {place : Place} {s : CString} {given : Bool} {naming : Naming} :
    refused place .valueGetDataType = false →
      naming.status.Of (refused place .valueGetString) →
      (naming.status = .success → naming.bytes = some s.bytes) →
      Told refused place (.string s) (.plain 50 given (.text naming))
  | other {place : Place} {type : UInt32} {textual : type ∉ ownGetter} {text : CString}
      {given : Bool} {naming : Naming} :
    refused place .valueGetDataType = false → naming.bytes = some text.bytes →
      Told refused place (.other type textual text) (.plain type given (.text naming))
  | unsized {place : Place} {kind : Sequence} {elements : List Tree} {given : Bool} :
    refused place .valueGetDataType = false → refused place .valueGetListSize = true →
      Told refused place (.sequence kind elements) (.plain kind.type given .none)
  | sequence {place : Place} {kind : Sequence} {elements : List Tree} {given : Bool}
      {items : List (Handing × Answers)} :
    refused place .valueGetDataType = false → refused place .valueGetListSize = false →
      ToldElements refused place 0 elements items →
      Told refused place (.sequence kind elements) (.items kind.type given items)
  | uncounted {place : Place} {kind : Composite} {fields : List (CString × Tree)} {given : Bool} :
    refused place .valueGetDataType = false → refused place .valueGetStructNumFields = true →
      Told refused place (.composite kind fields) (.plain kind.type given .none)
  | composite {place : Place} {kind : Composite} {fields : List (CString × Tree)} {given : Bool}
      {items : List ((Naming × Handing) × Answers)} :
    refused place .valueGetDataType = false → refused place .valueGetStructNumFields = false →
      ToldFields refused place 0 fields items →
      Told refused place (.composite kind fields) (.fields kind.type given items)

inductive ToldElements (refused : Refusals) :
    Place → Nat → List Tree → List (Handing × Answers) → Prop
  | nil {place : Place} {i : Nat} : ToldElements refused place i [] []
  | cons {place : Place} {i : Nat} {t : Tree} {rest : List Tree} {handing : Handing}
      {answers : Answers} {items : List (Handing × Answers)} :
    handing.status.Of (refused (i :: place) .valueGetListElement) →
      (refused (i :: place) .valueGetListElement = false → Told refused (i :: place) t answers) →
      ToldElements refused place (i + 1) rest items →
      ToldElements refused place i (t :: rest) ((handing, answers) :: items)

inductive ToldFields (refused : Refusals) :
    Place → Nat → List (CString × Tree) → List ((Naming × Handing) × Answers) → Prop
  | nil {place : Place} {i : Nat} : ToldFields refused place i [] []
  | cons {place : Place} {i : Nat} {name : CString} {t : Tree} {rest : List (CString × Tree)}
      {naming : Naming} {handing : Handing} {answers : Answers}
      {items : List ((Naming × Handing) × Answers)} :
    naming.status.Of (refused (i :: place) .valueGetStructFieldName) →
      (naming.status = .success → naming.bytes = some name.bytes) →
      handing.status.Of (refused (i :: place) .valueGetStructFieldValue) →
      (refused (i :: place) .valueGetStructFieldValue = false →
        Told refused (i :: place) t answers) →
      ToldFields refused place (i + 1) rest items →
      ToldFields refused place i ((name, t) :: rest) (((naming, handing), answers) :: items)

end

end QueryLease.Engine

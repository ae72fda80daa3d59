import Mathlib.Data.List.TakeWhile
import QueryLease.Proofs.Engine.Tree
import QueryLease.Proofs.Pool.Freshness

namespace QueryLease.Engine

/-- What comes of reading: the failure of the first step that fails, or else what it should be. -/
structure Reads {α : Type} (refused : Refusals) (steps : List Step) (good : α → Prop)
    (outcome : Except Fault α) : Prop where
  error : ∀ s, steps.find? (·.fails refused) = some s → outcome = .error s.fault
  ok : steps.find? (·.fails refused) = none → ∃ a, outcome = .ok a ∧ good a

namespace Reads

variable {α β : Type} {refused : Refusals} {s : Step} {steps : List Step} {good : α → Prop}
  {outcome : Except Fault α}

theorem done {a : α} (h : good a) : Reads refused [] good (.ok a) := ⟨by simp, fun _ => ⟨a, rfl, h⟩⟩

theorem failed (h : s.fails refused = true) : Reads refused (s :: steps) good (.error s.fault) where
  error _ found := by
    rw [List.find?_cons_of_pos h] at found
    rw [Option.some.inj found]
  ok none := by simp [h] at none

theorem passed (h : s.fails refused = false) (read : Reads refused steps good outcome) :
    Reads refused (s :: steps) good outcome := by
  have same : (s :: steps).find? (·.fails refused) = steps.find? (·.fails refused) := by simp [h]
  exact ⟨by rw [same]; exact read.error, by rw [same]; exact read.ok⟩

theorem map {good' : β → Prop} {f : α → β} (read : Reads refused steps good outcome)
    (h : ∀ a, good a → good' (f a)) : Reads refused steps good' (f <$> outcome) where
  error s found := by
    rw [read.error s found]
    rfl
  ok none := by
    obtain ⟨a, rfl, ha⟩ := read.ok none
    exact ⟨f a, rfl, h a ha⟩

theorem mono {good' : α → Prop} (read : Reads refused steps good outcome)
    (h : ∀ a, good a → good' a) : Reads refused steps good' outcome :=
  ⟨read.error, fun none => (read.ok none).imp fun a found => ⟨found.1, h a found.2⟩⟩

end Reads

namespace Ledger

open Step

variable {α β : Type} {refused : Refusals} {place : Place} {entry : Entry} {steps later : List Step}
  {good : α → Prop} {good' : β → Prop} {v : Option Object}

abbrev Reading (refused : Refusals) (steps : List Step) (good : α → Prop)
    (x : LedgerM (Except Fault α)) : Prop := ∀ l, Reads refused steps good (x.run l).1

theorem Reading.bind {x : LedgerM (Except Fault α)}
    {f : Except Fault α → LedgerM (Except Fault β)} (hx : Reading refused steps good x)
    (failed : ∀ fault, f (.error fault) = pure (.error fault))
    (done : ∀ a, good a → Reading refused later good' (f (.ok a))) :
    Reading refused (steps ++ later) good' (x >>= f) := fun l => by
  have run : ((x >>= f).run l).1 = ((f (x.run l).1).run (x.run l).2).1 := rfl
  have read := hx l
  cases found : steps.find? (·.fails refused) with
  | some s =>
    have first : (steps ++ later).find? (·.fails refused) = some s := by
      rw [List.find?_append, found, Option.some_or]
    refine ⟨fun s' found' => ?_, fun none => by rw [first] at none; cases none⟩
    rw [run, read.error s found, failed, ← Option.some.inj (first.symm.trans found')]
    rfl
  | none =>
    have rest : (steps ++ later).find? (·.fails refused) = later.find? (·.fails refused) := by
      rw [List.find?_append, found, Option.none_or]
    obtain ⟨a, got, ha⟩ := read.ok found
    rw [run, got]
    exact ⟨by rw [rest]; exact (done a ha _).error, by rw [rest]; exact (done a ha _).ok⟩

theorem get_reads {found : Option α} {keep : α → Except Fault Cell} {good : Cell → Prop} {a : α}
    (h : found = if refused place entry then none else some a)
    (kept : Reads refused steps good (keep a)) :
    Reading refused (call place entry :: steps) good (get entry v found keep) := fun l => by
  cases r : refused place entry with
  | true =>
    rw [r, if_pos rfl] at h
    subst h
    exact Reads.failed (s := call place entry) r
  | false =>
    rw [r, if_neg (by decide)] at h
    subst h
    exact Reads.passed (s := call place entry) r kept

theorem withValue_reads {details : List String} {handing : Handing} {good : Cell → Prop}
    {copy : Option Object → LedgerM (Except Fault Cell)}
    (asked : handing.status.Of (refused place entry))
    (copied : refused place entry = false → ∀ v, Reading refused steps good (copy v)) :
    Reading refused (call place entry :: steps) good
      (withValue entry v details handing copy) := fun l => by
  obtain ⟨status, given⟩ := handing
  cases status with
  | failure => exact Reads.failed (s := call place entry) (asked.1 rfl)
  | success =>
    have r : refused place entry = false := asked.passed rfl
    exact Reads.passed (s := call place entry) r (copied r _ _)

theorem scalar_reads (s : Scalar) :
    Reading refused (call place s.getter :: s.uint64s.map keep) s.Mirrors
      (decodePlain v (Shape.ofType s.type) (.unless (refused place s.getter) s.payload)) := by
  cases s with
  | bool b => exact get_reads (by cases refused place _ <;> rfl) (.done .bool)
  | single x => exact get_reads (by cases refused place _ <;> rfl) (.done (.single x.widen_value))
  | double x => exact get_reads (by cases refused place _ <;> rfl) (.done .double)
  | integer kind i holds =>
    obtain ⟨low, high⟩ := kind.fits holds
    simp only [Scalar.type, Scalar.getter, kind.shape_type, ← kind.entry_width]
    refine get_reads (a := i) ?_ ?_
    · cases refused place _ <;> simp [Payload.unless, Scalar.payload, Payload.integer?,
        kind.holds_width holds]
    · rw [keepInt, if_pos (by omega)]
      exact .done (.integer (Int64.toInt_ofInt_of_le low high))
  | uint64 n =>
    have small := n.toNat_lt
    refine get_reads (a := (n.toNat : Int)) ?_ ?_
    · have holds : Width.uint64.holds n.toNat = true := by
        simp [Width.holds, Width.signed, Width.bits]
        omega
      cases refused place _ <;> simp [Payload.unless, Scalar.payload, Payload.integer?, holds]
    · by_cases fits : n.toNat < 2 ^ 63
      · rw [keepInt, if_pos (by omega)]
        refine Reads.passed (s := keep n) (decide_eq_false (by omega)) (.done (.uint64 ?_))
        exact Int64.toInt_ofInt_of_le (by omega) (by omega)
      · rw [keepInt, if_neg (by omega), Int.toNat_natCast, UInt64.ofNat_toNat]
        exact Reads.failed (s := keep n) (decide_eq_true (by omega))

theorem takeBytes_free {string : Object} (s : CString) (l : Ledger) :
    ((takeBytes (some string) (some s.bytes)).run l).1 = s.bytes := by
  have kept : s.bytes.takeWhile (· != 0) = s.bytes := by
    rw [List.takeWhile_eq_self_iff]
    intro b hb
    simpa using fun h : b = 0 => s.free (h ▸ hb)
  exact kept

theorem takeName_reads {name : CString} {naming : Naming} {details : List String}
    {f : Utf8.Octets → LedgerM (Except Fault α)} (asked : naming.status.Of (refused place entry))
    (spelt : naming.status = .success → naming.bytes = some name.bytes)
    (failed : naming.status = .failure → ∀ bytes, f bytes = pure (.error (.refused entry)))
    (done : naming.status = .success → Reading refused steps good (f name.bytes)) :
    Reading refused (call place entry :: steps) good
      (takeName entry naming v details >>= f) := fun l => by
  have run : ((takeName entry naming v details >>= f).run l).1 =
      ((f ((takeName entry naming v details).run l).1).run
        ((takeName entry naming v details).run l).2).1 := rfl
  obtain ⟨status, bytes⟩ := naming
  cases status with
  | failure =>
    rw [run, failed rfl]
    exact Reads.failed (s := call place entry) (asked.1 rfl)
  | success =>
    obtain rfl : bytes = some name.bytes := spelt rfl
    have taken : ((takeName entry ⟨.success, some name.bytes⟩ v details).run l).1 = name.bytes :=
      takeBytes_free name _
    rw [run, taken]
    exact Reads.passed (s := call place entry) (asked.passed rfl) (done rfl _)

theorem string_reads {s : CString} {naming : Naming}
    (asked : naming.status.Of (refused place .valueGetString))
    (told : naming.status = .success → naming.bytes = some s.bytes) :
    Reading refused [call place .valueGetString] (Tree.Mirrors (.string s))
      (decodePlain v .string (.text naming)) := by
  obtain ⟨status, bytes⟩ := naming
  refine takeName_reads asked told (fun failure _ => ?_) fun success l => ?_
  · obtain rfl : status = .failure := failure
    rfl
  · obtain rfl : status = .success := success
    exact .done .string

theorem text_reads {type : UInt32} {textual : type ∉ ownGetter} {text : CString} {naming : Naming}
    (told : naming.bytes = some text.bytes) :
    Reading refused [] (Tree.Mirrors (.other type textual text))
      (decodePlain v .other (.text naming)) := fun l => by
  obtain ⟨status, bytes⟩ := naming
  obtain rfl : bytes = some text.bytes := told
  have run : ((decodePlain v .other (.text ⟨status, some text.bytes⟩)).run l).1 =
      .ok (.text ((takeText .valueToString (some text.bytes) v).run l).1) := rfl
  rw [run, show ((takeText .valueToString (some text.bytes) v).run l).1 = text.bytes from
    takeBytes_free text _]
  exact .done .other

theorem decode_items {type : UInt32} {given : Bool} {items : List (Handing × Answers)}
    (shape : Shape.ofType type = .items) : decode v (.items type given items) = do
      record { entry := .valueIsNull, subject := some v, reply := .flag false }
      typeOf v type given
      record { entry := .valueGetListSize, subject := some v, reply := .status .success }
      return .list <$> (← decodeItems v 0 items) := by
  rw [decode, shape]

theorem decode_fields {type : UInt32} {given : Bool} {fields : List ((Naming × Handing) × Answers)}
    (shape : Shape.ofType type = .fields) : decode v (.fields type given fields) = do
      record { entry := .valueIsNull, subject := some v, reply := .flag false }
      typeOf v type given
      record { entry := .valueGetStructNumFields, subject := some v, reply := .status .success }
      return .struct <$> (← decodeFields v 0 fields) := by
  rw [decode, shape]

mutual

theorem decode_reads : ∀ {place : Place} {t : Tree} {answers : Answers},
    Told refused place t answers → ∀ v, Reading refused (t.steps place) t.Mirrors (decode v answers)
  | _, _, _, .null, _ => fun _ => .done .null
  | place, t, _, .untyped value r, v => fun l => by
    obtain ⟨rest, steps⟩ := Tree.steps_typed place value
    rw [steps]
    exact Reads.failed (s := call place .valueGetDataType) r
  | _, .scalar s, _, .scalar typed, v => fun l =>
    .passed typed ((scalar_reads (v := v) s _).mono fun _ => .scalar)
  | _, _, _, .string typed asked told, v => fun l =>
    .passed typed (string_reads (v := v) asked told _)
  | _, .other _ textual _, _, .other typed told, v => fun l => by
    rw [decode, shape_textual textual]
    exact .passed typed (text_reads (v := v) told _)
  | _, .sequence kind _, _, .unsized typed r, v => fun l => by
    rw [decode, kind.shape_type]
    exact .passed typed (.failed r)
  | _, .sequence kind _, _, .sequence typed sized each, v => fun l => by
    rw [decode_items kind.shape_type]
    exact .passed typed (.passed sized ((decodeItems_reads each v _).map fun _ => .sequence))
  | _, .composite kind _, _, .uncounted typed r, v => fun l => by
    rw [decode, kind.shape_type]
    exact .passed typed (.failed r)
  | _, .composite kind _, _, .composite typed counted each, v => fun l => by
    rw [decode_fields kind.shape_type]
    exact .passed typed (.passed counted ((decodeFields_reads each v _).map fun _ h =>
      .composite h.1 h.2))

theorem decodeItems_reads : ∀ {place : Place} {i : Nat} {elements : List Tree}
    {items : List (Handing × Answers)}, ToldElements refused place i elements items →
    ∀ v, Reading refused (Tree.elementSteps place i elements)
      (List.Forall₂ Tree.Mirrors elements) (decodeItems v i items)
  | _, _, _, _, .nil, _ => fun _ => .done .nil
  | _, i, _, _, .cons asked told rest, v => by
    refine (withValue_reads asked fun got v => decode_reads (told got) v).bind (fun _ => rfl)
      fun cell mirrors l => ?_
    exact (decodeItems_reads rest v l).map fun _ => .cons mirrors

theorem decodeFields_reads : ∀ {place : Place} {i : Nat} {fields : List (CString × Tree)}
    {items : List ((Naming × Handing) × Answers)}, ToldFields refused place i fields items →
    ∀ v, Reading refused (Tree.fieldSteps place i fields)
      (fun cells => cells.map Prod.fst = fields.map (·.1.bytes) ∧
        List.Forall₂ Tree.Mirrors (fields.map Prod.snd) (cells.map Prod.snd))
      (decodeFields v i items)
  | _, _, _, _, .nil, _ => fun _ => .done ⟨rfl, .nil⟩
  | _, _, _, _, .cons named spelt asked told rest, v => by
    refine takeName_reads named spelt (fun status _ => by rw [status]) fun status => ?_
    rw [status]
    refine (withValue_reads asked fun got v => decode_reads (told got) v).bind (fun _ => rfl)
      fun cell mirrors l => ?_
    exact (decodeFields_reads rest v l).map fun _ h =>
      ⟨congrArg (_ :: ·) h.1, .cons mirrors h.2⟩

end

end Ledger

/-- The engine answers about a column of a row, at a moment, according to a tree. -/
structure Tuple.Tells (own : Tuple) (refused : Refusals) (t : Tree) (now column : Nat) : Prop where
  asked : (own.column now column).1.status.Of (refused [] .tupleGetValue)
  told : refused [] .tupleGetValue = false → Told refused [] t (own.column now column).2

namespace Result

variable {r : Result} {row column : Nat} {own : Tuple} {refused : Refusals} {t : Tree} {l : Ledger}

def mixed : Tree :=
  .sequence .list [.scalar (.uint64 7), .null 27,
    .composite .struct
      [(⟨[0x6B], by decide⟩, .scalar (.integer .int8 (-1) (by decide)))]]

def mixedRow : Tuple where
  object := some ⟨.tuple, 1⟩
  column _ _ := ({}, .items 52 true
    [({}, .plain 27 true (.integer 7)), ({}, .null),
      ({}, .fields 54 true [(({ bytes := some [0x6B] }, {}), .plain 26 true (.integer (-1)))])])

def mixedResult : Result :=
  { object := ⟨.result, 1⟩, turns := [], tuple := some mixedRow, fetches := 1 }

end Result

end QueryLease.Engine

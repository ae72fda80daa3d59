import Mathlib.Algebra.Order.Group.Multiset
import QueryLease.Engine.Decode
import QueryLease.Proofs.Engine.Discipline

namespace QueryLease.Engine

namespace Entry

def takes : Entry → Option Kind
  | defaultSystemConfig | databaseInit => none
  | databaseDestroy | connectionInit => some .database
  | connectionDestroy | connectionQuery => some .connection
  | resultDestroy | resultIsSuccess | resultGetErrorMessage | resultGetNumColumns
  | resultGetColumnName | resultHasNext | resultGetNext => some .result
  | tupleDestroy | tupleGetValue => some .tuple
  | dataTypeGetId | dataTypeDestroy => some .type
  | destroyString => some .string
  | _ => some .value

def trusted : Entry → Option Kind
  | resultGetNext => some .tuple
  | tupleGetValue | valueGetListElement | valueGetStructFieldValue => some .value
  | valueGetDataType => some .type
  | _ => none

def careless : Entry → Bool
  | databaseInit | connectionInit | valueGetDataType => true
  | _ => false

structure Asks (e : Entry) (k : Kind) : Prop where
  takes : e.takes = some k
  keeping : e.destroys = false

end Entry

namespace Call

def failed (c : Call) : Bool :=
  match c.reply with
  | .handed .failure _ => true
  | _ => false

def stray? (c : Call) : Option Object :=
  if c.entry.careless && c.failed then c.given? else none

def taken? (c : Call) : Option Object :=
  if c.entry.careless && c.failed then none else c.given?

theorem taken?_of_careful {c : Call} (h : c.entry.careless = false) : c.taken? = c.given? := by
  rw [taken?, h]
  rfl

def lacking? (c : Call) : Option Kind :=
  match c.reply with
  | .handed .success none => c.entry.trusted
  | _ => none

end Call

abbrev ask (entry : Entry) (subject : Option (Option Object)) (details : List String)
    (handing : Handing) (o : Option Object) : Call :=
  { entry, subject, details, reply := .handed handing.status o }

def strays (calls : List Call) : List Object := calls.filterMap Call.stray?

def lacking (calls : List Call) : List Kind := calls.filterMap Call.lacking?

def Call.Wary (missing : Kind → Prop) (c : Call) : Prop :=
  c.subject = some none → c.entry.destroys = true ∨ ∃ k, c.entry.takes = some k ∧ missing k

def Wary (missing : List Kind) : List Call → Prop
  | [] => True
  | c :: earlier => c.Wary (fun k => k ∈ missing ∨ k ∈ lacking earlier) ∧ Wary missing earlier

structure Aftermath (before : Ledger) (missing : List Kind) (lost kept : Multiset Object)
    (calls : List Call) (after : Ledger) : Prop where
  made : after.calls = calls ++ before.calls
  handed : (handed calls : Multiset Object) + lost = kept + strays calls + destroyed calls
  live : (after.live : Multiset Object) = kept + strays calls + (↑before.live - lost)
  wary : Wary missing calls

variable {before after : Ledger} {missing : List Kind} {lost : Multiset Object} {calls : List Call}

theorem mem_lacking_cons {k : Kind} {c : Call} (h : k ∈ lacking calls) :
    k ∈ lacking (c :: calls) :=
  (List.sublist_cons_self c calls).filterMap _ |>.mem h

namespace Ledger

variable {α : Type} {l l' : Ledger} {kept kept' : Multiset Object}
  {K K' : Kind → Prop} {c : Call} {o v : Option Object} {entry : Entry}

def Since (before : Ledger) (missing : List Kind) (lost kept : Multiset Object) (K : Kind → Prop)
    (l : Ledger) : Prop :=
  ∃ calls, Aftermath before missing lost kept calls l ∧ ∀ k, K k → k ∈ missing ∨ k ∈ lacking calls

namespace Since

theorem start (before : Ledger) (missing : List Kind) :
    Since before missing 0 0 (· ∈ missing) before :=
  ⟨[], ⟨rfl, rfl, by simp [strays], trivial⟩, fun _ => .inl⟩

theorem weaken (h : Since before missing lost kept K l) (hK : ∀ k, K' k → K k) :
    Since before missing lost kept K' l :=
  h.imp fun _ h => ⟨h.1, fun k hk => h.2 k (hK k hk)⟩

theorem coe_filterMap_cons {f : Call → Option Object} (c : Call) (calls : List Call) :
    ((c :: calls).filterMap f : Multiset Object) = (f c).toList + calls.filterMap f := by
  rw [List.filterMap_cons]
  cases f c <;> rfl

theorem call (h : Since before missing lost kept K l) (made : l'.calls = c :: l.calls)
    (passed : (c.given?.toList : Multiset Object) + kept =
      kept' + c.stray?.toList + c.destroyed?.toList)
    (live : (l'.live : Multiset Object) + c.destroyed?.toList = c.given?.toList + l.live)
    (wary : c.Wary K) (known : ∀ k, K' k → K k ∨ c.lacking? = some k) :
    Since before missing lost kept' K' l' := by
  obtain ⟨calls, done, hK⟩ := h
  refine ⟨c :: calls, ⟨made.trans (congrArg _ done.made), ?_, ?_, ?_, done.wary⟩, fun k hk => ?_⟩
  · rw [Engine.handed, strays, destroyed, coe_filterMap_cons, coe_filterMap_cons,
      coe_filterMap_cons, add_assoc, ← Engine.handed, done.handed, ← add_assoc, ← add_assoc, passed]
    simp only [strays, destroyed, add_assoc, add_left_comm]
  · refine add_right_cancel (live.trans ?_) (b := (c.destroyed?.toList : Multiset Object))
    rw [done.live, ← add_assoc, ← add_assoc, passed, strays, strays, coe_filterMap_cons]
    simp only [add_left_comm, add_comm]
  · intro ho
    refine (wary ho).imp_right fun ⟨k, takes, hk⟩ => ⟨k, takes, hK k hk⟩
  · rcases known k hk with hk | hk
    · exact (hK k hk).imp_right mem_lacking_cons
    · exact .inr (List.mem_filterMap.2 ⟨c, List.mem_cons_self, hk⟩)

end Since

abbrev Passes (before : Ledger) (missing : List Kind) (lost kept : Multiset Object)
    (K : Kind → Prop) (x : LedgerM α) : Prop :=
  Keeps (Since before missing lost kept K) x fun _ => Since before missing lost kept K

theorem Passes.andThen {β : Type} {x : LedgerM α} {f : α → LedgerM β} {q : β → Ledger → Prop}
    (hx : Passes before missing lost kept K x)
    (hf : ∀ a, Keeps (Since before missing lost kept K) (f a) q) :
    Keeps (Since before missing lost kept K) (x >>= f) q := Alike.bind hx hf

theorem stray?_of_not_given (given : c.given? = none) : c.stray? = none := by
  rw [Call.stray?, given, ite_self]

theorem destroyed?_of_keeping (hd : c.entry.destroys = false) : c.destroyed? = none := by
  rw [Call.destroyed?, hd]
  rfl

theorem record_since (given : c.given? = none) (hd : c.entry.destroys = false)
    (wary : c.Wary K) : Passes before missing lost kept K (record c) := by
  refine Alike.of_modify fun l hl => hl.call rfl ?_ ?_ wary fun _ => .inl
  · rw [given, destroyed?_of_keeping hd, stray?_of_not_given given]
    simp
  · rw [given, destroyed?_of_keeping hd]
    simp

def Receiving (before : Ledger) (missing : List Kind) (lost kept : Multiset Object)
    (K : Kind → Prop) (o : Option Object) (l : Ledger) : Prop :=
  ∃ l', Since before missing lost kept K l' ∧ l.calls = l'.calls ∧ l.live = o.toList ++ l'.live

variable {kind : Kind} {handing : Handing} {subject : Option (Option Object)}
  {details : List String}

theorem receive_since (given : Bool) :
    Keeps (Since before missing lost kept K) (receive kind given) fun o l =>
      o.isSome = given ∧ Receiving before missing lost kept K o l := by
  refine Alike.keeps fun l hl => ?_
  cases given with
  | false => exact ⟨rfl, l, hl, rfl, rfl⟩
  | true => exact ⟨rfl, l, hl, rfl, rfl⟩

theorem given?_eq_taken?_add_stray? (c : Call) :
    (c.given?.toList : Multiset Object) = c.taken?.toList + c.stray?.toList := by
  unfold Call.taken? Call.stray?
  split_ifs <;> simp

theorem record_received_since (hc : c.given? = o) (hd : c.entry.destroys = false)
    (wary : c.Wary K) : Keeps (Receiving before missing lost kept K o) (record c) fun _ =>
      Since before missing lost (c.taken?.toList + kept) fun k => K k ∨ c.lacking? = some k := by
  refine Alike.of_modify fun l ⟨l', hl, calls, live⟩ => ?_
  refine hl.call (congrArg (c :: ·) calls) ?_ ?_ wary fun _ => id
  · rw [given?_eq_taken?_add_stray?, destroyed?_of_keeping hd, add_right_comm]
    exact (add_zero _).symm
  · rw [destroyed?_of_keeping hd, hc]
    exact (add_zero _).trans (congrArg _ live)

theorem handOut_since (hd : entry.destroys = false)
    (wary : subject = some none → ∃ k, entry.takes = some k ∧ K k) :
    Keeps (Since before missing lost kept K) (handOut entry kind handing subject details)
      fun o l => o.isSome = handing.given ∧
        Since before missing lost ((ask entry subject details handing o).taken?.toList + kept)
          (fun k => K k ∨ (ask entry subject details handing o).lacking? = some k) l := by
  refine (receive_since handing.given).bind fun o => Alike.assume fun given => ?_
  have recorded : Keeps (Receiving before missing lost kept K o)
      (record (ask entry subject details handing o)) _ :=
    record_received_since rfl hd fun ho => .inr (wary ho)
  exact recorded.bind fun _ => Alike.of_pure fun _ hl => ⟨given, hl⟩

theorem Since.mem_live {p : Object} (h : Since before missing lost (p ::ₘ kept) K l) :
    p ∈ l.live := by
  obtain ⟨calls, done, -⟩ := h
  rw [← Multiset.mem_coe, done.live, Multiset.cons_add, Multiset.cons_add]
  exact Multiset.mem_cons_self p _

theorem destroy_since (entry : Entry) (hd : entry.destroys = true) :
    Keeps (Since before missing lost (o.toList + kept) K) (destroy entry o) fun _ =>
      Since before missing lost kept K := by
  have destroyed : Call.destroyed? { entry, subject := some o } = o := by
    rw [Call.destroyed?, hd]
    rfl
  have given : Call.given? { entry, subject := some o } = none := rfl
  refine Alike.keeps fun l hl => hl.call (c := { entry, subject := some o }) rfl ?_ ?_
    (fun _ => .inl hd) fun _ => .inl
  · rw [destroyed, given, stray?_of_not_given given]
    exact (zero_add _).trans ((add_comm _ _).trans (congrArg (· + _) (add_zero kept).symm))
  · rw [destroyed, given]
    cases o with
    | none => exact add_comm _ _
    | some p =>
      have here : p ∈ (l.live : Multiset Object) := hl.mem_live
      exact (add_comm _ _).trans ((Multiset.cons_erase here).trans (zero_add _).symm)

theorem destroy_first (entry : Entry) (hd : entry.destroys = true) :
    Keeps (· = before) (destroy entry o) fun _ => Since before [] o.toList 0 fun _ => False := by
  have gone : destroyed [{ entry, subject := some o }] = o.toList := by
    rw [destroyed, List.filterMap_cons, Call.destroyed?, hd]
    cases o <;> rfl
  have astray : strays [{ entry, subject := some o }] = [] := by
    rw [strays, List.filterMap_cons, stray?_of_not_given rfl, List.filterMap_nil]
  refine Alike.keeps fun l hl => ?_
  subst hl
  refine ⟨[{ entry, subject := some o }], ⟨rfl, ?_, ?_, ⟨fun _ => .inl hd, trivial⟩⟩,
    fun _ => False.elim⟩
  · rw [gone, astray]
    rfl
  · rw [astray]
    refine Eq.trans ?_ (zero_add _).symm
    cases o with
    | none => exact (tsub_zero _).symm
    | some p => exact (Multiset.sub_singleton p (l.live : Multiset Object)).symm

theorem takeBytes_since {string : Option Object} {bytes : Option Utf8.Octets}
    (h : string.isSome = bytes.isSome) :
    Keeps (Since before missing lost (string.toList + kept) K) (takeBytes string bytes) fun _ =>
      Since before missing lost kept K := by
  cases bytes with
  | none =>
    obtain rfl := Option.isNone_iff_eq_none.1 (Option.isSome_eq_false_iff.1 h)
    exact Alike.of_pure fun _ hl => zero_add kept ▸ hl
  | some bytes =>
    obtain ⟨o, rfl⟩ := Option.isSome_iff_exists.1 h
    exact (destroy_since _ rfl).bind fun _ => Alike.still

variable {k : Kind}

theorem wary_of_asks (asks : entry.Asks k) (hv : v = none → K k) (ho : some v = some none) :
    ∃ k, entry.takes = some k ∧ K k := ⟨k, asks.takes, hv (Option.some.inj ho)⟩

theorem ask_since (asks : c.entry.Asks k) (hv : v = none → K k) (hs : c.subject = some v)
    (given : c.given? = none) : Passes before missing lost kept K (record c) :=
  record_since given asks.keeping fun ho => .inr (wary_of_asks asks hv (hs.symm.trans ho))

theorem takeName_since (asks : entry.Asks k) (careful : entry.careless = false)
    (naming : Naming) (hv : v = none → K k) :
    Passes before missing lost kept K (takeName entry naming v details) := by
  refine (handOut_since asks.keeping (wary_of_asks asks hv)).bind fun string =>
    Alike.assume fun given => ?_
  rw [Call.taken?_of_careful careful]
  exact (takeBytes_since given).weaken (fun _ => id) fun _ _ hl => hl.weaken fun _ => .inl

theorem takeText_since (asks : entry.Asks k) (careful : entry.careless = false)
    (bytes : Option Utf8.Octets) (hv : v = none → K k) :
    Passes before missing lost kept K (takeText entry bytes v) := by
  refine (receive_since bytes.isSome).bind fun string => Alike.assume fun given => ?_
  have recorded : Keeps (Receiving before missing lost kept K string)
      (record { entry, subject := some v, reply := .object string }) _ :=
    record_received_since rfl asks.keeping fun ho => .inr (wary_of_asks asks hv ho)
  refine recorded.bind fun _ => ?_
  rw [Call.taken?_of_careful careful]
  exact (takeBytes_since given).weaken (fun _ => id) fun _ _ hl => hl.weaken fun _ => .inl

theorem get_since {β : Type} (asks : entry.Asks k) (found : Option β)
    (keep : β → Except Fault Cell) (hv : v = none → K k) :
    Passes before missing lost kept K (get entry v found keep) := by
  cases found <;> exact (ask_since asks hv rfl rfl).andThen fun _ => Alike.still

theorem typeOf_since (number : UInt32) (given : Bool) (hv : v = none → K .value) :
    Passes before missing lost kept K (typeOf v number given) := by
  have asks : Entry.valueGetDataType.Asks .value := ⟨rfl, rfl⟩
  refine (handOut_since asks.keeping (wary_of_asks asks hv)).bind fun type =>
    Alike.assume fun _ => ?_
  have taken : (ask .valueGetDataType (some v) [] ⟨.success, given⟩ type).taken? = type := rfl
  rw [taken]
  refine Passes.andThen (ask_since ⟨rfl, rfl⟩ ?_ rfl rfl) fun _ => ?_
  · rintro rfl
    exact .inr rfl
  · exact (destroy_since _ rfl).weaken (fun _ => id) fun _ _ hl => hl.weaken fun _ => .inl

theorem withValue_since {copy : Option Object → LedgerM (Except Fault Cell)} (asks : entry.Asks k)
    (trusted : entry.trusted = some .value) (careful : entry.careless = false) (hv : v = none → K k)
    (hc : ∀ (o : Option Object) {K' : Kind → Prop}, (o = none → K' .value) →
      Passes before missing lost (o.toList + kept) K' (copy o)) :
    Passes before missing lost kept K (withValue entry v details handing copy) := by
  refine (handOut_since asks.keeping (wary_of_asks asks hv)).bind fun value =>
    Alike.assume fun _ => ?_
  rw [Call.taken?_of_careful careful]
  have destroyed {K' : Kind → Prop} (hK : ∀ k, K k → K' k) (cell : Except Fault Cell) :
      Keeps (Since before missing lost (value.toList + kept) K') (do
        destroy .valueDestroy value
        return cell) fun _ => Since before missing lost kept K :=
    (destroy_since _ rfl).bind fun _ => Alike.of_pure fun _ hl => hl.weaken hK
  obtain ⟨status, given⟩ := handing
  cases status with
  | failure => exact destroyed (fun _ => .inl) _
  | success =>
    refine (hc value ?_).andThen (destroyed fun _ => .inl)
    rintro rfl
    exact .inr trusted

theorem decodePlain_since (shape : Shape) (payload : Payload) (hv : v = none → K .value) :
    Passes before missing lost kept K (decodePlain v shape payload) := by
  cases shape with
  | bool | single | double => exact get_since ⟨rfl, rfl⟩ _ _ hv
  | integer w => exact get_since (by cases w <;> exact ⟨rfl, rfl⟩) _ _ hv
  | string =>
    exact (takeName_since ⟨rfl, rfl⟩ rfl _ hv).andThen fun _ => Alike.still
  | items | fields => exact (ask_since ⟨rfl, rfl⟩ hv rfl rfl).andThen fun _ => Alike.still
  | other => exact (takeText_since ⟨rfl, rfl⟩ rfl _ hv).andThen fun _ => Alike.still

mutual

theorem decode_since : ∀ (answers : Answers) {kept : Multiset Object} {K : Kind → Prop}
    {v : Option Object}, (v = none → K .value) →
    Passes before missing lost kept K (decode v answers)
  | .null, _, _, _, hv =>
    (ask_since ⟨rfl, rfl⟩ hv rfl rfl).andThen fun _ => Alike.still
  | .untyped given, kept, K, v, hv => by
    refine Passes.andThen (ask_since ⟨rfl, rfl⟩ hv rfl rfl) fun _ => ?_
    have asks : Entry.valueGetDataType.Asks .value := ⟨rfl, rfl⟩
    refine Alike.bind (q := fun _ => Since before missing lost kept K) (Alike.discard ?_)
      fun _ => Alike.still
    refine (handOut_since asks.keeping (wary_of_asks asks hv)).weaken (fun _ => id) ?_
    exact fun _ _ hl => zero_add kept ▸ hl.2.weaken fun _ => .inl
  | .plain type _ payload, _, _, _, hv =>
    (ask_since ⟨rfl, rfl⟩ hv rfl rfl).andThen fun _ =>
      (typeOf_since type _ hv).andThen fun _ => decodePlain_since _ payload hv
  | .items type _ items, _, _, _, hv => by
    refine Passes.andThen (ask_since ⟨rfl, rfl⟩ hv rfl rfl) fun _ => ?_
    refine (typeOf_since type _ hv).andThen fun _ => ?_
    split
    · refine Passes.andThen (ask_since ⟨rfl, rfl⟩ hv rfl rfl) fun _ => ?_
      exact (decodeItems_since items 0 hv).andThen fun _ => Alike.still
    · exact decodePlain_since _ _ hv
  | .fields type _ fields, _, _, _, hv => by
    refine Passes.andThen (ask_since ⟨rfl, rfl⟩ hv rfl rfl) fun _ => ?_
    refine (typeOf_since type _ hv).andThen fun _ => ?_
    split
    · refine Passes.andThen (ask_since ⟨rfl, rfl⟩ hv rfl rfl) fun _ => ?_
      exact (decodeFields_since fields 0 hv).andThen fun _ => Alike.still
    · exact decodePlain_since _ _ hv

theorem decodeItems_since : ∀ (items : List (Handing × Answers)) {kept : Multiset Object}
    {K : Kind → Prop} {v : Option Object} (i : Nat), (v = none → K .value) →
    Passes before missing lost kept K (decodeItems v i items)
  | [], _, _, _, _, _ => Alike.still
  | (_, answers) :: rest, _, _, _, i, hv => by
    refine (withValue_since ⟨rfl, rfl⟩ rfl rfl hv fun o _ => decode_since answers).andThen
      fun cell => ?_
    cases cell with
    | error f => exact Alike.still
    | ok cell => exact (decodeItems_since rest (i + 1) hv).andThen fun _ => Alike.still

theorem decodeFields_since : ∀ (fields : List ((Naming × Handing) × Answers))
    {kept : Multiset Object} {K : Kind → Prop} {v : Option Object} (i : Nat),
    (v = none → K .value) → Passes before missing lost kept K (decodeFields v i fields)
  | [], _, _, _, _, _ => Alike.still
  | ((naming, _), answers) :: rest, _, _, _, i, hv => by
    refine (takeName_since ⟨rfl, rfl⟩ rfl naming hv).andThen fun name => ?_
    cases naming.status with
    | failure => exact Alike.still
    | success =>
      refine (withValue_since ⟨rfl, rfl⟩ rfl rfl hv fun o _ => decode_since answers).andThen
        fun cell => ?_
      cases cell with
      | error f => exact Alike.still
      | ok cell => exact (decodeFields_since rest (i + 1) hv).andThen fun _ => Alike.still

end

end Ledger

end QueryLease.Engine

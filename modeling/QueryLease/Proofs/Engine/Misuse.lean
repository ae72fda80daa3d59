import QueryLease.Engine.Script
import QueryLease.Proofs.Engine.Aftermath
import QueryLease.Proofs.Engine.Hosts

namespace QueryLease.Engine

variable {α ε : Type} {before : Ledger} {missing : List Kind} {lost kept : Multiset Object}
  {K : Kind → Prop} {o : Object}

def keeping (got : α → Multiset Object) : Except ε α → Multiset Object
  | .error _ => 0
  | .ok a => got a

namespace Result

open Ledger

theorem columnNames_since (i : Nat) (columns : List Naming) :
    Passes before missing lost kept K (columnNames o i columns) := by
  induction columns generalizing i with
  | nil => exact Alike.still
  | cons naming rest ih =>
    refine (takeName_since ⟨rfl, rfl⟩ rfl naming (by simp)).andThen fun bytes => ?_
    split
    · exact Alike.still
    · exact (ih (i + 1)).andThen fun _ => Alike.still

theorem succeeded_since (answers : ResultAnswers) :
    Passes before missing lost kept K (succeeded o answers) := by
  unfold succeeded
  cases answers.handing.status with
  | failure => exact Alike.still
  | success =>
    exact (ask_since ⟨rfl, rfl⟩ (by simp) rfl rfl).andThen fun _ => Alike.still

theorem ofGiven_since (answers : ResultAnswers) :
    Keeps (Since before missing lost {o} K) (ofGiven o answers) fun out =>
      Since before missing lost (keeping (fun a => {a.1.object}) out) K := by
  have destroyed : Keeps (Since before missing lost {o} K) (destroy .resultDestroy (some o))
      fun _ => Since before missing lost 0 K := by
    rw [← add_zero ({o} : Multiset Object)]
    exact destroy_since (o := some o) .resultDestroy rfl
  refine (succeeded_since answers).andThen fun succeeded => ?_
  cases succeeded with
  | true =>
    refine Passes.andThen (ask_since ⟨rfl, rfl⟩ (by simp) rfl rfl) fun _ => ?_
    refine (columnNames_since 0 _).andThen fun columns => ?_
    cases columns with
    | ok columns => exact Alike.of_pure fun _ => id
    | error f => exact destroyed.bind fun _ => Alike.of_pure fun _ => id
  | false =>
    refine (takeText_since ⟨rfl, rfl⟩ rfl _ (by simp)).andThen fun message => ?_
    exact destroyed.bind fun _ => Alike.of_pure fun _ => id

theorem ofAnswers_since (connection : Object) (answers : ResultAnswers) :
    Keeps (Since before missing lost 0 K) (ofAnswers connection answers) fun out =>
      Since before missing lost (keeping (fun a => {a.1.object}) out) K := by
  refine (handOut_since rfl (by simp)).bind fun given => Alike.assume fun _ => ?_
  cases given with
  | none =>
    obtain ⟨⟨status, given⟩, success, message, columns, turns⟩ := answers
    cases status with
    | failure => exact Alike.of_pure fun _ hl => hl.weaken fun _ => .inl
    | success => exact Alike.of_pure fun _ hl => hl.weaken fun _ => .inl
  | some o =>
    exact (ofGiven_since answers).weaken (fun _ hl => hl.weaken fun _ => .inl) fun _ _ => id

def held (r : Result) : List Object := (r.tuple.bind (·.object)).toList

def lacks (r : Result) : List Kind :=
  match r.tuple with
  | some ⟨none, _⟩ => [.tuple]
  | _ => []

theorem dropTuple_since (r : Result) (before : Ledger) :
    Keeps (· = before) r.dropTuple fun _ => Since before [] r.held 0 fun _ => False := by
  obtain ⟨object, turns, tuple, fetches⟩ := r
  cases tuple with
  | none =>
    refine Alike.of_pure fun l hl => ?_
    exact hl ▸ (Since.start l []).weaken fun _ => False.elim
  | some t => exact destroy_first _ rfl

theorem fetch_since (r : Result) (before : Ledger) :
    Keeps (· = before) r.fetch fun fetched =>
      Since before [] r.held (keeping (fun _ => fetched.2.held) fetched.1)
        (· ∈ fetched.2.lacks) := by
  refine (dropTuple_since r before).bind fun _ => ?_
  have asked (b : Bool) : Passes before [] r.held 0 (fun _ => False) (r.hasNext b) :=
    ask_since ⟨rfl, rfl⟩ (by simp) rfl rfl
  have still {turns : List Turn} (l : Ledger) (hl : Since before [] r.held 0 (fun _ => False) l) :
      Since before [] r.held 0 (· ∈ ({ r with tuple := none, turns } : Result).lacks) l :=
    hl.weaken fun _ => List.not_mem_nil
  cases r.turns with
  | nil => exact (asked false).andThen fun _ => Alike.of_pure still
  | cons turn turns =>
    cases turn with
    | pause => exact (asked false).andThen fun _ => Alike.of_pure still
    | row handing column =>
      refine (asked true).andThen fun _ => ?_
      refine (handOut_since rfl (by simp)).bind fun object => Alike.assume fun _ => ?_
      obtain ⟨status, given⟩ := handing
      cases status with
      -- A tuple that is missing is kept for one, and so is lacking from then on.
      | success =>
        refine Alike.of_pure fun l hl => ?_
        have kept := add_zero (object.toList : Multiset Object) ▸ hl
        refine Since.weaken kept fun k hk => .inr ?_
        cases object with
        | none => exact congrArg some (List.mem_singleton.1 hk).symm
        | some o => exact absurd hk List.not_mem_nil
      | failure =>
        cases object with
        | none => exact Alike.of_pure fun l hl => still l (hl.weaken fun _ => .inl)
        | some o =>
          refine (destroy_since (o := some o) .tupleDestroy rfl).bind fun _ => ?_
          exact Alike.of_pure fun l hl => still l (hl.weaken fun _ => .inl)

theorem read_since (r : Result) (row column : Nat) :
    Passes before r.lacks lost 0 (· ∈ r.lacks) (r.read row column) := by
  unfold Result.read
  cases ht : r.tuple? row with
  | none => exact Alike.still
  | some t =>
    have on : r.tuple = some t := (Option.filter_eq_some_iff.1 ht).1
    have lacking (gone : t.object = none) : Kind.tuple ∈ r.lacks := by
      obtain ⟨object, column⟩ := t
      rw [lacks, on, show object = none from gone]
      exact List.mem_singleton_self _
    apply Alike.get_bind
    intro l hl
    refine Alike.weaken (withValue_since ⟨rfl, rfl⟩ rfl rfl lacking
      fun o _ => decode_since (t.column l.now column).2) (fun _ e => e ▸ hl) fun _ _ => id

end Result

namespace Host

open Ledger

variable {E : Engine} {D : Array Database} {n : Nat} {d : Database}

abbrev Amid (before : Ledger) (kept : Multiset Object) : Ledger → Prop :=
  Since before [] 0 kept fun _ => False

theorem defaults_since : Keeps (At D (Amid before 0)) (Host.defaults : HostM E _) fun _ =>
    At D (Amid before 0) := by
  refine Alike.bind (booked_keeps (record_since rfl rfl (by simp [Call.Wary]))) fun _ => ?_
  exact Alike.get_bind fun s hs => Alike.of_eq rfl hs

theorem handOut_required {entry : Entry} {kind : Kind} {subject : Option (Option Object)}
    {details : List String} {handing : Handing} (ungiven : Ungiven)
    (careless : entry.careless = true) (hd : entry.destroys = false) (hs : subject ≠ some none) :
    Keeps (Amid before 0) (handOut entry kind handing subject details) fun o =>
      Amid before (keeping (fun o => {o}) (require handing.status o ungiven)) := by
  refine (handOut_since hd fun h => absurd h hs).weaken (fun _ => id) fun o l ⟨_, hl⟩ => ?_
  have kept := hl.weaken fun _ => False.elim
  rw [add_zero, Call.taken?, careless] at kept
  obtain ⟨status, given⟩ := handing
  cases status with
  | failure => exact kept
  | success => cases o <;> exact kept

theorem openDatabase_since (path : Option String) (config : Config) :
    Keeps (At D (Amid before 0)) (Host.openDatabase path config : HostM E _) fun out p =>
      Amid before (keeping (fun n => (objectOf p.databases n).toList) out) p.ledger := by
  refine library_keeps.bind fun found => ?_
  cases found with
  | error e => exact Alike.of_pure fun _ hs => hs.2
  | ok library =>
    dsimp only
    split_ifs
    · exact Alike.of_pure fun _ hs => hs.2
    refine defaults_since.bind fun usual => Alike.get_bind fun s hs => ?_
    refine Alike.bind (q := fun _ => At D (Amid before 0))
      (Alike.of_modify fun _ e => e ▸ hs) fun _ => ?_
    refine Alike.bind (booked_keeps (handOut_required .database rfl rfl (by simp))) fun object => ?_
    rintro s ⟨rfl, kept⟩
    cases required : require _ object .database with
    | error f =>
      rw [required] at kept
      exact ⟨rfl, kept⟩
    | ok o =>
      rw [required] at kept
      have pushed : objectOf (s.databases.push { object := o, library }) s.databases.size =
          some o := by
        rw [objectOf, Array.getElem?_push_size]
        rfl
      refine ⟨rfl, ?_⟩
      show Amid before (objectOf (s.databases.push { object := o, library }) _).toList _
      rw [pushed]
      exact kept

theorem connect_since (found : D[n]? = some d) :
    Keeps (At D (Amid before 0)) (Host.connect n : HostM E _) fun out p =>
      Amid before (keeping (fun l => {l.connection}) out) p.ledger := by
  refine Alike.get_bind fun s hs => ?_
  rw [hs.1, found]
  refine Alike.get_bind fun s' hs' => ?_
  subst hs'
  refine Alike.bind (q := fun _ => At D (Amid before 0))
    (Alike.of_modify fun _ e => e ▸ hs) fun _ => ?_
  refine Alike.bind (booked_keeps (handOut_required .connection rfl rfl (by simp)))
    fun object => ?_
  rintro s ⟨-, kept⟩
  cases required : require _ object .connection with
  | error f =>
    rw [required] at kept
    exact ⟨rfl, kept⟩
  | ok o =>
    rw [required] at kept
    exact ⟨rfl, kept⟩

theorem execute_since (l : Link) (text : String) :
    Keeps (At D (Amid before 0)) (Host.execute l text : HostM E _) fun out p =>
      Amid before (keeping (fun a => {a.1.object}) out) p.ledger := by
  unfold Host.execute
  split_ifs
  · exact Alike.of_pure fun _ hs => hs.2
  refine Alike.get_bind fun s hs => ?_
  refine Alike.bind (q := fun _ => At D (Amid before 0))
    (Alike.of_modify fun _ e => e ▸ hs) fun _ => ?_
  have asked : Keeps (Amid before 0) (Result.ofAnswers l.connection (E.query text s.engine).1) _ :=
    Result.ofAnswers_since _ _
  exact (booked_keeps asked).weaken (fun _ => id) fun _ _ => And.right

/-- What is left of each thing that a process may ask of an engine. What it is given is destroyed
again unless it keeps it or it went astray, and what is missing is asked for something only if it is
a tuple, a value or a type. -/
structure Withstands (p : Host E) : Prop where
  opening : ∀ path config, ∃ calls,
    Aftermath p.ledger [] 0
      (keeping (fun n => (objectOf ((openDatabase path config).run p).2.databases n).toList)
        ((openDatabase path config).run p).1)
      calls ((openDatabase path config).run p).2.ledger
  connecting : ∀ n < p.databases.size, ∃ calls,
    Aftermath p.ledger [] 0 (keeping (fun l => {l.connection}) ((connect n).run p).1)
      calls ((connect n).run p).2.ledger
  querying : ∀ l text, ∃ calls,
    Aftermath p.ledger [] 0 (keeping (fun a => {a.1.object}) ((execute l text).run p).1)
      calls ((execute l text).run p).2.ledger
  fetching : ∀ r : Result, ∃ calls,
    Aftermath p.ledger [] r.held (keeping (fun _ => (p.booked r.fetch).1.2.held)
        (p.booked r.fetch).1.1)
      calls (p.booked r.fetch).2.ledger ∧
    ∀ k ∈ (p.booked r.fetch).1.2.lacks, k ∈ lacking calls
  reading : ∀ (r : Result) row column, ∃ calls,
    Aftermath p.ledger r.lacks 0 0 calls (p.booked (r.read row column)).2.ledger

theorem withstands (p : Host E) : p.Withstands := by
  have start : At p.databases (Amid p.ledger 0) p :=
    ⟨rfl, Since.weaken (Since.start p.ledger []) fun _ => False.elim⟩
  constructor
  case opening =>
    intro path config
    exact ((openDatabase_since path config).post start).imp fun _ => And.left
  case connecting =>
    intro n hn
    exact ((connect_since (Array.getElem?_eq_getElem hn)).post start).imp fun _ => And.left
  case querying =>
    intro l text
    exact ((execute_since l text).post start).imp fun _ => And.left
  case fetching =>
    intro r
    obtain ⟨calls, done, lacks⟩ := (Result.fetch_since r p.ledger).post rfl
    exact ⟨calls, done, fun k hk => (lacks k hk).resolve_left List.not_mem_nil⟩
  case reading =>
    intro r row column
    have read := (Result.read_since r row column).post (Since.start p.ledger r.lacks)
    exact read.imp fun _ => And.left

def unlucky : Host (Script.engine { database := ⟨.failure, true⟩ }) where
  loader _ := .refused "no such file"
  named := none
  first := some (.ok ⟨"engine"⟩)
  engine := ()

end Host

def Result.hollow : Result where
  object := ⟨.result, 1⟩
  turns := [.row ⟨.success, false⟩ fun _ _ => (.refusal, .null)]

/-- A database that is given by a failing call stays alive, and a missing tuple is asked for a
column. -/
theorem misuse_felt :
    ((Host.openDatabase none {}).run Host.unlucky).1 =
        .error (.engine (.refused .databaseInit)) ∧
      ((Host.openDatabase none {}).run Host.unlucky).2.ledger.live = [⟨.database, 1⟩] ∧
      ∃ c ∈ (((Result.hollow.fetch {}).1.2.read 1 0).run (Result.hollow.fetch {}).2).2.calls,
        c.entry = .tupleGetValue ∧ c.subject = some none := by
  refine ⟨?_, ?_, ?_⟩
  · rfl
  · rfl
  · decide

end QueryLease.Engine

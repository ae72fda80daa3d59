import QueryLease.Engine.Script
import QueryLease.Pool.Read
import QueryLease.Proofs.Engine.Journal
import QueryLease.Proofs.Pool.Deeds
import QueryLease.Source.Foreign

namespace QueryLease

namespace Engine

open Ledger

def Tuple.read (own : Tuple) (column : Nat) : LedgerM (Except Fault Cell) := do
  let (handing, answers) := own.column (← get).now column
  withValue .tupleGetValue own.object [toString column] handing (decode · answers)

/-- The value is made of the cell that a read gives at some moment. -/
def Tuple.Gives (own : Tuple) (column : Nat) (v : Value) : Prop :=
  ∃ l cell, ((own.read column).run l).1 = .ok cell ∧ cell.toValue = .ok v

def Tuple.given (own : Tuple) (result : Object) : Call :=
  { entry := .resultGetNext, subject := some (some result)
    reply := .handed .success own.object }

theorem Tuple.read_asks (own : Tuple) (column : Nat) (l : Ledger) : ∃ handing value,
    Extends (asking .tupleGetValue own.object [toString column] handing value :: l.calls)
      ((own.read column).run l).2 :=
  ⟨_, withValue_asks (own.column l.now column).2 l⟩

namespace Result

variable {r : Result} {l : Ledger} {row : Nat} {own : Tuple}

structure OnRow (r : Result) (row : Nat) (own : Tuple) : Prop where
  fetches : r.fetches = row
  tuple : r.tuple = some own

structure Past (r : Result) (row : Nat) : Prop where
  reached : row ≤ r.fetches
  left : r.tuple = none ∨ row < r.fetches

theorem fetch_cases (r : Result) (l : Ledger) :
    (∃ own, (r.fetch.run l).1.1 = .ok (some (r.fetches + 1)) ∧
      (r.fetch.run l).1.2.OnRow (r.fetches + 1) own ∧
      (r.fetch.run l).2.calls.head? = some (own.given r.object)) ∨
    ((∀ row, (r.fetch.run l).1.1 ≠ .ok (some row)) ∧
      (r.fetch.run l).1.2.tuple = none ∧ (r.fetch.run l).1.2.fetches = r.fetches) := by
  rcases r with ⟨object, turns, tuple, fetches⟩
  match turns with
  | [] => exact .inr ⟨nofun, rfl, rfl⟩
  | .pause :: _ => exact .inr ⟨nofun, rfl, rfl⟩
  | .row ⟨.success, true⟩ _ :: _ => exact .inl ⟨_, rfl, ⟨rfl, rfl⟩, rfl⟩
  | .row ⟨.success, false⟩ _ :: _ => exact .inl ⟨_, rfl, ⟨rfl, rfl⟩, rfl⟩
  | .row ⟨.failure, true⟩ _ :: _ => exact .inr ⟨nofun, rfl, rfl⟩
  | .row ⟨.failure, false⟩ _ :: _ => exact .inr ⟨nofun, rfl, rfl⟩

theorem past_fetch (h : row ≤ r.fetches) : (r.fetch.run l).1.2.Past row := by
  rcases r.fetch_cases l with ⟨own, -, on, -⟩ | ⟨-, none, same⟩
  · exact ⟨by rw [on.fetches]; omega, .inr (by rw [on.fetches]; omega)⟩
  · exact ⟨same ▸ h, .inl none⟩

theorem lt_of_fetch (h : row ≤ r.fetches) {later : Nat}
    (hf : (r.fetch.run l).1.1 = .ok (some later)) : row < later := by
  rcases r.fetch_cases l with ⟨own, got, -⟩ | ⟨nothing, -⟩
  · rw [got] at hf
    obtain rfl := Option.some.inj (Except.ok.inj hf)
    omega
  · exact absurd hf (nothing later)

theorem read_onRow (h : r.OnRow row own) (column : Nat) : r.read row column = own.read column := by
  have on : r.tuple? row = some own := by simp [tuple?, h.tuple, h.fetches]
  rw [Result.read, on]
  rfl

theorem read_past (h : r.Past row) (column : Nat) :
    r.read row column = return .error (.staleRow row) := by
  have none : r.tuple? row = none := by
    rcases h.left with h | h
    · simp [tuple?, h]
    · simp [tuple?, h.ne']
  rw [Result.read, none]

end Result

end Engine

namespace Pool

variable {E : Engine} {h row : Nat} {d : Desk (.foreign E)} {r : Engine.Result}

abbrev HasResult (h : Nat) (r : Engine.Result) : Desk (.foreign E) → Prop :=
  Shows (fun b _ => b) h r

def booked {α : Type} (d : Desk (.foreign E)) (call : Call) (act : Engine.LedgerM α) :
    α × Desk (.foreign E) :=
  let done := act.run d.engine.ledger
  (done.1, { pool := d.pool.note call, engine := { d.engine with ledger := done.2 } })

theorem exists_handle (hr : HasResult h r d) :
    ∃ x : Handle (.foreign E), d.pool.handles[h]? = some x ∧ x.buffer = r :=
  Option.map_eq_some_iff.1 hr

theorem fetch_run (hr : HasResult h r d) :
    ((fetch h).run d).1 = (r.fetch.run d.engine.ledger).1.1 ∧
      HasResult h (r.fetch.run d.engine.ledger).1.2 ((fetch h).run d).2 ∧
      ((fetch h).run d).2.engine.ledger = (r.fetch.run d.engine.ledger).2 := by
  obtain ⟨x, hx, rfl⟩ := exists_handle hr
  have run : (fetch h).run d = ((x.buffer.fetch.run d.engine.ledger).1.1,
      { pool := (d.pool.note (.fetch h x.word)).update h fun y =>
          { y with buffer := (x.buffer.fetch.run d.engine.ledger).1.2 }
        engine := { d.engine with ledger := (x.buffer.fetch.run d.engine.ledger).2 } }) := by
    simp only [fetch, handle?, StateT.run_bind, StateT.run_get, pure_bind, hx]
    rfl
  rw [run]
  refine ⟨rfl, ?_, rfl⟩
  show ((d.pool.note _).update h _).handles[h]?.map _ = _
  rw [getElem?_update, if_pos rfl, show (d.pool.note _).handles = d.pool.handles from rfl, hx]
  rfl

theorem readCell_run (hr : HasResult h r d) (row column : Nat) :
    (readCell h row column).run d =
      let done := booked d (.read h (d.pool.word h)) (r.read row column)
      (done.1.mapError .engine, done.2) := by
  obtain ⟨x, hx, rfl⟩ := exists_handle hr
  rw [booked, word_eq hx]
  simp only [readCell, handle?, StateT.run_bind, StateT.run_get, pure_bind, hx]
  rfl

def Finds (h : Nat) (P : Engine.Result → Prop) (d : Desk (.foreign E)) : Prop :=
  ∃ r, HasResult h r d ∧ P r

variable {P : Engine.Result → Prop} {own : Engine.Tuple} {deeds : List (Deed (.foreign E))}

theorem Finds.after (hP : ∀ r l, P r → P (r.fetch.run l).1.2) (hd : Finds h P d) :
    Finds h P (Deed.after d deeds) := by
  induction deeds generalizing d with
  | nil => exact hd
  | cons deed deeds ih =>
    obtain ⟨r, hr, holds⟩ := hd
    refine ih ?_
    by_cases fetched : deed = .fetch h
    · subst fetched
      exact ⟨_, (fetch_run hr).2.1, hP r _ holds⟩
    · exact ⟨r, (Deed.spares (.inl fetched)).post hr, holds⟩

theorem Finds.past_after (hd : Finds h (row ≤ ·.fetches) d) (fetched : .fetch h ∈ deeds) :
    Finds h (·.Past row) (Deed.after d deeds) := by
  induction deeds generalizing d with
  | nil => exact absurd fetched List.not_mem_nil
  | cons deed deeds ih =>
    obtain ⟨r, hr, reached⟩ := hd
    by_cases first : deed = .fetch h
    · subst first
      have now : Finds h (·.Past row) ((fetch h).run d).2 :=
        ⟨_, (fetch_run hr).2.1, Engine.Result.past_fetch reached⟩
      show Finds h _ (Deed.after ((fetch h).run d).2 deeds)
      exact Finds.after (fun r l past => Engine.Result.past_fetch past.reached) now
    · refine ih ?_ ((List.mem_cons.1 fetched).resolve_left (Ne.symm first))
      exact ⟨r, (Deed.spares (.inl first)).post hr, reached⟩

theorem finds_onRow (fetched : ((fetch h).run d).1 = .ok (some row)) :
    ∃ own : Engine.Tuple, Finds h (·.OnRow row own) ((fetch h).run d).2 ∧ ∃ r, HasResult h r d ∧
      ((fetch h).run d).2.engine.ledger.calls.head? = some (own.given r.object) := by
  cases hx : d.pool.handles[h]? with
  | none =>
    simp only [fetch, handle?, StateT.run_bind, StateT.run_get, pure_bind, hx] at fetched
    cases fetched
  | some x =>
    have hr : HasResult h x.buffer d := Option.map_eq_some_iff.2 ⟨x, hx, rfl⟩
    obtain ⟨answer, found, books⟩ := fetch_run hr
    rw [answer] at fetched
    rcases x.buffer.fetch_cases d.engine.ledger with ⟨own, got, on, given⟩ | ⟨nothing, -⟩
    · rw [got] at fetched
      obtain rfl := Option.some.inj (Except.ok.inj fetched)
      exact ⟨own, ⟨_, found, on⟩, _, hr, books ▸ given⟩
    · exact absurd fetched (nothing row)

theorem lt_of_fetch (hd : Finds h (row ≤ ·.fetches) d) {later : Nat}
    (fetched : ((fetch h).run d).1 = .ok (some later)) : row < later := by
  obtain ⟨r, hr, reached⟩ := hd
  rw [(fetch_run hr).1] at fetched
  exact Engine.Result.lt_of_fetch reached fetched

theorem readCell_onRow {own : Engine.Tuple} (hd : Finds h (·.OnRow row own) d) (column : Nat) :
    (readCell h row column).run d =
      let done := booked d (.read h (d.pool.word h)) (own.read column)
      (done.1.mapError .engine, done.2) := by
  obtain ⟨r, hr, on⟩ := hd
  rw [readCell_run hr, Engine.Result.read_onRow on]

theorem readCell_past (hd : Finds h (·.Past row) d) (column : Nat) :
    (readCell h row column).run d =
      (.error (.engine (.staleRow row)),
        { d with pool := d.pool.note (.read h (d.pool.word h)) }) := by
  obtain ⟨r, hr, past⟩ := hd
  rw [readCell_run hr, Engine.Result.read_past past]
  rfl

end Pool

namespace Row

variable {S : Source}

def readEach (r : Row S) : List Nat → Strand (Desk S) (Except Error (List Value))
  | [] => return .ok []
  | column :: rest => do
    let cell ← Strand.whole (Pool.readCell r.handle r.token column)
    match cell >>= fun c => c.toValue.mapError Error.engine with
    | .error e => return .error e
    | .ok v => return (v :: ·) <$> (← r.readEach rest)

/-- All columns, under one read, but nobody is kept out between the cells. -/
def valuesEach (r : Row S) : Strand (Desk S) (Except Error (List Value)) := do
  match ← Strand.whole (Pool.acquire r.handle) with
  | .error e => return .error e
  | .ok () =>
    let columns ← Strand.whole r.columns
    let vs ← r.readEach (List.range columns.length)
    Strand.whole (Pool.endRead r.handle)
    return vs

theorem run_readEach (r : Row S) (columns : List Nat) :
    (r.readEach columns).run = r.readColumns columns := by
  induction columns with
  | nil => rfl
  | cons column rest ih =>
    rw [readEach, readColumns, Strand.run_bind, Strand.run_whole]
    refine bind_congr fun cell => ?_
    cases cell >>= fun c => c.toValue.mapError Error.engine with
    | error e => rfl
    | ok v => rw [← ih]; exact Strand.run_bind _ _

theorem run_valuesEach (r : Row S) : r.valuesEach.run = r.values := by
  rw [valuesEach, values, Strand.run_bind, Strand.run_whole]
  refine bind_congr fun started => ?_
  cases started with
  | error e => rfl
  | ok =>
    refine (Strand.run_bind _ _).trans (bind_congr fun columns => ?_)
    refine (Strand.run_bind _ _).trans ?_
    rw [run_readEach]
    rfl

end Row

theorem Except.mapError_eq_ok {ε ε' α : Type} {f : ε → ε'} {x : Except ε α} {a : α}
    (h : x.mapError f = .ok a) : x = .ok a := by
  cases x with
  | error e => cases h
  | ok b => exact congrArg _ (Except.ok.inj h)

namespace Pool

variable {E : Engine} {h row : Nat} {d : Desk (.foreign E)} {own : Engine.Tuple}
  {names : List String}

def Watched (h row : Nat) (own : Engine.Tuple) (names : List String) (d : Desk (.foreign E)) :
    Prop :=
  Finds h (fun r => r.OnRow row own ∨ r.Past row) d ∧ Shows (fun _ cs => cs) h names d

theorem Watched.spares {α : Type} {x : PoolM (.foreign E) α} (hd : Watched h row own names d)
    (hx : ∀ {γ : Type} {f : Engine.Result → List String → γ} {c : γ}, Spares f h c x) :
    Watched h row own names (x.run d).2 := by
  obtain ⟨⟨r, hr, holds⟩, shown⟩ := hd
  exact ⟨⟨r, hx.post hr, holds⟩, hx.post shown⟩

theorem columns_eq {S : Source} {d : Desk S} (hd : Shows (fun _ cs => cs) h names d) :
    d.pool.columns h = names := by
  obtain ⟨x, hx, rfl⟩ := Option.map_eq_some_iff.1 hd
  rw [columns, hx]
  rfl

theorem Watched.after (hd : Watched h row own names d) (deeds : List (Deed (.foreign E))) :
    Watched h row own names (Deed.after d deeds) := by
  refine ⟨hd.1.after fun r l holds => ?_, Deed.columns_after hd.2⟩
  refine .inr (Engine.Result.past_fetch ?_)
  exact holds.elim (fun on => on.fetches.ge) (·.reached)

theorem readCell_safe (r : Row (.foreign E)) (column : Nat) :
    Strand.Safe (Watched r.handle r.token own names)
      (fun answer => ∀ cell, answer = .ok cell → ∃ l, ((own.read column).run l).1 = .ok cell)
      (Strand.whole (readCell r.handle r.token column)) := by
  refine Strand.Safe.whole fun d hd =>
    ⟨hd.spares (shows_frame.readCell r.handle r.token column), ?_⟩
  obtain ⟨⟨r, hr, on | past⟩, -⟩ := hd
  · intro cell hc
    rw [readCell_onRow ⟨r, hr, on⟩] at hc
    exact ⟨d.engine.ledger, Except.mapError_eq_ok hc⟩
  · intro cell hc
    rw [readCell_past ⟨r, hr, past⟩] at hc
    cases hc

theorem readEach_safe (r : Row (.foreign E)) (columns : List Nat) :
    Strand.Safe (Watched r.handle r.token own names)
      (fun answer => ∀ vs, answer = .ok vs → List.Forall₂ own.Gives columns vs)
      (r.readEach columns) := by
  induction columns with
  | nil =>
    rintro vs ⟨rfl⟩
    exact .nil
  | cons column rest ih =>
    refine (readCell_safe r column).bind fun answer read => ?_
    cases answer with
    | error e => exact nofun
    | ok cell =>
      obtain ⟨l, hl⟩ := read cell rfl
      cases hv : cell.toValue with simp only [bind, Except.bind, hv, Except.mapError]
      | error f => exact nofun
      | ok v =>
        refine ih.bind fun answer others => ?_
        cases answer with
        | error e => exact nofun
        | ok vs =>
          rintro _ ⟨rfl⟩
          exact .cons ⟨l, cell, hl, hv⟩ (others vs rfl)

theorem valuesEach_safe (r : Row (.foreign E)) :
    Strand.Safe (Watched r.handle r.token own names)
      (fun answer => ∀ vs, answer = .ok vs →
        List.Forall₂ own.Gives (List.range names.length) vs) r.valuesEach := by
  refine Strand.Safe.bind (Q := fun _ => True) (Strand.Safe.whole fun d hd =>
    ⟨hd.spares (shows_frame.acquire r.handle), trivial⟩) fun started _ => ?_
  cases started with
  | error e => exact nofun
  | ok =>
    refine Strand.Safe.bind (Q := (· = names)) (Strand.Safe.whole fun d hd =>
      ⟨hd, columns_eq hd.2⟩) fun columns same => ?_
    subst same
    refine (readEach_safe r _).bind fun answer holds => ?_
    refine Strand.Safe.bind (Q := fun _ => True) (Strand.Safe.whole fun d hd =>
      ⟨hd.spares (shows_frame.endRead r.handle), trivial⟩) fun _ _ => holds

/-- From the fetch of a row on, and whatever anyone does in the meantime: until the next fetch from
its result a read of the row is a call on the tuple that the fetch was given, and from then on it
makes no call, fails as stale and changes nothing. No later row has the same token, and if all
values of the row are read, one by one with others in between, they are all of that tuple. -/
theorem rows_fresh (fetched : ((fetch h).run d).1 = .ok (some row)) :
    ∃ own : Engine.Tuple,
      (∃ r, HasResult h r d ∧
        ((fetch h).run d).2.engine.ledger.calls.head? = some (own.given r.object)) ∧
      ∀ deeds : List (Deed (.foreign E)),
        let now := Deed.after ((fetch h).run d).2 deeds
        (∀ column, .fetch h ∉ deeds →
          let done := booked now (.read h (now.pool.word h)) (own.read column)
          (readCell h row column).run now = (done.1.mapError .engine, done.2) ∧
          ∃ handing value, Engine.Ledger.Extends
            (Engine.Ledger.asking .tupleGetValue own.object [toString column] handing value ::
              now.engine.ledger.calls) done.2.engine.ledger) ∧
        (∀ column, .fetch h ∈ deeds →
          (readCell h row column).run now =
            (.error (.engine (.staleRow row)),
              { now with pool := now.pool.note (.read h (now.pool.word h)) })) ∧
        (∀ later, ((fetch h).run now).1 = .ok (some later) → row < later) ∧
        ∀ (index : Nat) (others : List (List (Deed (.foreign E)))) vs,
          ((Row.valuesEach ⟨h, row, index⟩).amid
            (others.map fun deeds d => Deed.after d deeds) now).1 = .ok vs →
          List.Forall₂ own.Gives (List.range (now.pool.columns h).length) vs := by
  obtain ⟨own, ⟨r, hr, on⟩, given⟩ := finds_onRow fetched
  -- Tokens are counts of fetches, so one that was passed never comes back.
  have reached : Finds h (row ≤ ·.fetches) ((fetch h).run d).2 := ⟨r, hr, on.fetches.ge⟩
  refine ⟨own, given, fun deeds => ⟨?_, ?_, ?_, ?_⟩⟩
  · intro column unfetched
    exact ⟨readCell_onRow ⟨r, Deed.buffer_after unfetched hr, on⟩ column, own.read_asks column _⟩
  · exact fun column later => readCell_past (reached.past_after later) column
  · intro later
    exact lt_of_fetch (reached.after fun r l holds => (Engine.Result.past_fetch holds).reached)
  · intro index others vs
    obtain ⟨x, hx, -⟩ := exists_handle hr
    have watched : Watched h row own x.columns ((fetch h).run d).2 :=
      ⟨⟨r, hr, .inl on⟩, Option.map_eq_some_iff.2 ⟨x, hx, rfl⟩⟩
    rw [columns_eq (watched.after deeds).2]
    refine (valuesEach_safe ⟨h, row, index⟩).amid ?_ (watched.after deeds) vs
    intro other mem now hn
    obtain ⟨between, -, rfl⟩ := List.mem_map.1 mem
    exact hn.after between

def twoRows : Desk (.foreign (Engine.Script.engine {})) where
  pool :=
    { link := ⟨⟨.connection, 1⟩, 0⟩
      mode := .inline
      handles := #[
        { buffer :=
            { object := ⟨.result, 1⟩
              turns := [Engine.Script.row {} [({}, .plain 23 true (.integer 7))],
                Engine.Script.row {} [({}, .plain 23 true (.integer 8))]] }
          columns := ["n"] }] }
  engine := { loader := fun _ => .refused "no such file", named := none, engine := () }

/-- The second fetch makes the first row stale. -/
theorem rows_fresh_twoRows :
    ((fetch 0).run twoRows).1 = .ok (some (1 : Nat)) ∧
      ((readCell 0 (1 : Nat) 0).run (Deed.after ((fetch 0).run twoRows).2 [.fetch 0])).1 =
        .error (.engine (.staleRow 1)) := by
  have fetched : ((fetch 0).run twoRows).1 = .ok (some (1 : Nat)) := rfl
  obtain ⟨own, -, fresh⟩ := rows_fresh fetched
  obtain ⟨-, stale, -⟩ := fresh [.fetch 0]
  exact ⟨fetched, by rw [stale 0 List.mem_cons_self]⟩

end Pool

end QueryLease

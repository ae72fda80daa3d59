import QueryLease.Engine.Script
import QueryLease.Pool.Read
import QueryLease.Proofs.Pool.Lifecycle
import QueryLease.Source.Foreign

namespace QueryLease

section

variable {ε α β : Type} {f : α → Except ε β} {xs : List α}

theorem mapM_eq_ok {ys : List β} :
    xs.mapM f = .ok ys ↔ List.Forall₂ (fun x y => f x = .ok y) xs ys := by
  induction xs generalizing ys with
  | nil => cases ys <;> simp [pure, Except.pure]
  | cons x xs ih =>
    rw [List.mapM_cons]
    cases hx : f x with
    | error e => cases ys <;> simp [bind, Except.bind, hx]
    | ok y =>
      cases hs : xs.mapM f with
      | error e => cases ys <;> simp [bind, Except.bind, ← ih, hs, hx]
      | ok zs => cases ys <;> simp [bind, Except.bind, pure, Except.pure, ← ih, hs, hx]

theorem mapM_eq_error {e : ε} : xs.mapM f = .error e ↔
    ∃ k : Nat, xs[k]?.map f = some (.error e) ∧ ∀ j < k, ∃ y, xs[j]?.map f = some (.ok y) := by
  induction xs with
  | nil => simp [pure, Except.pure]
  | cons x xs ih =>
    rw [List.mapM_cons]
    cases hx : f x with
    | error e' =>
      show Except.error e' = Except.error e ↔ _
      constructor
      · rintro ⟨rfl⟩
        exact ⟨0, congrArg some hx, fun j hj => absurd hj (Nat.not_lt_zero j)⟩
      · rintro ⟨k, hk, first⟩
        cases k with
        | zero => exact congrArg _ (Except.error.inj (hx.symm.trans (Option.some.inj hk)))
        | succ k =>
          obtain ⟨y, hy⟩ := first 0 (Nat.succ_pos k)
          cases hx.symm.trans (Option.some.inj hy)
    | ok y =>
      have rest : (Except.ok y >>= fun y => xs.mapM f >>= fun ys => pure (y :: ys)) = .error e ↔
          xs.mapM f = .error e := by
        cases xs.mapM f <;> simp [bind, Except.bind, pure, Except.pure]
      rw [rest, ih]
      constructor
      · rintro ⟨k, hk, first⟩
        refine ⟨k + 1, hk, fun j hj => ?_⟩
        cases j with
        | zero => exact ⟨y, congrArg some hx⟩
        | succ j => exact first j (Nat.lt_of_succ_lt_succ hj)
      · rintro ⟨k, hk, first⟩
        cases k with
        | zero => cases hx.symm.trans (Option.some.inj hk)
        | succ k => exact ⟨k, hk, fun j hj => first (j + 1) (Nat.succ_lt_succ hj)⟩

theorem mapM_range_eq_ok {f : Nat → Except ε β} {n : Nat} {ys : List β} :
    (List.range n).mapM f = .ok ys ↔
      ys.length = n ∧ ∀ (k : Nat) (y : β), ys[k]? = some y → f k = .ok y := by
  rw [mapM_eq_ok, List.forall₂_iff_get]
  constructor
  · rintro ⟨same, each⟩
    refine ⟨same.symm.trans List.length_range, fun k y hy => ?_⟩
    obtain ⟨hk, rfl⟩ := List.getElem?_eq_some_iff.1 hy
    have := each k (same ▸ hk) hk
    rwa [List.get_eq_getElem, List.getElem_range] at this
  · rintro ⟨same, each⟩
    refine ⟨List.length_range.trans same.symm, fun k _ hk => ?_⟩
    rw [List.get_eq_getElem, List.getElem_range]
    exact each k _ (List.getElem?_eq_getElem hk)

theorem mapM_range_eq_error {f : Nat → Except ε β} {n : Nat} {e : ε} :
    (List.range n).mapM f = .error e ↔
      ∃ k < n, f k = .error e ∧ ∀ j < k, ∃ y, f j = .ok y := by
  have at_iff {k : Nat} {y : Except ε β} :
      (List.range n)[k]?.map f = some y ↔ k < n ∧ f k = y := by
    rw [Option.map_eq_some_iff]
    constructor
    · rintro ⟨j, hj, rfl⟩
      obtain ⟨hk, rfl⟩ := List.getElem?_eq_some_iff.1 hj
      exact ⟨by rwa [List.length_range] at hk, by rw [List.getElem_range]⟩
    · rintro ⟨hk, rfl⟩
      exact ⟨k, List.getElem?_range hk, rfl⟩
  simp only [mapM_eq_error, at_iff]
  constructor
  · rintro ⟨k, ⟨hk, failed⟩, first⟩
    exact ⟨k, hk, failed, fun j hj => (first j hj).imp fun y => And.right⟩
  · rintro ⟨k, hk, failed, first⟩
    exact ⟨k, ⟨hk, failed⟩, fun j hj => (first j hj).imp fun y => .intro (hj.trans hk)⟩

end

variable {S : Source} {α : Type}

/-- In the states `I`, which reading does not leave, these are the cells of a row. -/
structure Source.Steady (S : Source) (link : S.Link) (b : S.Buffer) (row : S.Row)
    (I : S.State → Prop) (cell : Nat → Except Fault Cell) : Prop where
  answer : ∀ {s} column, I s → (S.read link b row column s).1 = cell column
  kept : ∀ {s} column, I s → I (S.read link b row column s).2

def Lease.Stage.refusal? : Stage → Option Error
  | opened => none
  | closing => some .closing
  | closed => some .released

open Pool

theorem Lease.Word.acquire_refused {w : Word} {e : Error} (refused : w.stage.refusal? = some e) :
    ∃ refusal, w.acquire = .error refusal ∧ refusal.error = e := by
  cases hw : w.stage with rw [hw] at refused
  | opened => cases refused
  | closing => exact ⟨.closing, acquire_closing hw, Option.some.inj refused⟩
  | closed => exact ⟨.released, acquire_closed hw, Option.some.inj refused⟩

namespace Row

variable {r : Row S} {link : S.Link} {b : S.Buffer} {columns : List String} {I : S.State → Prop}
  {cell : Nat → Except Fault Cell} {w v : Lease.Word} {d : Desk S} {column : Nat} {name : String}

/-- The handle of a row as a reader meets it, with a source in one of the states `I`. -/
structure Sees (r : Row S) (link : S.Link) (b : S.Buffer) (columns : List String)
    (I : S.State → Prop) (w : Lease.Word) (d : Desk S) : Prop where
  handle : ∃ x, d.pool.handles[r.handle]? = some x ∧ x.buffer = b ∧ x.columns = columns ∧ x.word = w
  link : d.pool.link = link
  state : I d.engine

def Legible (r : Row S) (link : S.Link) (b : S.Buffer) (columns : List String)
    (I : S.State → Prop) (d : Desk S) : Prop :=
  ∃ w, w.stage = .opened ∧ w.full = false ∧ r.Sees link b columns I w d

def valueOf (cell : Nat → Except Fault Cell) (column : Nat) : Except Error Value :=
  (cell column >>= Cell.toValue).mapError .engine

namespace Sees

theorem word (s : r.Sees link b columns I w d) : d.pool.word r.handle = w := by
  obtain ⟨x, hx, -, -, hw⟩ := s.handle
  rw [word_eq hx, hw]

theorem columns_eq (s : r.Sees link b columns I w d) : d.pool.columns r.handle = columns := by
  obtain ⟨x, hx, -, hc, -⟩ := s.handle
  rw [Pool.columns, hx, ← hc]
  rfl

theorem reword (s : r.Sees link b columns I w d) (v : Lease.Word) :
    r.Sees link b columns I v { d with pool := d.pool.reword r.handle v 0 } where
  handle := by
    obtain ⟨x, hx, hb, hc, -⟩ := s.handle
    exact ⟨_, getElem?_reword d.pool 0 hx, hb, hc, rfl⟩
  link := s.link
  state := s.state

end Sees

theorem acquire_sees (granted : w.acquire = .ok v) :
    Keeps (r.Sees link b columns I w) (Pool.acquire r.handle) fun started d =>
      started = .ok () ∧ r.Sees link b columns I v d := by
  refine Alike.keeps fun d s => ?_
  rw [acquire_run_ok (s.word ▸ granted)]
  exact ⟨rfl, s.reword v⟩

theorem endRead_sees (ended : v.endRead = (false, w)) :
    Keeps (r.Sees link b columns I v) (Pool.endRead r.handle) fun _ =>
      r.Sees link b columns I w := by
  refine Alike.keeps fun d s => ?_
  rw [endRead_run (s.word ▸ ended)]
  exact s.reword w

theorem readCell_sees (steady : S.Steady link b r.token I cell) (column : Nat) :
    Keeps (r.Sees link b columns I w) (Pool.readCell r.handle r.token column) fun answer d =>
      answer = (cell column).mapError .engine ∧ r.Sees link b columns I w d := by
  refine Alike.keeps fun d s => ?_
  obtain ⟨x, hx, rfl, hc, hw⟩ := s.handle
  obtain rfl := s.link
  have run : (Pool.readCell r.handle r.token column).run d =
      let found := S.read d.pool.link x.buffer r.token column d.engine
      (found.1.mapError .engine, ⟨d.pool.note (.read r.handle x.word), found.2⟩) := by
    simp only [Pool.readCell, handle?, StateT.run_bind, StateT.run_get, pure_bind, hx]
    rfl
  rw [run]
  exact ⟨congrArg (Except.mapError Error.engine) (steady.answer column s.state),
    ⟨x, hx, rfl, hc, hw⟩, rfl, steady.kept column s.state⟩

theorem beginRead_sees (steady : S.Steady link b r.token I cell) (granted : w.acquire = .ok v)
    (ended : v.endRead = (false, w)) (column : Nat) :
    Keeps (r.Sees link b columns I w) (r.beginRead column) fun answer d =>
      answer = (cell column).mapError .engine ∧
        r.Sees link b columns I (if answer.isOk then v else w) d := by
  refine (acquire_sees granted).bind fun started => Alike.assume fun ok => ok ▸ ?_
  refine (readCell_sees steady column).bind fun answer => Alike.assume fun found => ?_
  cases answer with
  | error e => exact (endRead_sees ended).bind fun _ => Alike.of_pure fun d s => ⟨found, s⟩
  | ok x => exact Alike.of_pure fun d s => ⟨found, s⟩

theorem withCell_sees (steady : S.Steady link b r.token I cell) (granted : w.acquire = .ok v)
    (ended : v.endRead = (false, w)) (s : r.Sees link b columns I w d) (column : Nat)
    (look : Cell → PoolM S α) :
    (∀ fault, cell column = .error fault →
      ((r.withCell id column look).run d).1 = .error (.engine fault)) ∧
    ∀ x, cell column = .ok x → ∃ during, r.Sees link b columns I v during ∧
      (r.withCell id column look).run d =
        (.ok ((look x).run during).1, ((Pool.endRead r.handle).run ((look x).run during).2).2) := by
  obtain ⟨answer, seen⟩ := (beginRead_sees steady granted ended column).post s
  have run : (r.withCell id column look).run d = _ := StateT.run_bind (r.beginRead column) _ d
  generalize (r.beginRead column).run d = begun at answer seen run
  obtain ⟨outcome, during⟩ := begun
  subst answer
  refine ⟨fun fault failed => ?_, fun x found => ?_⟩
  · rw [failed] at run
    exact run ▸ rfl
  · rw [found] at run seen
    exact ⟨during, seen, run⟩

theorem read_sees {take : Cell → Except Fault α} (steady : S.Steady link b r.token I cell)
    (granted : w.acquire = .ok v) (ended : v.endRead = (false, w)) (column : Nat) :
    Keeps (r.Sees link b columns I w) (r.read column take) fun answer d =>
      answer = (cell column >>= take).mapError .engine ∧ r.Sees link b columns I w d := by
  refine Alike.bind (q := fun taken d =>
    taken >>= id = (cell column >>= take).mapError .engine ∧ r.Sees link b columns I w d) ?_
    fun taken => Alike.of_pure fun d => id
  refine (beginRead_sees steady granted ended column).bind fun answer =>
    Alike.assume fun found => ?_
  cases hc : cell column with rw [hc] at found
  | error fault => exact found ▸ Alike.of_pure fun d s => ⟨rfl, s⟩
  | ok x =>
    subst found
    exact Alike.bind (q := fun taken d => taken = (take x).mapError .engine ∧
      r.Sees link b columns I v d) (Alike.of_pure fun d s => ⟨rfl, s⟩) fun taken =>
        Alike.assume fun same => (endRead_sees ended).bind fun _ =>
          Alike.of_pure fun d s => ⟨same, s⟩

theorem readColumns_sees (steady : S.Steady link b r.token I cell) (indices : List Nat) :
    Keeps (r.Sees link b columns I w) (r.readColumns indices) fun answer d =>
      answer = indices.mapM (valueOf cell) ∧ r.Sees link b columns I w d := by
  induction indices with
  | nil => exact Alike.of_pure fun d s => ⟨rfl, s⟩
  | cons column rest ih =>
    rw [List.mapM_cons]
    refine (readCell_sees steady column).bind fun answer => Alike.assume fun found => ?_
    have value : (answer >>= fun c => c.toValue.mapError Error.engine) = valueOf cell column := by
      rw [found, valueOf]
      cases cell column <;> rfl
    rw [value]
    cases valueOf cell column with
    | error e => exact Alike.of_pure fun d s => ⟨rfl, s⟩
    | ok v =>
      refine ih.bind fun vs => Alike.assume fun same => Alike.of_pure fun d s => ⟨?_, s⟩
      rw [same]
      cases rest.mapM (valueOf cell) <;> rfl

theorem values_sees (steady : S.Steady link b r.token I cell) (granted : w.acquire = .ok v)
    (ended : v.endRead = (false, w)) :
    Keeps (r.Sees link b columns I w) r.values fun answer d =>
      answer = (List.range columns.length).mapM (valueOf cell) ∧
        r.Sees link b columns I w d := by
  refine (acquire_sees granted).bind fun started => Alike.assume fun ok => ok ▸ ?_
  refine Alike.bind (q := fun found d => found = columns ∧ r.Sees link b columns I v d)
    (Alike.keeps fun d s => ⟨s.columns_eq, s⟩) fun found => Alike.assume fun same => same ▸ ?_
  exact (readColumns_sees steady _).bind fun vs => Alike.assume fun found =>
    (endRead_sees ended).bind fun _ => Alike.of_pure fun d s => ⟨found, s⟩

theorem checkColumn_run (r : Row S) (column : Nat) (d : Desk S) : (r.checkColumn column).run d =
    (if column < (d.pool.columns r.handle).length then .ok ()
      else .error (.indexOutOfRange column (d.pool.columns r.handle).length), d) := rfl

theorem getValue_run_value (inside : column < (d.pool.columns r.handle).length) :
    (r.getValue column).run d = (r.value column).run d := by
  rw [getValue, StateT.run_bind, checkColumn_run, if_pos inside]
  rfl

theorem getValue_run_outside (outside : (d.pool.columns r.handle).length ≤ column) :
    (r.getValue column).run d =
      (.error (.indexOutOfRange column (d.pool.columns r.handle).length), d) := by
  rw [getValue, StateT.run_bind, checkColumn_run, if_neg (Nat.not_lt.2 outside)]
  rfl

theorem getByName_eq (r : Row S) (name : String) : r.getByName name =
    r.columns >>= fun columns =>
      (columns.idxOf? name).elim (return .error (.unknownColumn name)) r.getValue := by
  unfold getByName
  refine bind_congr fun columns => ?_
  cases columns.idxOf? name <;> rfl

theorem getByName_run_known (first : (d.pool.columns r.handle).idxOf? name = some column) :
    (r.getByName name).run d = (r.getValue column).run d := by
  rw [getByName_eq]
  show ((((d.pool.columns r.handle).idxOf? name).elim _ r.getValue).run d) = _
  rw [first]
  rfl

theorem getByName_run_unknown (unknown : name ∉ d.pool.columns r.handle) :
    (r.getByName name).run d = (.error (.unknownColumn name), d) := by
  rw [getByName_eq]
  show ((((d.pool.columns r.handle).idxOf? name).elim _ r.getValue).run d) = _
  rw [List.idxOf?_eq_none_iff.2 unknown]
  rfl

theorem acquire_run_refused {e : Error}
    (refused : (d.pool.word r.handle).stage.refusal? = some e) :
    (Pool.acquire r.handle).run d = (.error e, d) := by
  obtain ⟨refusal, hw, rfl⟩ := Lease.Word.acquire_refused refused
  exact acquire_run_error hw

theorem values_run_refused {e : Error}
    (refused : (d.pool.word r.handle).stage.refusal? = some e) :
    r.values.run d = (.error e, d) := by
  rw [values, StateT.run_bind, acquire_run_refused refused]
  rfl

theorem withCell_run_refused {e : Error}
    (refused : (d.pool.word r.handle).stage.refusal? = some e) (column : Nat)
    (look : Cell → PoolM S α) : (r.withCell id column look).run d = (.error e, d) := by
  show ((r.beginRead column >>= _).run d) = _
  rw [StateT.run_bind, beginRead, StateT.run_bind, acquire_run_refused refused]
  rfl

theorem read_run_refused {e : Error} {take : Cell → Except Fault α}
    (refused : (d.pool.word r.handle).stage.refusal? = some e) (column : Nat) :
    (r.read column take).run d = (.error e, d) := by
  rw [read, StateT.run_bind, withCell_run_refused refused]
  rfl

theorem idxOf?_of_first {names : List String} (here : names[column]? = some name)
    (first : name ∉ names.take column) : names.idxOf? name = some column := by
  obtain ⟨hc, rfl⟩ := List.getElem?_eq_some_iff.1 here
  refine List.idxOf?_eq_some_iff.2 ⟨hc, rfl, fun j hj same => first ?_⟩
  exact List.mem_take_iff_getElem.2 ⟨j, by omega, same⟩

/-- All ways to read the columns come to what they were found to be, and leave the row to be read
again. -/
structure Agrees (r : Row S) (columns : List String) (cell : Nat → Except Fault Cell)
    (found : Nat → Except Error Value) (legible : Desk S → Prop) (d : Desk S) : Prop where
  values_ok : ∀ vs, (r.values.run d).1 = .ok vs ↔
    vs.length = columns.length ∧ ∀ (c : Nat) (v : Value), vs[c]? = some v → found c = .ok v
  values_error : ∀ e, (r.values.run d).1 = .error e ↔
    ∃ c < columns.length, found c = .error e ∧ ∀ k < c, ∃ v, found k = .ok v
  values_legible : legible (r.values.run d).2
  getValue : ∀ c < columns.length,
    ((r.getValue c).run d).1 = found c ∧ legible ((r.getValue c).run d).2
  value : ∀ c < columns.length, (r.checkColumn c).run d = (.ok (), d) ∧
    ((r.value c).run d).1 = found c ∧ legible ((r.value c).run d).2
  converted : ∀ c < columns.length, found c = (cell c >>= Cell.toValue).mapError .engine
  withCell : ∀ c < columns.length, ∀ (α : Type) (look : Cell → PoolM S α),
    (∀ fault, cell c = .error fault →
      ((r.withCell id c look).run d).1 = .error (.engine fault)) ∧
    ∀ x, cell c = .ok x →
      ∃ during, ((r.withCell id c look).run d).1 = .ok ((look x).run during).1
  isNull : ∀ c < columns.length, legible ((r.isNull c).run d).2 ∧
    ((r.isNull c).run d).1 = ((cell c).map Cell.isNull).mapError .engine ∧
    (((r.isNull c).run d).1 = .ok true ↔ cell c = .ok .null)
  getByName : ∀ (c : Nat) (name : String), columns[c]? = some name → name ∉ columns.take c →
    ((r.getByName name).run d).1 = found c ∧ legible ((r.getByName name).run d).2

/-- All ways to read a column that is there end in the same error and change nothing. -/
structure Refuses (r : Row S) (e : Error) (d : Desk S) : Prop where
  values : r.values.run d = (.error e, d)
  column : ∀ c < (d.pool.columns r.handle).length, (r.getValue c).run d = (.error e, d) ∧
    (r.checkColumn c).run d = (.ok (), d) ∧ (r.value c).run d = (.error e, d) ∧
    (r.isNull c).run d = (.error e, d) ∧
    ∀ (α : Type) (look : Cell → PoolM S α), (r.withCell id c look).run d = (.error e, d)
  getByName : ∀ name ∈ d.pool.columns r.handle, (r.getByName name).run d = (.error e, d)

/-- Whoever asks for a column that is not there is told so, and nothing is changed. -/
structure Guards (r : Row S) (d : Desk S) : Prop where
  column : ∀ c, (d.pool.columns r.handle).length ≤ c →
    (r.checkColumn c).run d =
      (.error (.indexOutOfRange c (d.pool.columns r.handle).length), d) ∧
    (r.getValue c).run d = (.error (.indexOutOfRange c (d.pool.columns r.handle).length), d)
  getByName : ∀ name ∉ d.pool.columns r.handle,
    (r.getByName name).run d = (.error (.unknownColumn name), d)

theorem guards (r : Row S) (d : Desk S) : r.Guards d where
  column c outside :=
    ⟨by rw [checkColumn_run, if_neg (Nat.not_lt.2 outside)], getValue_run_outside outside⟩
  getByName name := getByName_run_unknown

theorem refuses {e : Error} (refused : (d.pool.word r.handle).stage.refusal? = some e) :
    r.Refuses e d where
  values := values_run_refused refused
  column c inside := by
    refine ⟨?_, by rw [checkColumn_run, if_pos inside], read_run_refused refused c,
      read_run_refused refused c, fun α look => withCell_run_refused refused c look⟩
    rw [getValue_run_value inside]
    exact read_run_refused refused c
  getByName name known := by
    obtain ⟨c, first⟩ := Option.isSome_iff_exists.1 (List.isSome_idxOf?.2 known)
    obtain ⟨inside, -⟩ := List.idxOf?_eq_some_iff.1 first
    rw [getByName_run_known first, getValue_run_value inside]
    exact read_run_refused refused c

theorem isNull_eq_true {answer : Except Fault Cell} :
    (answer.map Cell.isNull).mapError Error.engine = .ok true ↔ answer = .ok .null := by
  cases answer with
  | error fault => simp [Except.map, Except.mapError]
  | ok x => cases x <;> simp [Except.map, Except.mapError, Cell.isNull]

namespace Legible

theorem columns_eq (s : r.Legible link b columns I d) : d.pool.columns r.handle = columns := by
  obtain ⟨w, -, -, sees⟩ := s
  exact sees.columns_eq

theorem values (steady : S.Steady link b r.token I cell) (s : r.Legible link b columns I d) :
    (r.values.run d).1 = (List.range columns.length).mapM (valueOf cell) ∧
      r.Legible link b columns I (r.values.run d).2 := by
  obtain ⟨w, opened, room, sees⟩ := s
  obtain ⟨v, granted, ended⟩ := Lease.Word.acquire_endRead opened room
  obtain ⟨answer, after⟩ := (values_sees steady granted ended).post sees
  exact ⟨answer, w, opened, room, after⟩

theorem read (steady : S.Steady link b r.token I cell) (s : r.Legible link b columns I d)
    (column : Nat) (take : Cell → Except Fault α) :
    ((r.read column take).run d).1 = (cell column >>= take).mapError .engine ∧
      r.Legible link b columns I ((r.read column take).run d).2 := by
  obtain ⟨w, opened, room, sees⟩ := s
  obtain ⟨v, granted, ended⟩ := Lease.Word.acquire_endRead opened room
  obtain ⟨answer, after⟩ := (read_sees steady granted ended column).post sees
  exact ⟨answer, w, opened, room, after⟩

theorem getValue (steady : S.Steady link b r.token I cell) (s : r.Legible link b columns I d)
    (inside : column < columns.length) :
    ((r.getValue column).run d).1 = valueOf cell column ∧
      r.Legible link b columns I ((r.getValue column).run d).2 := by
  rw [getValue_run_value (s.columns_eq ▸ inside)]
  exact s.read steady column _

theorem agrees {found : Nat → Except Error Value} (steady : S.Steady link b r.token I cell)
    (s : r.Legible link b columns I d) (same : ∀ c < columns.length, found c = valueOf cell c) :
    r.Agrees columns cell found (r.Legible link b columns I) d where
  values_ok vs := by
    rw [(s.values steady).1, mapM_range_eq_ok]
    refine and_congr_right fun length => forall₃_congr fun c v hv => ?_
    rw [same c (length ▸ (List.getElem?_eq_some_iff.1 hv).1)]
  values_error e := by
    rw [(s.values steady).1, mapM_range_eq_error]
    refine exists_congr fun c => and_congr_right fun inside => ?_
    rw [same c inside]
    refine and_congr_right fun _ => forall₂_congr fun k hk => ?_
    rw [same k (hk.trans inside)]
  values_legible := (s.values steady).2
  getValue c inside := by
    rw [same c inside]
    exact s.getValue steady inside
  value c inside := by
    rw [same c inside, checkColumn_run, s.columns_eq, if_pos inside]
    exact ⟨rfl, s.read steady c _⟩
  converted c inside := same c inside
  withCell c inside α look := by
    obtain ⟨w, opened, room, sees⟩ := s
    obtain ⟨v, granted, ended⟩ := Lease.Word.acquire_endRead opened room
    obtain ⟨failed, seen⟩ := withCell_sees steady granted ended sees c look
    exact ⟨failed, fun x hx => (seen x hx).imp fun during run => congrArg Prod.fst run.2⟩
  isNull c inside := by
    obtain ⟨answer, after⟩ := s.read steady c fun x => .ok x.isNull
    have seen : ((r.isNull c).run d).1 = ((cell c).map Cell.isNull).mapError .engine :=
      answer.trans (by cases cell c <;> rfl)
    exact ⟨after, seen, by rw [seen, isNull_eq_true]⟩
  getByName c name here first := by
    have inside := (List.getElem?_eq_some_iff.1 here).1
    rw [getByName_run_known (s.columns_eq.symm ▸ idxOf?_of_first here first), same c inside]
    exact s.getValue steady inside

end Legible

/-- While a handle is open and its source steady, it makes no difference by which way a column is
read, or when: all ways come to what `getValue` has found at any such moment. Once the handle is
closed all ways tell so, but whoever asks for a column that is not there is told that, in any case
and before anything is done. -/
theorem read_paths_agree (steady : S.Steady link b r.token I cell) :
    (∀ d e, r.Legible link b columns I d → r.Legible link b columns I e →
      r.Agrees columns cell (fun c => ((r.getValue c).run d).1) (r.Legible link b columns I) e) ∧
    (∀ d error, (d.pool.word r.handle).stage.refusal? = some error → r.Refuses error d) ∧
    ∀ d, r.Guards d := by
  refine ⟨fun d e sd se => ?_, fun d error => refuses, guards r⟩
  exact se.agrees steady fun c inside => (sd.getValue steady inside).1

end Row

namespace Engine.Tuple

def mixed : Tuple where
  object := some ⟨.tuple, 1⟩
  column _ column :=
    ([.plain 23 true (.integer 7), .null, .plain 50 true (.text { bytes := some [0xff] })] :
      List Answers)[column]?.elim (.refusal, .null) fun answers => ({}, answers)

def mixedCell (column : Nat) : Except Fault Cell :=
  ([.integer 7, .null, .text [0xff]] : List Cell)[column]?.elim
    (.error (.refused .tupleGetValue)) .ok

def mixedResult : Result where
  object := ⟨.result, 1⟩
  turns := []
  tuple := some mixed
  fetches := 1

variable {E : Engine}

theorem steady_mixed (link : Link) :
    (Source.foreign E).Steady link mixedResult (1 : Nat) (fun _ => True) mixedCell where
  answer {s} column _ := by
    show ((mixedResult.read 1 column).run s.ledger).1 = _
    rcases column with _ | _ | _ | column <;> rfl
  kept _ _ := trivial

end Engine.Tuple

namespace Row

open Engine.Tuple

def mixedDesk : Desk (.foreign (Engine.Script.engine {})) where
  pool :=
    { link := ⟨⟨.connection, 1⟩, 0⟩
      mode := .inline
      handles := #[{ buffer := mixedResult, columns := ["n", "m", "n"] }] }
  engine := { loader := fun _ => .refused "no such file", named := none, engine := () }

/-- The text decides how reading the whole row ends, but it can be looked at and is not null. -/
theorem read_paths_agree_mixed :
    let r : Row (.foreign (Engine.Script.engine {})) := ⟨0, (1 : Nat), 0⟩
    (Source.foreign (Engine.Script.engine {})).Steady mixedDesk.pool.link mixedResult (1 : Nat)
        (fun _ => True) mixedCell ∧
      r.Legible mixedDesk.pool.link mixedResult ["n", "m", "n"] (fun _ => True) mixedDesk ∧
      (r.values.run mixedDesk).1 = .error (.engine (.notUtf8 .stringValue)) ∧
      ((r.isNull 2).run mixedDesk).1 = .ok false := by
  intro r
  have steady := steady_mixed (E := Engine.Script.engine {}) mixedDesk.pool.link
  have legible : r.Legible mixedDesk.pool.link mixedResult ["n", "m", "n"] (fun _ => True)
      mixedDesk := ⟨.fresh, by decide, by decide, ⟨_, rfl, rfl, rfl, rfl⟩, rfl, trivial⟩
  have agrees := (read_paths_agree (r := r) steady).1 _ _ legible legible
  have found (c : Nat) (inside : c < 3) := agrees.converted c inside
  refine ⟨steady, legible, ?_, (agrees.isNull 2 (by decide)).2.1⟩
  refine (agrees.values_error _).2 ⟨2, by decide, found 2 (by decide), fun k hk => ?_⟩
  rw [found k (by omega)]
  rcases k with _ | _ | k
  · exact ⟨_, rfl⟩
  · exact ⟨_, rfl⟩
  · omega

end Row

end QueryLease

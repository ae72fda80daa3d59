import QueryLease.Proofs.Pool.CursorWalk
import QueryLease.Proofs.Pool.Elsewhere
import QueryLease.Proofs.Pool.Freshness
import QueryLease.Proofs.Value.Conversion

namespace QueryLease

namespace Table

theorem columns_foldl_push (t : Table) (given : List (List Value)) :
    (given.foldl push t).columns = t.columns := by
  induction given generalizing t with
  | nil => rfl
  | cons vs given ih => exact ih (t.push vs)

theorem rows_foldl_push (t : Table) (given : List (List Value)) :
    (given.foldl push t).rows = t.rows ++ given.map (fit t.columns.length) := by
  induction given generalizing t with
  | nil => exact (List.append_nil _).symm
  | cons vs given ih => exact (ih (t.push vs)).trans (List.append_assoc ..)

theorem columns_ofRows (columns : List String) (given : List (List Value)) :
    (ofRows columns given).columns = columns := columns_foldl_push ..

theorem rows_ofRows (columns : List String) (given : List (List Value)) :
    (ofRows columns given).rows = given.map (fit columns.length) := rows_foldl_push ..

end Table

namespace Tables

theorem Buffer.read_of_get? {b : Buffer} {row column : Nat} {v : Value}
    (h : b.bound.table.get? row column = some v) : b.read row column = .ok (.ofValue v) := by
  unfold read
  rw [h]

def Bound.fetched (bound : Bound) (next : Nat) : Buffer := ⟨bound, next, 0⟩

namespace Bound

variable {bound : Bound} {i : Nat}

theorem fetch_fails (failing : bound.failAt = some i) :
    (bound.fetched i).fetch = (.error (.scanFailed i), bound.fetched i) := by
  simp [Buffer.fetch, Buffer.enter, Buffer.advance, Buffer.leave, fetched, failing]

theorem fetch_ends (passed : bound.failAt ≠ some i) (ended : bound.table.rows.length ≤ i) :
    (bound.fetched i).fetch = (.ok none, bound.fetched i) := by
  simp [Buffer.fetch, Buffer.enter, Buffer.advance, Buffer.leave, fetched, passed, ended]

theorem fetch_row (passed : bound.failAt ≠ some i) (more : i < bound.table.rows.length) :
    (bound.fetched i).fetch = (.ok (some i), bound.fetched (i + 1)) := by
  simp [Buffer.fetch, Buffer.enter, Buffer.advance, Buffer.leave, fetched, passed,
    Nat.not_le.2 more]

/-- The row that a walk does not pass: the one that fails, or the one after the last. -/
structure Stops (bound : Bound) (r : Nat) : Prop where
  within : r ≤ bound.table.rows.length
  passed : ∀ i < r, bound.failAt ≠ some i
  stop : bound.failAt = some r ∨ r = bound.table.rows.length

def ending (bound : Bound) (r : Nat) : Except Error Unit :=
  if bound.failAt = some r then .error (.iteration r (.scanFailed r)) else .ok ()

def handle (bound : Bound) (w : Lease.Word) (owners i : Nat) : Handle .tables where
  buffer := bound.fetched i
  columns := bound.table.columns
  word := w
  cursorTaken := true
  owners := owners

end Bound

end Tables

namespace Pool

open Tables (Buffer Bound Counters)

def Call.isFetch : Call → Bool
  | .fetch _ _ => true
  | _ => false

def Call.isRead : Call → Bool
  | .read _ _ => true
  | _ => false

def asked (h : Nat) (calls : List Call) : Nat × Nat :=
  let own := calls.filter (·.asks h)
  (own.countP Call.isFetch, own.countP Call.isRead)

theorem asked_fetch (h : Nat) (w : Lease.Word) (calls : List Call) :
    asked h (.fetch h w :: calls) = asked h calls + (1, 0) := by
  have own : Call.asks h (.fetch h w) = true := beq_self_eq_true h
  rw [asked, List.filter_cons_of_pos own, List.countP_cons_of_pos rfl,
    List.countP_cons_of_neg (by simp [Call.isRead])]
  rfl

theorem asked_read (h : Nat) (w : Lease.Word) (calls : List Call) :
    asked h (.read h w :: calls) = asked h calls + (0, 1) := by
  have own : Call.asks h (.read h w) = true := beq_self_eq_true h
  rw [asked, List.filter_cons_of_pos own, List.countP_cons_of_neg (by simp [Call.isFetch]),
    List.countP_cons_of_pos rfl]
  rfl

/-- A count of the fetches from a handle's buffer and of its reads. -/
structure Meter (h : Nat) where
  of : List Call → Counters → Nat × Nat
  fetched : ∀ w calls c, of (.fetch h w :: calls) c.fetched = of calls c + (1, 0)
  read : ∀ w calls c, of (.read h w :: calls) c.read = of calls c + (0, 1)

def Meter.noted (h : Nat) : Meter h where
  of calls _ := asked h calls
  fetched w calls _ := asked_fetch h w calls
  read w calls _ := asked_read h w calls

def Meter.counted (h : Nat) : Meter h where
  of _ c := (c.fetches, c.reads)
  fetched _ _ _ := rfl
  read _ _ _ := rfl

variable {h : Nat} {m : Meter h} {x : Handle .tables} {n : Nat × Nat} {d : Desk .tables}
  {w : Lease.Word} {b : Buffer} {row column : Nat}

structure Has (m : Meter h) (x : Handle .tables) (n : Nat × Nat) (d : Desk .tables) : Prop where
  handle : d.pool.handles[h]? = some x
  count : m.of d.pool.calls d.engine.counters = n

theorem update_has (f : Handle .tables → Handle .tables) (hd : Has m x n d) :
    Has m (f x) n { d with pool := d.pool.update h f } :=
  ⟨by rw [getElem?_update, if_pos rfl, hd.handle]; rfl, hd.count⟩

theorem claimCursor_has (untaken : x.cursorTaken = false) : Keeps (Has m x n) (claimCursor h)
    fun first d => first = true ∧ Has m { x with cursorTaken := true } n d := by
  refine Alike.keeps fun d hd => ?_
  have run : (claimCursor h).run d =
      (!x.cursorTaken,
        { d with pool := d.pool.update h fun y => { y with cursorTaken := true } }) := by
    simp only [claimCursor, handle?, StateT.run_bind, StateT.run_get, pure_bind, hd.handle]
    rfl
  rw [run, untaken]
  exact ⟨rfl, update_has (fun y => { y with cursorTaken := true }) hd⟩

theorem acquire_has (hw : x.word.acquire = .ok w) : Keeps (Has m x n) (acquire h)
    fun started d => started = .ok () ∧ Has m { x with word := w } n d := by
  refine Alike.keeps fun d hd => ?_
  rw [acquire_run_ok (word_eq hd.handle ▸ hw)]
  exact ⟨rfl, update_has (fun y => { y with word := w }) hd⟩

theorem endRead_has (hw : x.word.endRead = (false, w)) : Keeps (Has m x n) (endRead h)
    fun _ => Has m { x with word := w } n := by
  refine Alike.keeps fun d hd => ?_
  rw [endRead_run (word_eq hd.handle ▸ hw)]
  exact update_has (fun y => { y with word := w }) hd

theorem fetch_has : Keeps (Has m x n) (fetch h) fun fetched d =>
    fetched = x.buffer.fetch.1 ∧ Has m { x with buffer := x.buffer.fetch.2 } (n + (1, 0)) d := by
  refine Alike.keeps fun d hd => ?_
  have noted : Has m x (n + (1, 0))
      ⟨d.pool.note (.fetch h x.word), d.engine.count Counters.fetched⟩ :=
    ⟨hd.handle, (m.fetched ..).trans (congrArg (· + (1, 0)) hd.count)⟩
  rw [fetch_present hd.handle]
  exact ⟨rfl, update_has (fun y => { y with buffer := x.buffer.fetch.2 }) noted⟩

theorem readCell_has (row column : Nat) : Keeps (Has m x n) (readCell h row column) fun cell d =>
    cell = (x.buffer.read row column).mapError .engine ∧ Has m x (n + (0, 1)) d := by
  refine Alike.keeps fun d hd => ?_
  rw [readCell_present hd.handle]
  exact ⟨rfl, hd.handle, (m.read ..).trans (congrArg (· + (0, 1)) hd.count)⟩

theorem retain_has : Keeps (Has m x n) (retain h)
    fun _ => Has m { x with owners := x.owners + 1 } n :=
  Alike.keeps fun _ hd => update_has (fun y => { y with owners := y.owners + 1 }) hd

theorem drop_has (shared : 2 ≤ x.owners) : Keeps (Has m x n) (drop h)
    fun _ => Has m { x with owners := x.owners - 1 } n := by
  refine Alike.keeps fun d hd => ?_
  rw [drop_run_shared hd.handle shared]
  exact update_has (fun y => { y with owners := y.owners - 1 }) hd

theorem rowsLeft_has : Keeps (Has m x n) (rowsLeft h) fun left d =>
    left = x.buffer.rowsLeft ∧ Has m x n d := by
  refine Alike.keeps fun d hd => ⟨?_, hd⟩
  show d.pool.handles[h]?.elim 0 _ = _
  rw [hd.handle]
  rfl

theorem columns_has (row index : Nat) :
    Keeps (Has m x n) (Row.columns (S := .tables) ⟨h, row, index⟩) fun columns d =>
      columns = x.columns ∧ Has m x n d := by
  refine Alike.keeps fun d hd => ⟨?_, hd⟩
  show d.pool.columns h = _
  rw [columns, hd.handle]
  rfl

variable {c : Cursor .tables} {fault : Fault} {v : Lease.Word}

theorem advance_has (hc : c.handle = h) (ahead : c.exhausted = false)
    (granted : x.word.acquire = .ok v) (ended : v.endRead = (false, x.word)) :
    Keeps (Has m x n) c.advance fun moved d => moved = c.after x.buffer.fetch.1 ∧
      Has m { x with buffer := x.buffer.fetch.2 } (n + (1, 0)) d := by
  subst hc
  rw [Cursor.advance_eq ahead]
  refine (acquire_has granted).bind fun started => Alike.assume ?_
  rintro rfl
  refine fetch_has.bind fun fetched => Alike.assume ?_
  rintro rfl
  exact (endRead_has ended).bind fun _ => Alike.of_pure fun _ hd => ⟨rfl, hd⟩

theorem next_row_has (hc : c.handle = h) (ahead : c.exhausted = false)
    (granted : x.word.acquire = .ok v) (ended : v.endRead = (false, x.word))
    (fetched : x.buffer.fetch = (.ok (some row), b)) :
    Keeps (Has m x n) c.next fun moved d =>
      moved = (some (.ok ⟨h, row, c.fetched⟩), c.on row) ∧
        Has m { x with buffer := b, owners := x.owners + 1 } (n + (1, 0)) d := by
  refine (advance_has hc ahead granted ended).bind fun moved => Alike.assume ?_
  rintro rfl
  rw [fetched]
  subst hc
  have here : Keeps (Has m { x with buffer := b } (n + (1, 0))) (c.on row).currentRow fun found d =>
      found = .ok ⟨c.handle, row, c.fetched⟩ ∧
        Has m { x with buffer := b, owners := x.owners + 1 } (n + (1, 0)) d :=
    retain_has.bind fun _ => Alike.of_pure fun _ hd => ⟨rfl, hd⟩
  refine here.bind fun found => Alike.assume ?_
  rintro rfl
  exact Alike.of_pure fun _ hd => ⟨rfl, hd⟩

theorem next_last_has (hc : c.handle = h) (ahead : c.exhausted = false)
    (granted : x.word.acquire = .ok v) (ended : v.endRead = (false, x.word))
    (fetched : x.buffer.fetch = (.ok none, b)) :
    Keeps (Has m x n) c.next fun moved d =>
      moved = (none, c.exhaust) ∧ Has m { x with buffer := b } (n + (1, 0)) d := by
  refine (advance_has hc ahead granted ended).bind fun moved => Alike.assume ?_
  rintro rfl
  rw [fetched]
  exact Alike.of_pure fun _ hd => ⟨rfl, hd⟩

theorem next_failed_has (hc : c.handle = h) (ahead : c.exhausted = false)
    (granted : x.word.acquire = .ok v) (ended : v.endRead = (false, x.word))
    (fetched : x.buffer.fetch = (.error fault, b)) :
    Keeps (Has m x n) c.next fun moved d =>
      moved = (some (.error (.iteration c.fetched fault)), c.exhaust) ∧
        Has m { x with buffer := b } (n + (1, 0)) d := by
  refine (advance_has hc ahead granted ended).bind fun moved => Alike.assume ?_
  rintro rfl
  rw [fetched]
  exact Alike.of_pure fun _ hd => ⟨rfl, hd⟩

theorem map_getD_range {α : Type} (l : List α) (a : α) :
    ((List.range l.length).map fun i => l.getD i a) = l :=
  List.ext_getElem (by simp) fun i hi _ => by simp_all

def Meter.Spared (m : Meter h) (may : (Desk .tables → Desk .tables) → Prop) : Prop :=
  ∀ other, may other → ∀ x n d, Has m x n d → Has m x n (other d)

variable {may : (Desk .tables → Desk .tables) → Prop} {vs : List Value} {α : Type}

theorem Meter.Spared.whole {y : PoolM .tables α} {Q : α → Desk .tables → Prop}
    (sp : m.Spared may) (hy : Keeps (Has m x n) y Q) :
    Strand.Meets may (Has m x n) (Strand.whole y) Q :=
  .whole (fun other ho d hd => sp other ho x n d hd) hy

theorem readEach_meets (sp : m.Spared may) (hrow : x.buffer.bound.table.rows[row]? = some vs)
    (index : Nat) (columns : List Nat) (inside : ∀ c ∈ columns, c < vs.length) :
    Strand.Meets may (Has m x n) (Row.readEach (S := .tables) ⟨h, row, index⟩ columns)
      fun found d => found = .ok (columns.map fun c => vs.getD c .null) ∧
        Has m x (n + (0, columns.length)) d := by
  induction columns generalizing n with
  | nil => exact .pure fun _ hd => ⟨rfl, hd⟩
  | cons c columns ih =>
    obtain ⟨here, others⟩ := List.forall_mem_cons.1 inside
    refine (sp.whole (readCell_has row c)).bind fun cell => .assume ?_
    rintro rfl
    have found : x.buffer.bound.table.get? row c = some (vs.getD c .null) := by
      rw [Table.get?, hrow, List.getD_eq_getElem?_getD, List.getElem?_eq_getElem here]
      exact List.getElem?_eq_getElem here
    have cell : ((x.buffer.read row c).mapError Error.engine >>= fun c =>
        c.toValue.mapError Error.engine) = .ok (vs.getD c .null) := by
      rw [Buffer.read_of_get? found]
      exact congrArg (Except.mapError Error.engine) (Cell.toValue_ofValue _)
    rw [cell]
    refine (ih others).bind fun rest => .assume ?_
    rintro rfl
    refine .pure fun d hd => ⟨rfl, ?_⟩
    rwa [List.length_cons, Nat.add_comm, ← Nat.add_zero 0, ← Prod.mk_add_mk, ← add_assoc]

theorem valuesEach_meets (sp : m.Spared may) (granted : x.word.acquire = .ok v)
    (ended : v.endRead = (false, x.word)) (hrow : x.buffer.bound.table.rows[row]? = some vs)
    (width : x.columns.length = vs.length) (index : Nat) :
    Strand.Meets may (Has m x n) (Row.valuesEach (S := .tables) ⟨h, row, index⟩)
      fun found d => found = .ok vs ∧ Has m x (n + (0, vs.length)) d := by
  refine (sp.whole (acquire_has granted)).bind fun started => .assume ?_
  rintro rfl
  refine (sp.whole (columns_has row index)).bind fun columns => .assume ?_
  rintro rfl
  refine (readEach_meets (x := { x with word := v }) sp hrow index
    (List.range x.columns.length) fun c hc => width ▸ List.mem_range.1 hc).bind fun found =>
      .assume ?_
  rintro rfl
  refine (sp.whole (endRead_has ended)).bind fun _ => .pure fun d hd => ⟨?_, ?_⟩
  · rw [width, map_getD_range]
  · rw [List.length_range, width] at hd
    exact hd

end Pool

end QueryLease

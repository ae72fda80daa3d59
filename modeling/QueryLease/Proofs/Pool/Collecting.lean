import QueryLease.Proofs.Pool.Echo
import QueryLease.Proofs.Pool.Serving

namespace QueryLease

namespace Pool

open Tables (Buffer Bound Counters State)

variable {h : Nat} {m : Meter h} {x : Handle .tables} {n : Nat × Nat} {w v : Lease.Word}
  {c : Cursor .tables} {row : Nat} {may : (Desk .tables → Desk .tables) → Prop} {vs : List Value}
  {α : Type}

abbrev Sight := Row .tables × Except Error (List Value)

abbrev Seeing := StateT (List Sight) (Strand (Desk .tables))

def seeing {α : Type} (x : PoolM .tables α) : Seeing α := StateT.lift (Strand.whole x)

def look (row : Row .tables) : Seeing (Except Error (List Value)) := do
  let vs ← StateT.lift row.valuesEach
  modify (· ++ [(row, vs)])
  return vs

def collecting (h : Nat) : Seeing (Except Error (List (List Value))) := collectRows seeing h look

theorem Meter.Spared.seeing {y : PoolM .tables α} {Q : α → Desk .tables → Prop} {β : Type}
    {g : α → Seeing β} {log : List Sight} {R : β × List Sight → Desk .tables → Prop}
    (sp : m.Spared may) (hy : Keeps (Has m x n) y Q)
    (hg : ∀ a, Strand.Meets may (Q a) ((g a).run log) R) :
    Strand.Meets may (Has m x n) ((seeing y >>= g).run log) R := (sp.whole hy).lift hg

theorem look_meets (sp : m.Spared may) (granted : x.word.acquire = .ok v)
    (ended : v.endRead = (false, x.word)) (hrow : x.buffer.bound.table.rows[row]? = some vs)
    (width : x.columns.length = vs.length) (log : List Sight) :
    Strand.Meets may (Has m x n) ((look ⟨h, row, row⟩).run log)
      fun p d => p = (.ok vs, log ++ [(⟨h, row, row⟩, .ok vs)]) ∧
        Has m x (n + (0, vs.length)) d := by
  refine (valuesEach_meets sp granted ended hrow width row).lift fun found => .assume ?_
  rintro rfl
  exact .pure fun d hd => ⟨rfl, hd⟩

def sights (h : Nat) (rows : List (List Value)) (i k : Nat) : List Sight :=
  (List.range' i k).map fun j => (⟨h, j, j⟩, .ok (rows.getD j []))

theorem sights_succ (rows : List (List Value)) (i k : Nat) :
    sights h rows i (k + 1) = (⟨h, i, i⟩, .ok (rows.getD i [])) :: sights h rows (i + 1) k := rfl

variable {bound : Bound} {r i o : Nat} {n' : Nat × Nat}
  {found : List (List Value)} {log : List Sight}
  {visit : List (List Value) → Row .tables → Seeing (List (List Value) × Except Error Unit)}
  {rest : List (List Value) → Cursor .tables → Seeing (List (List Value) × Except Error Unit)}
  {R : (List (List Value) × Except Error Unit) × List Sight → Desk .tables → Prop}

theorem visitRow_stop (sp : m.Spared may) (stops : bound.Stops r)
    (granted : w.acquire = .ok v) (ended : v.endRead = (false, w)) (shared : 2 ≤ o)
    (hc : c.handle = h) (ahead : c.exhausted = false) (hr : c.fetched = r) :
    Strand.Meets may (Has m (bound.handle w o r) n)
      ((visitRow seeing id visit rest found c).run log) fun p d =>
        p = ((found, bound.ending r), log) ∧ Has m (bound.handle w (o - 1) r) (n + (1, 0)) d := by
  subst hc hr
  by_cases failing : bound.failAt = some c.fetched
  · refine sp.seeing (next_failed_has rfl ahead granted ended (Bound.fetch_fails failing))
      fun moved => .assume ?_
    rintro rfl
    refine sp.seeing (drop_has shared) fun _ => .pure fun d hd => ⟨?_, hd⟩
    rw [Bound.ending, if_pos failing]
    rfl
  · have last := (stops.stop.resolve_left failing).ge
    refine sp.seeing (next_last_has rfl ahead granted ended (Bound.fetch_ends failing last))
      fun moved => .assume ?_
    rintro rfl
    refine sp.seeing (drop_has shared) fun _ => .pure fun d hd => ⟨?_, hd⟩
    rw [Bound.ending, if_neg failing]

theorem visitRow_row (sp : m.Spared may) (stops : bound.Stops r)
    (granted : w.acquire = .ok v) (ended : v.endRead = (false, w)) (shared : 2 ≤ o)
    (hc : c.handle = h) (ahead : c.exhausted = false) (hi : c.fetched = i) (more : i < r)
    (visited : Strand.Meets may (Has m (bound.handle w (o + 1) (i + 1)) (n + (1, 0)))
      ((visit found ⟨h, i, i⟩).run log) fun p d =>
        p = ((vs :: found, .ok ()), log ++ [(⟨h, i, i⟩, .ok vs)]) ∧
          Has m (bound.handle w (o + 1) (i + 1)) n' d)
    (later : Strand.Meets may (Has m (bound.handle w o (i + 1)) n')
      ((rest (vs :: found) (c.on i)).run (log ++ [(⟨h, i, i⟩, .ok vs)])) R) :
    Strand.Meets may (Has m (bound.handle w o i) n)
      ((visitRow seeing id visit rest found c).run log) R := by
  subst hc hi
  have row := Bound.fetch_row (stops.passed _ more) (more.trans_le stops.within)
  refine sp.seeing (next_row_has rfl ahead granted ended row) fun moved => .assume ?_
  rintro rfl
  refine Strand.Meets.bind visited fun p => .assume ?_
  rintro rfl
  exact sp.seeing (drop_has (Nat.le_succ_of_le shared)) fun _ => later

def served (bound : Bound) (i k : Nat) : List (List Value) :=
  (List.range' i k).map (bound.table.rows.getD · [])

theorem visitRows_meets (sp : m.Spared may) (stops : bound.Stops r)
    (granted : w.acquire = .ok v) (ended : v.endRead = (false, w)) (shared : 2 ≤ o)
    (visited : ∀ o i found log n, i < r → Strand.Meets may (Has m (bound.handle w o (i + 1)) n)
      ((visit found ⟨h, i, i⟩).run log) fun p d =>
        p = ((bound.table.rows.getD i [] :: found, .ok ()),
          log ++ [(⟨h, i, i⟩, .ok (bound.table.rows.getD i []))]) ∧
        Has m (bound.handle w o (i + 1)) (n + (0, bound.table.columns.length)) d)
    (k i : Nat) (hk : i + k = r) (fuel : Nat) (hf : k ≤ fuel) (found : List (List Value))
    (log : List Sight) (n : Nat × Nat) (c : Cursor .tables) (hc : c.handle = h)
    (ahead : c.exhausted = false) (hi : c.fetched = i) :
    Strand.Meets may (Has m (bound.handle w o i) n)
      ((visitRows seeing id visit fuel found c).run log) fun p d =>
        p = (((served bound i k).reverse ++ found, bound.ending r),
          log ++ sights h bound.table.rows i k) ∧
        Has m (bound.handle w (o - 1) r) (n + (k + 1, k * bound.table.columns.length)) d := by
  -- On the rows to come. The fuel is an upper bound, so it never ends the walk.
  induction k generalizing i fuel found log n c with
  | zero =>
    obtain rfl : i = r := hk
    have none : log ++ sights h bound.table.rows i 0 = log := List.append_nil log
    rw [none, Nat.zero_mul]
    cases fuel with
    | zero => exact visitRow_stop sp stops granted ended shared hc ahead hi
    | succ fuel => exact visitRow_stop sp stops granted ended shared hc ahead hi
  | succ k ih =>
    obtain ⟨fuel, rfl⟩ := Nat.exists_eq_add_of_lt hf
    have more : i < r := by omega
    refine visitRow_row sp stops granted ended shared hc ahead hi more
      (visited (o + 1) i found log (n + (1, 0)) more) ?_
    have later := ih (i + 1) (by omega) (k + fuel) (by omega) (bound.table.rows.getD i [] :: found)
      (log ++ [(⟨h, i, i⟩, .ok (bound.table.rows.getD i []))])
      (n + (1, 0) + (0, bound.table.columns.length)) (c.on i) hc rfl (congrArg (· + 1) hi)
    have rows : (served bound i (k + 1)).reverse ++ found =
        (served bound (i + 1) k).reverse ++ bound.table.rows.getD i [] :: found := by
      simp [served, List.range'_succ]
    have seen : log ++ sights h bound.table.rows i (k + 1) =
        log ++ [(⟨h, i, i⟩, .ok (bound.table.rows.getD i []))] ++
          sights h bound.table.rows (i + 1) k := by
      rw [sights_succ, List.append_cons]
    have count : n + (k + 1 + 1, (k + 1) * bound.table.columns.length) =
        n + (1, 0) + (0, bound.table.columns.length) + (k + 1, k * bound.table.columns.length) := by
      ext
      · simp only [Prod.fst_add]; omega
      · simp only [Prod.snd_add, Nat.succ_mul]; omega
    rw [rows, seen, count]
    exact later

theorem take_has (untaken : x.cursorTaken = false) : Keeps (Has m x n) (Cursor.take h)
    fun taken d => taken = .ok { handle := h } ∧
      Has m { x with cursorTaken := true, owners := x.owners + 1 } n d := by
  refine (claimCursor_has untaken).bind fun first => Alike.assume ?_
  rintro rfl
  exact retain_has.bind fun _ => Alike.of_pure fun _ hd => ⟨rfl, hd⟩

theorem fold_meets (sp : m.Spared may) (stops : bound.Stops r) (granted : w.acquire = .ok v)
    (ended : v.endRead = (false, w)) (owned : o ≠ 0)
    (visited : ∀ o i found log n, i < r → Strand.Meets may (Has m (bound.handle w o (i + 1)) n)
      ((visit found ⟨h, i, i⟩).run log) fun p d =>
        p = ((bound.table.rows.getD i [] :: found, .ok ()),
          log ++ [(⟨h, i, i⟩, .ok (bound.table.rows.getD i []))]) ∧
        Has m (bound.handle w o (i + 1)) (n + (0, bound.table.columns.length)) d) :
    Strand.Meets may (Has m { bound.handle w o 0 with cursorTaken := false } n)
      ((fold seeing id h [] visit).run []) fun p d =>
        p = (((served bound 0 r).reverse, bound.ending r), sights h bound.table.rows 0 r) ∧
          Has m (bound.handle w o r) (n + (r + 1, r * bound.table.columns.length)) d := by
  refine sp.seeing (take_has rfl) fun taken => .assume ?_
  rintro rfl
  refine sp.seeing rowsLeft_has fun left => .assume ?_
  rintro rfl
  have walked := visitRows_meets (o := o + 1) (n := n) sp stops granted ended (by omega) visited
    r 0 (Nat.zero_add r) bound.table.rows.length stops.within [] [] { handle := h } rfl rfl rfl
  rw [List.append_nil, List.nil_append, Nat.add_sub_cancel] at walked
  exact walked

theorem collecting_meets (sp : m.Spared may) (stops : bound.Stops r) (granted : w.acquire = .ok v)
    (ended : v.endRead = (false, w)) (owned : o ≠ 0) :
    Strand.Meets may (Has m { bound.handle w o 0 with cursorTaken := false } n)
      ((collecting h).run []) fun p d =>
        p = ((bound.ending r).map fun _ => served bound 0 r, sights h bound.table.rows 0 r) ∧
          Has m (bound.handle w o r) (n + (r + 1, r * bound.table.columns.length)) d := by
  rw [collecting, collectRows, StateT.run_bind]
  refine (fold_meets sp stops granted ended owned fun o i found log n more => ?_).bind fun p =>
    .assume ?_
  · have here : bound.table.rows[i]? = some (bound.table.rows.getD i []) := by
      rw [List.getD_eq_getElem?_getD, List.getElem?_eq_getElem (more.trans_le stops.within)]
      rfl
    have width := bound.table.width _ (List.mem_of_getElem? here)
    have looked := look_meets (x := bound.handle w o (i + 1)) (n := n) sp granted ended here
      width.symm log
    rw [width] at looked
    refine Strand.Meets.bind looked fun p => .assume ?_
    rintro rfl
    exact .pure fun d hd => ⟨rfl, hd⟩
  · rintro rfl
    exact .pure fun d hd => ⟨by rw [List.reverse_reverse], hd⟩

def echo : Echo (S := .tables) seeing id where
  rel x y := ∀ log, Prod.fst <$> (x.run log).run = y
  pure _ _ := rfl
  bind {_ _ x _ f g} hx hf log := by
    calc Prod.fst <$> ((x >>= f).run log).run
        = Prod.fst <$> ((x.run log).run >>= fun p => ((f p.1).run p.2).run) :=
          congrArg _ (Strand.run_bind ..)
      _ = (x.run log).run >>= fun p => g p.1 := by
          rw [map_bind]
          exact bind_congr fun p => hf p.1 p.2
      _ = _ := by rw [← hx log, bind_map_left]
  lift _ _ := rfl

theorem run_collecting (h : Nat) :
    Prod.fst <$> ((collecting h).run []).run = collectRows id h Row.values := by
  refine collectRows_echo echo h (fun row log => ?_) []
  have seen : ((look row).run log).run =
      row.valuesEach.run >>= fun vs => pure (vs, log ++ [(row, vs)]) := by
    refine (Strand.run_bind ..).trans ((congrArg (· >>= _) (Strand.run_bind ..)).trans ?_)
    rw [bind_assoc]
    rfl
  rw [seen, map_bind, ← Row.run_valuesEach]
  exact bind_pure _

def Aside (h : Nat) (other : Desk .tables → Desk .tables) : Prop :=
  ∃ deeds : List (Deed .tables), (∀ deed ∈ deeds, deed.elsewhere h = true) ∧
    other = fun d => Deed.after d deeds

theorem aside_id (h : Nat) : Aside h id := ⟨[], List.forall_mem_nil _, rfl⟩

theorem spared_noted (h : Nat) : (Meter.noted h).Spared (Aside h) := by
  rintro _ ⟨deeds, he, rfl⟩ x n d hd
  have apart := Deed.apart_after he d
  refine ⟨apart.handle x hd.handle, ?_⟩
  rw [← hd.count]
  exact congrArg (fun own : List Call => (own.countP Call.isFetch, own.countP Call.isRead))
    apart.calls

theorem spared_alone (m : Meter h) : m.Spared (· = id) := by
  rintro _ rfl x n d hd
  exact hd

def Readable (h : Nat) (d : Desk .tables) : Prop :=
  ∃ x, d.pool.handles[h]? = some x ∧ x.word.stage = .opened ∧ x.word.full = false

/-- The handle takes another read, it is owned, and nobody has taken its cursor. -/
def Ready (h : Nat) (d : Desk .tables) : Prop :=
  ∃ x, d.pool.handles[h]? = some x ∧ x.word.stage = .opened ∧ x.word.full = false ∧
    x.cursorTaken = false ∧ x.owners ≠ 0

abbrev BoundTo (bound : Bound) (h : Nat) (d : Desk .tables) : Prop :=
  Shows (S := .tables) (fun b columns => (Buffer.bound b, columns)) h (bound, bound.table.columns) d

theorem unfetched_bound :
    Unfetched (S := .tables) fun b columns => (Buffer.bound b, columns) := by
  intro _ b _ columns
  show (b.enter.advance.2.bound, columns) = _
  unfold Buffer.advance
  split_ifs <;> rfl

theorem BoundTo.reads {d : Desk .tables} (hd : BoundTo bound h d) (readable : Readable h d)
    (inside : i < bound.table.rows.length) :
    ((Row.values (S := .tables) ⟨h, i, i⟩).run d).1 = .ok (bound.table.rows.getD i []) := by
  obtain ⟨x, hx, opened, room⟩ := readable
  obtain ⟨v, granted, ended⟩ := Lease.Word.acquire_endRead opened room
  obtain ⟨same, columns⟩ := Prod.mk.inj (hd.eq hx)
  have row : x.buffer.bound.table.rows[i]? = some (bound.table.rows.getD i []) := by
    rw [same, List.getD_eq_getElem?_getD, List.getElem?_eq_getElem inside]
    rfl
  have width := bound.table.width _ (List.mem_of_getElem? (same ▸ row))
  have read n := valuesEach_meets (m := .counted h) (n := n) (spared_alone _) granted ended row
    ((congrArg List.length columns).trans width.symm) i
  rw [← Row.run_valuesEach]
  exact ((read _ d ⟨hx, rfl⟩).amid rfl (List.forall_mem_nil _)).1

/-- What collecting rows is to come to, and how many of them are seen. -/
def due (rows : List (List Value)) : Option Nat → Except Error (List (List Value)) × Nat
  | some f =>
    if f ≤ rows.length then (.error (.iteration f (.scanFailed f)), f) else (.ok rows, rows.length)
  | none => (.ok rows, rows.length)

theorem stops_due (bound : Bound) : bound.Stops (due bound.table.rows bound.failAt).2 := by
  obtain ⟨t, _ | f⟩ := bound
  · exact ⟨le_rfl, fun _ _ => nofun, .inr rfl⟩
  · by_cases inside : f ≤ t.rows.length
    · rw [due, if_pos inside]
      exact ⟨inside, fun i hi same => hi.ne' (Option.some.inj same), .inl rfl⟩
    · rw [due, if_neg inside]
      exact ⟨le_rfl, fun i hi same => inside (Option.some.inj same ▸ hi.le), .inr rfl⟩

theorem ending_due (bound : Bound) :
    ((bound.ending (due bound.table.rows bound.failAt).2).map fun _ =>
      served bound 0 (due bound.table.rows bound.failAt).2) =
        (due bound.table.rows bound.failAt).1 := by
  have all : served bound 0 bound.table.rows.length = bound.table.rows := by
    rw [served, ← List.range_eq_range', map_getD_range]
  obtain ⟨t, _ | f⟩ := bound
  · exact congrArg Except.ok all
  · by_cases inside : f ≤ t.rows.length
    · rw [due, if_pos inside, Bound.ending, if_pos rfl]
      rfl
    · rw [due, if_neg inside, Bound.ending, if_neg fun same => inside (Option.some.inj same).le]
      exact congrArg Except.ok all

theorem collecting_due (sp : m.Spared may) (granted : w.acquire = .ok v)
    (ended : v.endRead = (false, w)) (owned : o ≠ 0) :
    Strand.Meets may (Has m { bound.handle w o 0 with cursorTaken := false } n)
      ((collecting h).run []) fun p d =>
        p = ((due bound.table.rows bound.failAt).1,
          sights h bound.table.rows 0 (due bound.table.rows bound.failAt).2) ∧
        Has m (bound.handle w o (due bound.table.rows bound.failAt).2)
          (n + ((due bound.table.rows bound.failAt).2 + 1,
            (due bound.table.rows bound.failAt).2 * bound.table.columns.length)) d := by
  have collected := collecting_meets (n := n) sp (stops_due bound) granted ended owned
  rwa [ending_due] at collected

variable {d₀ : Desk .tables} {text : String} {columns : List String}
  {given : List (List Value)} {failAt : Option Nat} {deeds : List (Deed .tables)}

theorem query_handle (hl : d₀.engine.queries.lookup text = some bound) :
    ((query text).run d₀).1 = .ok d₀.pool.handles.size ∧
      ((query text).run d₀).2.pool.handles[d₀.pool.handles.size]? =
        some { bound.handle .fresh 1 0 with cursorTaken := false } := by
  rw [query_known hl]
  exact ⟨rfl, (getElem?_enrol ..).trans (if_pos rfl)⟩

theorem boundTo_after (hl : d₀.engine.queries.lookup text = some bound) :
    BoundTo bound d₀.pool.handles.size (Deed.after ((query text).run d₀).2 deeds) :=
  Deed.shows_after unfetched_bound (.of_handle (query_handle hl).2)

theorem ready_after (hl : d₀.engine.queries.lookup text = some bound)
    (he : ∀ deed ∈ deeds, deed.elsewhere d₀.pool.handles.size = true) :
    Deed.fetch d₀.pool.handles.size ∉ deeds ∧
      Ready d₀.pool.handles.size (Deed.after ((query text).run d₀).2 deeds) := by
  have opened : Lease.Word.fresh.stage = .opened := by decide
  have room : Lease.Word.fresh.full = false := by decide
  exact ⟨fun fetched => bne_iff_ne.1 (he _ fetched) rfl, _,
    (Deed.apart_after he _).handle _ (query_handle hl).2, opened, room, rfl, Nat.one_ne_zero⟩

theorem start (hl : d₀.engine.queries.lookup text = some bound)
    (unfetched : Deed.fetch d₀.pool.handles.size ∉ deeds)
    (ready : Ready d₀.pool.handles.size (Deed.after ((query text).run d₀).2 deeds)) :
    ∃ w v o, w.acquire = .ok v ∧ v.endRead = (false, w) ∧ o ≠ 0 ∧
      (Deed.after ((query text).run d₀).2 deeds).pool.handles[d₀.pool.handles.size]? =
        some { bound.handle w o 0 with cursorTaken := false } := by
  obtain ⟨x, hx, opened, room, untaken, owned⟩ := ready
  obtain ⟨v, granted, ended⟩ := Lease.Word.acquire_endRead opened room
  refine ⟨x.word, v, x.owners, granted, ended, owned, hx.trans (congrArg some ?_)⟩
  have buffer := (Deed.buffer_after unfetched (.of_handle (query_handle hl).2)).eq hx
  have columns := congrArg Prod.snd ((boundTo_after hl).eq hx)
  obtain ⟨b, cs, w, taken, o⟩ := x
  obtain rfl : b = bound.fetched 0 := buffer
  obtain rfl : cs = bound.table.columns := columns
  obtain rfl : taken = false := untaken
  rfl

theorem BoundTo.rereads {d : Desk .tables} {k : Nat} (hd : BoundTo bound h d)
    (readable : Readable h d) (seen : k ≤ bound.table.rows.length) :
    ∀ sight ∈ sights h bound.table.rows 0 k, (sight.1.values.run d).1 = sight.2 := by
  intro sight hs
  obtain ⟨i, hi, rfl⟩ := List.mem_map.1 hs
  obtain ⟨-, more⟩ := List.mem_range'_1.1 hi
  exact hd.reads readable (by omega)

/-- A result of the tables serves the table that was bound to the query when the query ran, each row
as long as the columns are many. A walk over it comes to what is due, asks for no more than that,
and sees each row once; a row that was seen is the same whenever it is read again. This is so
whatever else is done meanwhile, as long as it is done elsewhere. -/
theorem tables_served
    (hl : d₀.engine.queries.lookup text = some ⟨.ofRows columns given, failAt⟩)
    (before : List (Deed .tables)) :
    let h := d₀.pool.handles.size
    let made := ((query text).run d₀).2
    let d := Deed.after made before
    let rows := given.map (Table.fit columns.length)
    let k := (due rows failAt).2
    ((query text).run d₀).1 = .ok h ∧
    ((∀ deed ∈ before, deed.elsewhere h = true) → .fetch h ∉ before ∧ Ready h d) ∧
    (.fetch h ∉ before → Ready h d →
      (∀ others : List (List (Deed .tables)),
        (∀ deeds ∈ others, ∀ deed ∈ deeds, deed.elsewhere h = true) →
        let walked := ((collecting h).run []).amid (others.map fun deeds d => Deed.after d deeds) d
        walked.1 = ((due rows failAt).1, sights h rows 0 k) ∧
        asked h walked.2.pool.calls = asked h d.pool.calls + (k + 1, k * columns.length) ∧
        ∀ later, Readable h (Deed.after walked.2 later) →
          ∀ sight ∈ walked.1.2, (sight.1.values.run (Deed.after walked.2 later)).1 = sight.2) ∧
      let alone := (collectRows id h Row.values).run d
      alone.1 = (due rows failAt).1 ∧
      alone.2.engine.counters.fetches = d.engine.counters.fetches + (k + 1) ∧
      alone.2.engine.counters.reads = d.engine.counters.reads + k * columns.length) ∧
    (∀ later, Readable h (Deed.after made later) → ∀ sight ∈ sights h rows 0 rows.length,
      (sight.1.values.run (Deed.after made later)).1 = sight.2) ∧
    ∀ f, (Fault.scanFailed f).code = 1 := by
  obtain ⟨bound, found, hcolumns, hrows, hf⟩ : ∃ bound : Bound,
      d₀.engine.queries.lookup text = some bound ∧ bound.table.columns = columns ∧
      bound.table.rows = given.map (Table.fit columns.length) ∧ bound.failAt = failAt :=
    ⟨_, hl, Table.columns_ofRows .., Table.rows_ofRows .., rfl⟩
  subst hcolumns hf
  rw [← hrows]
  refine ⟨(query_handle found).1, ready_after found, fun unfetched ready => ?_,
    fun later readable => (boundTo_after found).rereads readable le_rfl, fun _ => rfl⟩
  obtain ⟨w, v, o, granted, ended, owned, here⟩ := start found unfetched ready
  -- Amid others the meter counts the calls on the handle, alone the source's own.
  refine ⟨fun others he => ?_, ?_⟩
  · have aside : ∀ other ∈ others.map fun deeds d => Deed.after d deeds,
        Aside d₀.pool.handles.size other := by
      intro other ho
      obtain ⟨deeds, mem, rfl⟩ := List.mem_map.1 ho
      exact ⟨deeds, he deeds mem, rfl⟩
    obtain ⟨found, has⟩ := ((collecting_due (spared_noted _) granted ended owned) _
      ⟨here, rfl⟩).amid (aside_id _) aside
    refine ⟨found, has.count, fun later readable => ?_⟩
    have kept : BoundTo bound d₀.pool.handles.size (Deed.after _ later) :=
      Deed.shows_after unfetched_bound (.of_handle has.handle)
    rw [found]
    exact kept.rereads readable (stops_due bound).within
  · obtain ⟨found, has⟩ := ((collecting_due (spared_alone (.counted _)) granted ended owned) _
      ⟨here, rfl⟩).amid rfl (List.forall_mem_nil _)
    rw [← run_collecting]
    exact ⟨congrArg Prod.fst found, congrArg Prod.fst has.count, congrArg Prod.snd has.count⟩

/-- A short row and a long one, and another table bound to the same text before the walk begins. -/
theorem tables_served_uneven :
    let given : List (List Value) := [[.bool true], [.null, .bool true, .bool false]]
    let bound : Bound := ⟨.ofRows ["a", "b"] given, some 2⟩
    let d₀ : Desk .tables := ⟨{ link := (), mode := .inline }, State.register {} "q" bound⟩
    let again : Deed .tables := .source (State.register · "q" ⟨.ofRows ["c"] [[.null]], none⟩)
    d₀.engine.queries.lookup "q" = some bound ∧
      (((collecting d₀.pool.handles.size).run []).amid
        ([[again]].map fun deeds d => Deed.after d deeds)
        (Deed.after ((query "q").run d₀).2 [])).1 =
      (.error (.iteration 2 (.scanFailed 2)),
        sights d₀.pool.handles.size [[.bool true, .null], [.null, .bool true]] 0 2) := by
  intro given bound d₀ again
  have served := @tables_served d₀ "q" ["a", "b"] given (some 2) rfl []
  have fresh := served.2.1 (List.forall_mem_nil _)
  have elsewhere :
      ∀ deeds ∈ [[again]], ∀ deed ∈ deeds, deed.elsewhere d₀.pool.handles.size = true :=
    List.forall_mem_singleton.2 (List.forall_mem_singleton.2 rfl)
  refine ⟨rfl, ?_⟩
  rw [((served.2.2.1 fresh.1 fresh.2).1 [[again]] elsewhere).1]
  rfl

end Pool

end QueryLease

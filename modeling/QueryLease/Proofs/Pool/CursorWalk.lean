import QueryLease.Pool.Walk
import QueryLease.Proofs.Pool.Fetching
import QueryLease.Source.Tables

namespace QueryLease.Cursor

open Pool

variable {S : Source}

inductive Act (S : Source) where
  | advance
  | next
  | currentRow
  | other (change : Desk S → Desk S)

inductive Answer (S : Source) where
  | moved (outcome : Except Error Bool)
  | item (item : Option (Except Error (Row S)))
  | row (outcome : Except Error (Row S))
  | nothing

def Act.perform (c : Cursor S) : Act S → PoolM S (Answer S × Cursor S)
  | advance => do
    let (outcome, c) ← c.advance
    return (.moved outcome, c)
  | next => do
    let (item, c) ← c.next
    return (.item item, c)
  | currentRow => do return (.row (← c.currentRow), c)
  | other change => do
    modify change
    return (.nothing, c)

def walk : List (Act S) → Cursor S → PoolM S (List (Answer S) × Cursor S)
  | [], c => return ([], c)
  | act :: acts, c => do
    let (answer, c) ← act.perform c
    let (answers, c) ← walk acts c
    return (answer :: answers, c)

namespace Act

def change : Act S → Desk S → Desk S
  | other change, d => change d
  | _, d => d

def isMove : Act S → Bool
  | advance | next => true
  | _ => false

end Act

namespace Answer

def found : Answer S → Bool
  | moved (.ok true) | item (some (.ok _)) => true
  | _ => false

def missed : Answer S → Bool
  | moved (.ok false) | moved (.error _) | item none | item (some (.error _)) => true
  | _ => false

def item? : Answer S → Option (Option (Except Error (Row S)))
  | item i => some i
  | _ => none

/-- What an exhausted cursor answers. -/
def Void : Answer S → Prop
  | moved outcome => outcome = .ok false
  | item i => i = none
  | row outcome => outcome = .error (.invalidState .exhausted)
  | nothing => True

end Answer

def on (c : Cursor S) (token : S.Row) : Cursor S :=
  { c with position := .onRow c.fetched token, fetched := c.fetched + 1 }

def here (c : Cursor S) : Except Error (Row S) :=
  match c.position with
  | .onRow index token => .ok { handle := c.handle, token, index }
  | .ready => .error (.invalidState .notAdvanced)
  | .exhausted => .error (.invalidState .exhausted)

def itemOf (c : Cursor S) : Except Error Bool → Option (Except Error (Row S))
  | .ok true => some c.here
  | .ok false => none
  | .error e => some (.error e)

def after (c : Cursor S) : Except Fault (Option S.Row) → Except Error Bool × Cursor S
  | .ok (some token) => (.ok true, c.on token)
  | .ok none => (.ok false, c.exhaust)
  | .error fault => (.error (.iteration c.fetched fault), c.exhaust)

inductive Advanced (c : Cursor S) : Except Error Bool → Cursor S → Prop
  | row (token : S.Row) : c.exhausted = false → Advanced c (.ok true) (c.on token)
  | last : c.exhausted = false → Advanced c (.ok false) c.exhaust
  | failed (e : Error) : c.exhausted = false → Advanced c (.error e) c.exhaust
  | ended : c.exhausted = true → Advanced c (.ok false) c

variable {c c' : Cursor S} {d d' : Desk S} {token : S.Row} {fault : Fault} {e : Error}

theorem advance_run_exhausted (ended : c.exhausted = true) (d : Desk S) :
    c.advance.run d = ((.ok false, c), d) := by
  obtain ⟨h, position, fetched⟩ := c
  cases position with
  | exhausted => rfl
  | ready | onRow => cases ended

theorem advance_eq (ahead : c.exhausted = false) : c.advance = (do
    match ← Pool.acquire c.handle with
    | .error e => return (.error e, c.exhaust)
    | .ok () =>
      let fetched ← Pool.fetch c.handle
      Pool.endRead c.handle
      return c.after fetched) := by
  obtain ⟨h, position, fetched⟩ := c
  cases position with
  | exhausted => cases ahead
  | ready | onRow =>
    unfold advance
    simp only
    refine bind_congr fun started => ?_
    cases started with
    | error e => rfl
    | ok _ =>
      refine bind_congr fun fetched => bind_congr fun _ => ?_
      cases fetched with
      | error fault => rfl
      | ok token => cases token <;> rfl

def moved (c : Cursor S) :
    Except Error (Except Fault (Option S.Row)) → Except Error Bool × Cursor S
  | .error e => (.error e, c.exhaust)
  | .ok fetched => c.after fetched

theorem advance_run_fetchRead (ahead : c.exhausted = false) (d : Desk S) :
    c.advance.run d =
      (c.moved ((fetchRead c.handle).run d).1, ((fetchRead c.handle).run d).2) := by
  rw [advance_eq ahead, fetchRead, StateT.run_bind, StateT.run_bind]
  generalize (acquire c.handle).run d = started
  obtain ⟨started, d⟩ := started
  cases started <;> rfl

theorem advance_run_moved {fetched : Except Error (Except Fault (Option S.Row))}
    (ahead : c.exhausted = false) (run : (fetchRead c.handle).run d = (fetched, d')) :
    c.advance.run d = (c.moved fetched, d') := by
  rw [advance_run_fetchRead ahead, run]

theorem next_run_error (ahead : c.exhausted = false)
    (failed : (fetchRead c.handle).run d = (.error e, d')) :
    c.next.run d = ((some (.error e), c.exhaust), d') := by
  rw [next, StateT.run_bind, advance_run_fetchRead ahead, failed]
  rfl

theorem next_run_failed (ahead : c.exhausted = false)
    (failed : (fetchRead c.handle).run d = (.ok (.error fault), d')) :
    c.next.run d = ((some (.error (.iteration c.fetched fault)), c.exhaust), d') := by
  rw [next, StateT.run_bind, advance_run_fetchRead ahead, failed]
  rfl

theorem next_run_ended (ahead : c.exhausted = false)
    (ended : (fetchRead c.handle).run d = (.ok (.ok none), d')) :
    c.next.run d = ((none, c.exhaust), d') := by
  rw [next, StateT.run_bind, advance_run_fetchRead ahead, ended]
  rfl

theorem next_run_row (ahead : c.exhausted = false)
    (found : (fetchRead c.handle).run d = (.ok (.ok (some token)), d')) : c.next.run d =
      ((some (.ok ⟨c.handle, token, c.fetched⟩), c.on token), ((retain c.handle).run d').2) := by
  rw [next, StateT.run_bind, advance_run_fetchRead ahead, found]
  rfl

theorem advance_advanced (c : Cursor S) (d : Desk S) :
    Advanced c (c.advance.run d).1.1 (c.advance.run d).1.2 := by
  cases ended : c.exhausted with
  | true =>
    rw [advance_run_exhausted ended]
    exact .ended ended
  | false =>
    rw [advance_run_fetchRead ended]
    rcases ((fetchRead c.handle).run d).1 with e | (fault | (_ | token))
    · exact .failed _ ended
    · exact .failed _ ended
    · exact .last ended
    · exact .row token ended

theorem currentRow_run (c : Cursor S) (d : Desk S) : (c.currentRow.run d).1 = c.here := by
  obtain ⟨h, position, fetched⟩ := c
  cases position <;> rfl

theorem next_run (c : Cursor S) (d : Desk S) : (c.next.run d).1 =
    ((c.advance.run d).1.2.itemOf (c.advance.run d).1.1, (c.advance.run d).1.2) := by
  show ((c.advance >>= _).run d).1 = _
  rw [StateT.run_bind]
  generalize c.advance.run d = moved
  obtain ⟨⟨outcome, c'⟩, e⟩ := moved
  cases outcome with
  | error e => rfl
  | ok more =>
    cases more with
    | false => rfl
    | true =>
      show (some (c'.currentRow.run e).1, c') = _
      rw [currentRow_run]
      rfl

theorem next_run_exhausted (ended : c.exhausted = true) (d : Desk S) :
    c.next.run d = ((none, c), d) := by
  show (c.advance >>= _).run d = _
  rw [StateT.run_bind, advance_run_exhausted ended]
  rfl

theorem eq_exhausted (ended : c.exhausted = true) : c.position = .exhausted := by
  obtain ⟨h, position, fetched⟩ := c
  cases position with
  | exhausted => rfl
  | ready | onRow => cases ended

theorem currentRow_run_exhausted (ended : c.exhausted = true) (d : Desk S) :
    c.currentRow.run d = (.error (.invalidState .exhausted), d) := by
  unfold currentRow
  rw [eq_exhausted ended]
  rfl

inductive Step (c : Cursor S) : Answer S → Cursor S → Prop
  | moved {outcome : Except Error Bool} {c' : Cursor S} : Advanced c outcome c' →
    Step c (.moved outcome) c'
  | item {outcome : Except Error Bool} {c' : Cursor S} : Advanced c outcome c' →
    Step c (.item (c'.itemOf outcome)) c'
  | looked : Step c (.row c.here) c
  | other : Step c .nothing c

inductive Walked : Cursor S → List (Answer S) → Cursor S → Prop
  | nil (c : Cursor S) : Walked c [] c
  | cons {c c' c'' : Cursor S} {answer : Answer S} {answers : List (Answer S)} :
    Step c answer c' → Walked c' answers c'' → Walked c (answer :: answers) c''

theorem perform_step (act : Act S) (c : Cursor S) (d : Desk S) :
    Step c ((act.perform c).run d).1.1 ((act.perform c).run d).1.2 := by
  cases act with
  | advance => exact .moved (advance_advanced c d)
  | next =>
    have item : (((Act.next.perform c).run d).1) = (.item (c.next.run d).1.1, (c.next.run d).1.2) :=
      rfl
    rw [item, next_run]
    exact .item (advance_advanced c d)
  | currentRow =>
    show Step c (.row (c.currentRow.run d).1) c
    rw [currentRow_run]
    exact .looked
  | other change => exact .other

theorem walk_walked (acts : List (Act S)) (c : Cursor S) (d : Desk S) :
    Walked c ((walk acts c).run d).1.1 ((walk acts c).run d).1.2 := by
  induction acts generalizing c d with
  | nil => exact .nil c
  | cons act acts ih => exact .cons (perform_step act c d) (ih _ _)

variable {answer : Answer S} {answers : List (Answer S)} {outcome : Except Error Bool}

namespace Advanced

theorem handle (a : Advanced c outcome c') : c'.handle = c.handle := by
  cases a <;> rfl

theorem fetched (a : Advanced c outcome c') :
    c'.fetched = c.fetched + (Answer.moved outcome : Answer S).found.toNat := by
  cases a <;> rfl

theorem exhausted (a : Advanced c outcome c') :
    c'.exhausted = (c.exhausted || (Answer.moved outcome : Answer S).missed) := by
  cases a with
  | row token ahead => rw [ahead]; rfl
  | last ahead => rw [ahead]; rfl
  | failed e ahead => rw [ahead]; rfl
  | ended ended => rw [ended]; rfl

theorem found_item (a : Advanced c outcome c') :
    (Answer.item (c'.itemOf outcome)).found = (Answer.moved outcome : Answer S).found := by
  cases a <;> rfl

theorem missed_item (a : Advanced c outcome c') :
    (Answer.item (c'.itemOf outcome)).missed = (Answer.moved outcome : Answer S).missed := by
  cases a <;> rfl

end Advanced

def Placed (c : Cursor S) : Prop :=
  c.exhausted = false → c.index? = if c.fetched = 0 then none else some (c.fetched - 1)

theorem Advanced.placed (a : Advanced c outcome c') (p : c.Placed) : c'.Placed := by
  cases a with
  | row token => exact fun _ => rfl
  | last | failed e => exact fun ahead => absurd ahead (by simp [Cursor.exhausted, exhaust])
  | ended => exact p

namespace Step

theorem handle (s : Step c answer c') : c'.handle = c.handle := by
  cases s with
  | moved a => exact a.handle
  | item a => exact a.handle
  | looked => rfl
  | other => rfl

theorem fetched (s : Step c answer c') : c'.fetched = c.fetched + answer.found.toNat := by
  cases s with
  | moved a => exact a.fetched
  | item a => rw [a.found_item, a.fetched]
  | looked => rfl
  | other => rfl

theorem exhausted (s : Step c answer c') : c'.exhausted = (c.exhausted || answer.missed) := by
  cases s with
  | moved a => exact a.exhausted
  | item a => rw [a.missed_item, a.exhausted]
  | looked => exact (Bool.or_false _).symm
  | other => exact (Bool.or_false _).symm

theorem placed (s : Step c answer c') (p : c.Placed) : c'.Placed := by
  cases s with
  | moved a => exact a.placed p
  | item a => exact a.placed p
  | looked => exact p
  | other => exact p

end Step

namespace Walked

theorem handle (w : Walked c answers c') : c'.handle = c.handle := by
  induction w with
  | nil => rfl
  | cons s _ ih => exact ih.trans s.handle

theorem fetched (w : Walked c answers c') :
    c'.fetched = c.fetched + answers.countP Answer.found := by
  induction w with
  | nil => rfl
  | @cons c c' c'' answer answers s _ ih =>
    rw [ih, s.fetched, List.countP_cons, Nat.add_assoc, Nat.add_comm (answer.found.toNat)]
    cases answer.found <;> rfl

theorem exhausted (w : Walked c answers c') :
    c'.exhausted = (c.exhausted || answers.any Answer.missed) := by
  induction w with
  | nil => exact (Bool.or_false _).symm
  | cons s _ ih => rw [ih, s.exhausted, Bool.or_assoc, List.any_cons]

theorem placed (w : Walked c answers c') (p : c.Placed) : c'.Placed := by
  induction w with
  | nil => exact p
  | cons s _ ih => exact ih (s.placed p)

theorem items (w : Walked c answers c') (byItems : ∀ outcome, .moved outcome ∉ answers) :
    ∃ (rows : List (Row S)) (last : Option Error) (n : Nat),
      answers.filterMap Answer.item? =
        rows.map (fun r => some (.ok r)) ++ last.toList.map (fun e => some (.error e)) ++
          List.replicate n none ∧
      rows.map Row.index = List.range' c.fetched rows.length ∧
      (∀ r ∈ rows, r.handle = c.handle) ∧ (c.exhausted = true → rows = [] ∧ last = none) := by
  induction w with
  | nil => exact ⟨[], none, 0, rfl, rfl, nofun, fun _ => ⟨rfl, rfl⟩⟩
  | @cons c c' c'' answer answers s _ ih =>
    obtain ⟨rows, last, n, items, indices, handles, ended⟩ :=
      ih fun outcome mem => byItems outcome (List.mem_cons_of_mem _ mem)
    cases s with
    | moved a => exact absurd (List.mem_cons_self ..) (byItems _)
    | looked => exact ⟨rows, last, n, items, indices, handles, ended⟩
    | other => exact ⟨rows, last, n, items, indices, handles, ended⟩
    | item a =>
      rw [List.filterMap_cons]
      cases a with
      | row token ahead =>
        refine ⟨⟨c.handle, token, c.fetched⟩ :: rows, last, n, ?_, ?_, ?_, ?_⟩
        · exact congrArg (some (.ok ⟨c.handle, token, c.fetched⟩) :: ·) items
        · rw [List.map_cons, indices]
          exact List.range'_succ.symm
        · exact List.forall_mem_cons.2 ⟨rfl, handles⟩
        · exact fun h => absurd (ahead.symm.trans h) nofun
      | last ahead =>
        obtain ⟨rfl, rfl⟩ := ended rfl
        exact ⟨[], none, n + 1, congrArg (none :: ·) items, rfl, nofun, fun _ => ⟨rfl, rfl⟩⟩
      | failed e ahead =>
        obtain ⟨rfl, rfl⟩ := ended rfl
        refine ⟨[], some e, n, ?_, rfl, nofun, fun h => absurd (ahead.symm.trans h) nofun⟩
        exact congrArg (List.cons (some (.error e))) items
      | ended h =>
        obtain ⟨rfl, rfl⟩ := ended h
        exact ⟨[], none, n + 1, congrArg (none :: ·) items, rfl, nofun, fun _ => ⟨rfl, rfl⟩⟩

end Walked

theorem walk_idle (acts : List (Act S)) (idle : ∀ act ∈ acts, act.isMove = false) (c : Cursor S)
    (d : Desk S) : ((walk acts c).run d).1.2 = c ∧
      ∀ outcome, .row outcome ∈ ((walk acts c).run d).1.1 → outcome = c.here := by
  induction acts generalizing d with
  | nil => exact ⟨rfl, nofun⟩
  | cons act acts ih =>
    obtain ⟨first, others⟩ := List.forall_mem_cons.1 idle
    cases act with
    | advance | next => cases first
    | currentRow =>
      obtain ⟨same, rows⟩ := ih others (c.currentRow.run d).2
      refine ⟨same, fun outcome mem => ?_⟩
      rcases List.mem_cons.1 mem with first | mem
      · cases first
        exact currentRow_run c d
      · exact rows outcome mem
    | other change =>
      obtain ⟨same, rows⟩ := ih others (change d)
      refine ⟨same, fun outcome mem => ?_⟩
      rcases List.mem_cons.1 mem with first | mem
      · cases first
      · exact rows outcome mem

theorem walk_exhausted (ended : c.exhausted = true) (acts : List (Act S)) (d : Desk S) :
    let walked := (walk acts c).run d
    walked.1.2 = c ∧ (∀ answer ∈ walked.1.1, answer.Void) ∧
      walked.2 = acts.foldl (fun d act => act.change d) d := by
  induction acts generalizing d with
  | nil => exact ⟨rfl, nofun, rfl⟩
  | cons act acts ih =>
    have first : ∃ answer, (act.perform c).run d = ((answer, c), act.change d) ∧ answer.Void := by
      cases act with
      | advance =>
        refine ⟨.moved (.ok false), ?_, rfl⟩
        show ((c.advance >>= _).run d) = _
        rw [StateT.run_bind, advance_run_exhausted ended]
        rfl
      | next =>
        refine ⟨.item none, ?_, rfl⟩
        show ((c.next >>= _).run d) = _
        rw [StateT.run_bind, next_run_exhausted ended]
        rfl
      | currentRow =>
        refine ⟨.row (.error (.invalidState .exhausted)), ?_, rfl⟩
        show ((c.currentRow >>= _).run d) = _
        rw [StateT.run_bind, currentRow_run_exhausted ended]
        rfl
      | other change => exact ⟨.nothing, rfl, trivial⟩
    obtain ⟨answer, performed, void⟩ := first
    obtain ⟨same, voids, changes⟩ := ih (act.change d)
    have walked : (walk (act :: acts) c).run d =
        ((answer :: ((walk acts c).run (act.change d)).1.1,
          ((walk acts c).run (act.change d)).1.2), ((walk acts c).run (act.change d)).2) := by
      show ((act.perform c >>= _).run d) = _
      rw [StateT.run_bind, performed]
      rfl
    rw [walked]
    exact ⟨same, List.forall_mem_cons.2 ⟨void, voids⟩, changes⟩

theorem moved_mem {acts : List (Act S)} (byItems : .advance ∉ acts) (c : Cursor S) (d : Desk S)
    (outcome : Except Error Bool) : .moved outcome ∉ ((walk acts c).run d).1.1 := by
  induction acts generalizing c d with
  | nil => exact List.not_mem_nil
  | cons act acts ih =>
    obtain ⟨first, others⟩ := not_or.1 (mt List.mem_cons.2 byItems)
    intro mem
    rcases List.mem_cons.1 mem with this | mem
    · cases act with
      | advance => exact first rfl
      | next | currentRow | other => cases this
    · exact ih others _ _ mem

/-- Whatever happens to the pool between its moves, a cursor walks forward row by row. -/
theorem walks_forward (h : Nat) (d₀ : Desk S) (acts : List (Act S)) :
    let walked := (walk acts { handle := h }).run d₀
    let answers := walked.1.1
    let c := walked.1.2
    let d := walked.2
    -- Where it is.
    (c.handle = h ∧ c.fetched = answers.countP Answer.found ∧
      (c.exhausted = true ↔ ∃ answer ∈ answers, answer.missed = true) ∧
      (c.exhausted = false → c.index? = if c.fetched = 0 then none else some (c.fetched - 1))) ∧
    -- Its next move.
    (c.exhausted = false →
      ((d.pool.word h).stage = .closing →
        c.advance.run d = ((.error .closing, c.exhaust), d) ∧
        c.next.run d = ((some (.error .closing), c.exhaust), d)) ∧
      ((d.pool.word h).stage = .closed →
        c.advance.run d = ((.error .released, c.exhaust), d) ∧
        c.next.run d = ((some (.error .released), c.exhaust), d)) ∧
      ((d.pool.word h).stage = .opened → (d.pool.word h).full = false →
        ∃ x w, d.pool.handles[h]? = some x ∧ x.word.acquire = .ok w ∧
        -- One fetch from the handle's buffer, and the desk that it leaves.
        let found := S.fetch d.pool.link x.buffer d.engine
        let d' : Desk S := ⟨(d.pool.note (.fetch h w)).update h fun y =>
          { y with buffer := found.2.1 }, found.2.2⟩
        (found.1 = .ok none →
          c.advance.run d = ((.ok false, c.exhaust), d') ∧
          c.next.run d = ((none, c.exhaust), d')) ∧
        (∀ fault, found.1 = .error fault →
          c.advance.run d = ((.error (.iteration c.fetched fault), c.exhaust), d') ∧
          c.next.run d = ((some (.error (.iteration c.fetched fault)), c.exhaust), d')) ∧
        ∀ token, found.1 = .ok (some token) →
          c.advance.run d = ((.ok true, c.on token), d') ∧
          c.next.run d =
            ((some (.ok ⟨h, token, c.fetched⟩), c.on token), ((retain h).run d').2) ∧
          ∀ idle : List (Act S), (∀ act ∈ idle, act.isMove = false) → ∀ later,
            let idled := ((walk idle (c.on token)).run later).1
            idled.2 = c.on token ∧
            ∀ outcome, .row outcome ∈ idled.1 → outcome = .ok ⟨h, token, c.fetched⟩)) ∧
    -- Once it is exhausted.
    (c.exhausted = true → ∀ more later,
      let rest := (walk more c).run later
      rest.1.2 = c ∧ c.index? = none ∧ (∀ answer ∈ rest.1.1, answer.Void) ∧
        rest.2 = more.foldl (fun d act => act.change d) later) ∧
    -- Its items.
    (.advance ∉ acts → ∃ (rows : List (Row S)) (last : Option Error) (n : Nat),
      answers.filterMap Answer.item? =
        rows.map (fun r => some (.ok r)) ++ last.toList.map (fun e => some (.error e)) ++
          List.replicate n none ∧
      rows.map Row.index = List.range rows.length ∧ ∀ r ∈ rows, r.handle = h) := by
  intro walked answers c d
  have w : Walked { handle := h } answers c := walk_walked acts _ d₀
  have handle : c.handle = h := w.handle
  refine ⟨⟨handle, ?_, ?_, w.placed fun _ => rfl⟩, fun ahead => ⟨?_, ?_, ?_⟩,
    fun ended more later => ?_, fun byItems => ?_⟩
  · rw [w.fetched, Nat.zero_add]
  · rw [w.exhausted, Cursor.exhausted, Bool.false_or, List.any_eq_true]
  · intro closing
    have refused := fetchRead_refused (Lease.Word.acquire_closing (handle ▸ closing))
    exact ⟨advance_run_moved ahead refused, next_run_error ahead refused⟩
  · intro closed
    have refused := fetchRead_refused (Lease.Word.acquire_closed (handle ▸ closed))
    exact ⟨advance_run_moved ahead refused, next_run_error ahead refused⟩
  · intro opened room
    obtain ⟨x, v, hx, granted⟩ := exists_granted opened room
    refine ⟨x, v, hx, granted, ?_⟩
    intro found d'
    have run : (fetchRead c.handle).run d = (.ok found.1, d') := by
      rw [handle]
      exact fetchRead_run hx granted
    refine ⟨fun none => ?_, fun fault failed => ?_, fun token row => ?_⟩
    · rw [none] at run
      exact ⟨advance_run_moved ahead run, next_run_ended ahead run⟩
    · rw [failed] at run
      exact ⟨advance_run_moved ahead run, next_run_failed ahead run⟩
    · rw [row] at run
      have item := next_run_row ahead run
      rw [handle] at item
      refine ⟨advance_run_moved ahead run, item, fun idle still later => ?_⟩
      have here : (c.on token).here = .ok ⟨h, token, c.fetched⟩ := handle ▸ rfl
      obtain ⟨same, rows⟩ := walk_idle idle still (c.on token) later
      exact ⟨same, fun outcome mem => (rows outcome mem).trans here⟩
  · obtain ⟨same, voids, changes⟩ := walk_exhausted ended more later
    refine ⟨same, ?_, voids, changes⟩
    rw [index?, eq_exhausted ended]
  · obtain ⟨rows, last, n, items, indices, handles, -⟩ := w.items (moved_mem byItems _ d₀)
    exact ⟨rows, last, n, items, indices.trans List.range_eq_range'.symm, handles⟩

def oneRow : Desk .tables where
  pool :=
    { link := ()
      mode := .deferred
      handles := #[
        { buffer := ⟨⟨{ columns := ["step"], rows := [[.null]] }, none⟩, 0, 0⟩
          columns := ["step"] }] }
  engine := {}

def closing : Act .tables := .other fun d => ((requestRelease 0).run d).2

/-- One fetch, and none after somebody has closed the result. -/
theorem walks_forward_oneRow :
    let c : Cursor .tables := { handle := 0 }
    (c.advance.run oneRow).1 = (.ok true, c.on (0 : Nat)) ∧
    (c.advance.run oneRow).2.pool.calls = [.fetch 0 ⟨1⟩] ∧
    let walked := (walk [.advance, closing] c).run oneRow
    walked.1.2.next.run walked.2 = ((some (.error .released), walked.1.2.exhaust), walked.2) ∧
    ((walk [.advance, .currentRow, closing, .next, .next] c).run oneRow).1.1 =
      [.moved (.ok true), .row (.ok ⟨0, (0 : Nat), 0⟩), .nothing, .item (some (.error .released)),
        .item none] := by
  obtain ⟨-, first, -⟩ := walks_forward 0 oneRow []
  obtain ⟨-, closed, -⟩ := walks_forward 0 oneRow [.advance, closing]
  obtain ⟨x, w, hx, granted, -, -, row⟩ := (first rfl).2.2 rfl rfl
  obtain rfl := Option.some.inj hx
  obtain rfl := Except.ok.inj granted
  have moved := (row (0 : Nat) rfl).1
  exact ⟨congrArg Prod.fst moved, congrArg (fun run => run.2.pool.calls) moved,
    ((closed rfl).2.1 rfl).2, rfl⟩

end QueryLease.Cursor

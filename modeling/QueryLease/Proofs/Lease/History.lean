import QueryLease.Proofs.Lease.Handover

/-! What has happened to a shared lease, read off the schedule: which reads were granted and ended,
which requests reached the word, who closed the lease and who handed the buffer over. The state
keeps count of it, nothing of it happens out of turn, and every call that has begun comes to its
end. -/

namespace QueryLease.Lease

inductive Event where
  | granted
  | ended
  | asked (last : Bool)
  | closing
  | handedOver
  deriving DecidableEq

/-- An event, its thread, and where everything stood just before it. -/
structure Moment (ι : Type) where
  before : Shared ι
  thread : ι
  event : Event

variable {ι : Type} [Fintype ι] [DecidableEq ι]

namespace Shared

/-- Read off the thread, the word and the act alone. -/
def event (s : Shared ι) (i : ι) (a : Act) : Option Event :=
  match (s.threads i).task, a with
  | .idle, .endRead => if (s.threads i).reads = 0 then none else some .ended
  | .idle, .request => if s.dropped then none else some (.asked false)
  | .idle, .drop => if s.dropped ∨ ¬ ∀ j, s.threads j = {} then none else some (.asked true)
  | .acquire seen, .proceed =>
    if seen.acquire.isOk ∧ s.word = seen then some .granted else none
  | .close _, .proceed => some .closing
  | .handOver _, .proceed => some .handedOver
  | _, _ => none

def moment (s : Shared ι) (i : ι) (a : Act) : List (Moment ι) :=
  ((s.event i a).map (⟨s, i, ·⟩)).toList

def history (s : Shared ι) : List (ι × Act) → List (Moment ι)
  | [] => []
  | (i, a) :: rest => s.moment i a ++ (s.step i a).history rest

end Shared

namespace Moment

def asks (m : Moment ι) : Bool :=
  match m.event with
  | .asked _ => true
  | _ => false

def isOf (i : ι) (event : Event) (m : Moment ι) : Bool := m.thread = i && m.event = event

end Moment

namespace Shared

variable {s : Shared ι} {i : ι}

/-- The state keeps count of what has happened. -/
structure Counted (past : List (Moment ι)) (s : Shared ι) : Prop where
  requests : s.requests = (past.filter Moment.asks).map (·.before.reads)
  dropped : s.dropped = past.any (·.event = .asked true)
  handedOver : s.handedOver = past.countP (·.event = .handedOver)
  reads : ∀ i, (s.threads i).reads + past.countP (·.isOf i .ended) =
    past.countP (·.isOf i .granted)

structure Kept (s s' : Shared ι) : Prop where
  requests : s'.requests = s.requests := by rfl
  dropped : s'.dropped = s.dropped := by rfl
  handedOver : s'.handedOver = s.handedOver := by rfl
  reads : ∀ j, (s'.threads j).reads = (s.threads j).reads

theorem isOk_ok {w : Word} : (Except.ok w : Except Refusal Word).isOk = true := rfl

theorem isOk_error {r : Refusal} : (Except.error r : Except Refusal Word).isOk = false := rfl

section Counts

variable {past : List (Moment ι)} {s' : Shared ι} {t : Thread}

omit [Fintype ι] in
theorem reads_put (s : Shared ι) (i j : ι) (t : Thread) :
    ((s.put i t).threads j).reads = if j = i then t.reads else (s.threads j).reads := by
  by_cases hj : j = i <;> simp [put, hj]

omit [Fintype ι] in
theorem reads_put_same (ht : t.reads = (s.threads i).reads) (j : ι) :
    ((s.put i t).threads j).reads = (s.threads j).reads := by
  rw [reads_put, ht]
  split_ifs with hj
  · rw [hj]
  · rfl

omit [Fintype ι] in
theorem kept_finish (s : Shared ι) (i : ι) (answer : Option (Nat × Release)) :
    Kept s (s.finish i answer) := { reads := reads_put_same rfl }

omit [Fintype ι] in
theorem kept_look (s : Shared ι) (i : ι) (seen : Word) : Kept s (s.look i seen) := by
  unfold look
  split <;> exact { reads := reads_put_same rfl }

omit [Fintype ι] in
theorem kept_close (s : Shared ι) (i : ι) (request : Option Nat) :
    Kept s (s.close i request) := by
  unfold close
  split <;> exact { reads := reads_put_same rfl }

theorem kept_ask (s : Shared ι) (i : ι) :
    Kept { s with requests := s.requests ++ [s.reads] } (s.ask i) := by
  unfold ask answer
  split
  split <;> exact { reads := reads_put_same rfl }

theorem Counted.add (c : Counted past s) (e : Event)
    (requests : s'.requests = s.requests ++ if (⟨s, i, e⟩ : Moment ι).asks then [s.reads] else [])
    (dropped : s'.dropped = (s.dropped || e = .asked true))
    (handedOver : s'.handedOver = s.handedOver + if e = .handedOver then 1 else 0)
    (reads : ∀ j, (s'.threads j).reads + (if i = j ∧ e = .ended then 1 else 0) =
      (s.threads j).reads + if i = j ∧ e = .granted then 1 else 0) :
    Counted (past ++ [⟨s, i, e⟩]) s' where
  requests := by
    rw [requests, c.requests, List.filter_append, List.map_append]
    cases ha : (⟨s, i, e⟩ : Moment ι).asks <;> simp [ha]
  dropped := by simp [dropped, c.dropped]
  handedOver := by simp [handedOver, c.handedOver, List.countP_append, List.countP_singleton]
  reads j := by
    have before := c.reads j
    have now := reads j
    simp only [List.countP_append, List.countP_singleton, Moment.isOf, Bool.and_eq_true,
      decide_eq_true_eq] at before now ⊢
    omega

theorem Counted.ask (c : Counted past s) (i : ι) (last : Bool)
    (k : Kept { s with requests := s.requests ++ [s.reads], dropped := s.dropped || last } s') :
    Counted (past ++ [⟨s, i, .asked last⟩]) s' :=
  c.add (.asked last) k.requests (by simpa using k.dropped) k.handedOver (by simpa using k.reads)

omit [DecidableEq ι] in
theorem moment_eq {a : Act} {e : Event} (he : s.event i a = some e) :
    s.moment i a = [⟨s, i, e⟩] := by
  rw [moment, he]
  rfl

theorem Counted.silent (c : Counted past s) {a : Act} (k : Kept s s') (he : s.event i a = none) :
    Counted (past ++ s.moment i a) s' := by
  rw [moment, he, Option.map_none, Option.toList_none, List.append_nil]
  exact ⟨k.requests.trans c.requests, k.dropped.trans c.dropped, k.handedOver.trans c.handedOver,
    fun j => by rw [k.reads, c.reads]⟩

theorem Counted.exchange (c : Counted past s) {seen : Word}
    (hi : (s.threads i).task = .acquire seen) :
    Counted (past ++ s.moment i .proceed) (s.exchange i seen) := by
  unfold Shared.exchange
  split
  case _ hw =>
    exact c.silent { reads := reads_put_same rfl } (by simp [event, hi, hw, isOk_error])
  case _ word hw =>
    split_ifs with hs
    · rw [moment_eq (e := .granted) (by simp [event, hi, hw, hs, isOk_ok])]
      refine c.add .granted (by simp [Moment.asks, put]) (by simp [put]) rfl fun j => ?_
      by_cases hj : i = j
      · subst hj
        simp [put]
      · simp [put, hj, Ne.symm hj]
    · exact c.silent (kept_look s i seen) (by simp [event, hi, hs])

theorem Counted.endRead (c : Counted past s) (hi : (s.threads i).task = .idle)
    (hr : (s.threads i).reads ≠ 0) : Counted (past ++ s.moment i .endRead) (s.endRead i) := by
  rw [moment_eq (e := .ended) (by simp [event, hi, hr])]
  refine c.add .ended (by simp [Moment.asks, put, Shared.endRead])
    (by simp [put, Shared.endRead]) rfl fun j => ?_
  by_cases hj : i = j
  · subst hj
    simp [Shared.endRead, put, Nat.sub_add_cancel (Nat.pos_of_ne_zero hr)]
  · simp [Shared.endRead, put, hj, Ne.symm hj]

theorem Counted.drop (c : Counted past s) (hi : (s.threads i).task = .idle)
    (hd : s.dropped = false) : Counted (past ++ s.moment i .drop) (s.drop i) := by
  unfold Shared.drop
  split_ifs with idle
  · rw [moment_eq (e := .asked true) (by simp [event, hd, idle])]
    exact c.ask i true { kept_ask s i with dropped := by simp }
  · exact c.silent { reads := fun _ => rfl } (by simp [event, hi, idle])

theorem Counted.close (c : Counted past s) {request : Option Nat}
    (hi : (s.threads i).task = .close request) :
    Counted (past ++ s.moment i .proceed) (s.close i request) := by
  have k := kept_close s i request
  rw [moment_eq (e := .closing) (by simp [event, hi])]
  exact c.add .closing (by simpa [Moment.asks] using k.requests) (by simpa using k.dropped)
    k.handedOver (by simpa using k.reads)

theorem Counted.handOver (c : Counted past s) {request : Option Nat}
    (hi : (s.threads i).task = .handOver request) :
    Counted (past ++ s.moment i .proceed) (s.handOver i request) := by
  have reads : ∀ j, ((s.handOver i request).threads j).reads = (s.threads j).reads :=
    (kept_finish s i (request.map (·, .freed))).reads
  rw [moment_eq (e := .handedOver) (by simp [event, hi])]
  exact c.add .handedOver (List.append_nil _).symm (Bool.or_false _).symm rfl
    (by simpa using reads)

theorem Counted.step (c : Counted past s) (i : ι) (a : Act) :
    Counted (past ++ s.moment i a) (s.step i a) := by
  have stays : Kept s s := { reads := fun _ => rfl }
  unfold Shared.step
  split
  case _ hi => -- acquire
    refine c.silent ?_ (by simp [event, hi])
    split_ifs
    exacts [stays, { reads := reads_put_same rfl }]
  case _ hi => -- endRead
    split_ifs with hr
    · exact c.silent stays (by simp [event, hi, hr])
    · exact c.endRead hi hr
  case _ hi => -- request
    split_ifs with hd
    · exact c.silent stays (by simp [event, hi, hd])
    · rw [moment_eq (e := .asked false) (by simp [event, hi, hd])]
      exact c.ask i false (by simpa using kept_ask s i)
  case _ hi => -- drop
    split_ifs with hd
    · exact c.silent stays (by simp [event, hi, hd])
    · exact c.drop hi (Bool.eq_false_iff.2 hd)
  case _ hi => exact c.exchange hi
  case _ seen hi => exact c.silent (kept_look s i seen) (by simp [event, hi])
  case _ hi => exact c.close hi
  case _ hi => exact c.handOver hi
  case _ => exact c.silent stays (by unfold event; split <;> simp_all)

end Counts

structure Lawful (past : List (Moment ι)) : Prop where
  refused : past.Pairwise fun m m' => m.asks → m'.event ≠ .granted
  closes : ∀ m ∈ past, m.event = .closing → m.before.word.finish? = some .shut
  unread : ∀ m ∈ past, m.event = .handedOver → ∀ j, (m.before.threads j).reads = 0

section Laws

variable {past : List (Moment ι)} {a : Act}

omit [DecidableEq ι] in
theorem acquire_of_granted (he : s.event i a = some .granted) :
    ∃ word, s.word.acquire = .ok word := by
  cases hi : (s.threads i).task with
  | idle | close request | handOver request => cases a <;> simp [event, hi] at he
  | acquire seen =>
    cases a <;> simp only [event, hi, reduceCtorEq, Option.ite_none_right_eq_some] at he
    obtain ⟨⟨ok, rfl⟩, -⟩ := he
    cases hw : s.word.acquire with
    | error refusal =>
      rw [hw, isOk_error] at ok
      cases ok
    | ok word => exact ⟨word, rfl⟩

omit [DecidableEq ι] in
theorem close_of_closing (he : s.event i a = some .closing) :
    ∃ request, (s.threads i).task = .close request := by
  cases hi : (s.threads i).task with
  | idle | acquire seen | handOver request => cases a <;> simp [event, hi] at he
  | close request => exact ⟨request, rfl⟩

omit [DecidableEq ι] in
theorem handOver_of_handedOver (he : s.event i a = some .handedOver) :
    ∃ request, (s.threads i).task = .handOver request := by
  cases hi : (s.threads i).task with
  | idle | acquire seen | close request => cases a <;> simp [event, hi] at he
  | handOver request => exact ⟨request, rfl⟩

theorem Lawful.step (l : Lawful past) (c : Counted past s) (h : s.Sound) (i : ι) (a : Act) :
    Lawful (past ++ s.moment i a) := by
  cases he : s.event i a with
  | none =>
    rw [moment, he, Option.map_none, Option.toList_none, List.append_nil]
    exact l
  | some e =>
    rw [moment_eq he]
    constructor
    case refused =>
      refine List.pairwise_append.2 ⟨l.refused, List.pairwise_singleton .., fun m hm => ?_⟩
      rw [List.forall_mem_singleton]
      intro asks granted
      obtain rfl : e = .granted := granted
      -- The word that grants a read has not been asked for release.
      obtain ⟨word, hw⟩ := acquire_of_granted he
      have none : s.requests = [] := by simpa [requested] using (Due.acquire h.balanced hw).1
      have some := List.mem_map_of_mem (f := (·.before.reads)) (List.mem_filter.2 ⟨hm, asks⟩)
      rw [← c.requests, none] at some
      cases some
    case closes =>
      rw [List.forall_mem_append, List.forall_mem_singleton]
      refine ⟨l.closes, fun closing => ?_⟩
      obtain rfl : e = .closing := closing
      obtain ⟨request, hi⟩ := close_of_closing he
      exact h.balanced.finish?_eq hi
    case unread =>
      rw [List.forall_mem_append, List.forall_mem_singleton]
      refine ⟨l.unread, fun handed => ?_⟩
      obtain rfl : e = .handedOver := handed
      obtain ⟨request, hi⟩ := handOver_of_handedOver he
      exact h.balanced.reads_eq_zero hi

structure Traced (past : List (Moment ι)) (s : Shared ι) : Prop where
  sound : s.Sound
  counted : Counted past s
  lawful : Lawful past

theorem Traced.fresh : Traced [] ({} : Shared ι) where
  sound := Sound.fresh
  counted := ⟨rfl, rfl, rfl, fun _ => rfl⟩
  lawful := ⟨.nil, nofun, nofun⟩

theorem Traced.run (t : Traced past s) (schedule : List (ι × Act)) :
    Traced (past ++ s.history schedule) (s.run schedule) := by
  induction schedule generalizing past s with
  | nil => simpa [history, Shared.run] using t
  | cons e rest ih =>
    obtain ⟨i, a⟩ := e
    rw [history, ← List.append_assoc]
    exact ih ⟨t.sound.step i a, t.counted.step i a, t.lawful.step t.counted t.sound i a⟩

end Laws

section Progress

theorem step_proceed_idle (hi : (s.threads i).task = .idle) : s.step i .proceed = s := by
  simp [Shared.step, hi]

omit [Fintype ι] in
theorem task_finish (s : Shared ι) (i : ι) (answer : Option (Nat × Release)) :
    ((s.finish i answer).threads i).task = .idle := by
  simp [finish, put]

omit [Fintype ι] in
theorem task_exchange (s : Shared ι) (i : ι) (seen : Word) :
    ((s.exchange i seen).threads i).task = .idle ∨
      ((s.exchange i seen).threads i).task = .acquire s.word ∧
        (s.exchange i seen).word = s.word ∧ s.word ≠ seen := by
  unfold exchange
  split
  · exact .inl (task_finish ..)
  · split_ifs with hs
    · exact .inl (by simp [put])
    · unfold look
      split
      · exact .inl (task_finish ..)
      · exact .inr ⟨by simp [put], rfl, hs⟩

theorem Sound.returns (h : s.Sound) (i : ι) :
    ((s.run [(i, .proceed), (i, .proceed)]).threads i).task = .idle := by
  change (((s.step i .proceed).step i .proceed).threads i).task = .idle
  cases hi : (s.threads i).task with
  | idle => rw [step_proceed_idle hi, step_proceed_idle hi, hi]
  | acquire seen =>
    have first : s.step i .proceed = s.exchange i seen := by simp [Shared.step, hi]
    rw [first]
    -- The second exchange has seen the word as it is, for nobody else has moved.
    rcases s.task_exchange i seen with idle | ⟨again, word, -⟩
    · rw [step_proceed_idle idle, idle]
    · have second :
          (s.exchange i seen).step i .proceed = (s.exchange i seen).exchange i s.word := by
        simp [Shared.step, again]
      rw [second]
      rcases (s.exchange i seen).task_exchange i s.word with idle | ⟨-, -, other⟩
      · exact idle
      · exact absurd word other
  | close request =>
    have first : s.step i .proceed =
        { s.put i { s.threads i with task := .handOver request } with word := .shut } := by
      simp [Shared.step, hi, Shared.close, h.balanced.finish?_eq hi]
    rw [first]
    simp [Shared.step, put, Shared.handOver, task_finish]
  | handOver request =>
    have first : s.step i .proceed = s.handOver i request := by simp [Shared.step, hi]
    have idle : ((s.handOver i request).threads i).task = .idle :=
      s.task_finish i (request.map (·, .freed))
    rw [first, step_proceed_idle idle, idle]

theorem Balanced.grants (h : s.Balanced) (hi : (s.threads i).task = .idle)
    (hd : s.dropped = false) (hq : s.requests = []) (room : s.word.full = false) :
    (s.run [(i, .acquire), (i, .proceed)]).threads i = { reads := (s.threads i).reads + 1 } := by
  obtain ⟨word, -⟩ := Due.word_eq_open h (by simp [requested, hq])
  have few := Due.reads_lt h
  rw [requested, hq, List.isEmpty_nil, Bool.not_true] at word
  rw [word, Word.full_pack few, decide_eq_false_iff_not] at room
  have free := Word.acquire_pack_opened (show s.reads + 1 < Word.limit by omega)
  change ((s.step i .acquire).step i .proceed).threads i = _
  have first : s.step i .acquire = s.put i { s.threads i with task := .acquire s.word } := by
    simp [Shared.step, hi, hd]
  rw [first]
  simp [Shared.step, put, Shared.exchange, word, free]

end Progress

/-- What is to be said of threads that share a lease, and of what has happened on the way. -/
structure Handover (past : List (Moment ι)) (s : Shared ι) : Prop extends
    Counted past s, Lawful past where
  word_requested : s.word.requested = !s.requests.isEmpty
  word_reads : s.word.reads = s.reads
  once : s.handedOver ≤ 1
  asked : s.handedOver ≠ 0 → s.requests ≠ []
  freed : s.requests ≠ [] → (∀ i, s.threads i = {}) → s.handedOver = 1
  /-- A call that has begun ends when its thread is let. -/
  returns : ∀ i, ((s.run [(i, .proceed), (i, .proceed)]).threads i).task = .idle
  grants : ∀ i, (s.threads i).task = .idle → s.dropped = false → s.requests = [] →
    s.word.full = false →
      (s.run [(i, .acquire), (i, .proceed)]).threads i = { reads := (s.threads i).reads + 1 }
  /-- The first request alone is not told that it came too late, and is told what it found. -/
  answers : ∀ n r, (n, r) ∈ s.answers → (r = .alreadyRequested ↔ n ≠ 0) ∧
    ∃ reads, s.requests[n]? = some reads ∧ r = answerTo n reads
  answered : (∀ i, (s.threads i).task = .idle) →
    (s.answers.map Prod.fst).Perm (List.range s.requests.length)

/-- Whatever the threads do, and in whatever order they take their steps. -/
theorem handover_of_run (schedule : List (ι × Act)) :
    Handover (({} : Shared ι).history schedule) (({} : Shared ι).run schedule) := by
  obtain ⟨⟨hb, ha⟩, c, l⟩ := Traced.fresh.run schedule
  have hd := Due.due hb
  have few := Due.reads_lt hb
  exact
    { c, l with
      word_requested := by rw [Due.word_eq hb, Word.requested_pack few]; rfl
      word_reads := by rw [Due.word_eq hb, Word.reads_pack few]
      once := by split_ifs at hd <;> omega
      asked := fun handed none => by
        simp [requested, none] at hd
        omega
      freed := hb.handedOver_eq
      returns := Sound.returns ⟨hb, ha⟩
      grants := fun i => hb.grants
      answers := fun n r hn => by
        obtain ⟨reads, hreads, rfl⟩ := ha.answers_eq n r hn
        exact ⟨answerTo_eq_alreadyRequested, reads, hreads, rfl⟩
      answered := ha.perm_range }

/-- One thread reads, another asks too late; the first one's read is the last to end. -/
def race : List (Bool × Act) :=
  [(false, .acquire), (false, .proceed), (true, .acquire), (false, .request), (true, .proceed),
    (true, .proceed), (true, .request), (false, .endRead), (false, .proceed), (false, .proceed),
    (true, .drop)]

theorem handover_of_race :
    let s : Shared Bool := {}
    Handover (s.history race) (s.run race) ∧ (s.run race).handedOver = 1 ∧
    (s.run race).answers = [(2, .alreadyRequested), (1, .alreadyRequested), (0, .deferred 1)] ∧
    (s.history race).map (fun m => (m.thread, m.event)) =
      [(false, .granted), (false, .asked false), (true, .asked false), (false, .ended),
        (false, .closing), (false, .handedOver), (true, .asked true)] :=
  ⟨handover_of_run race, by decide, by decide, by decide⟩

end Shared

end QueryLease.Lease

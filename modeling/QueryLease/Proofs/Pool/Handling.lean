import QueryLease.Proofs.Pool.Reclamation
import QueryLease.Source.Tables

namespace QueryLease.Pool

inductive Handling (ι : Type) (S : Source) where
  | queued (e : Nat × S.Buffer)
  | disposed (e : Nat × S.Buffer) (who : Disposer ι)

namespace Handling

variable {ι : Type} {S : Source}

def queued? : Handling ι S → Option (Nat × S.Buffer)
  | queued e => some e
  | disposed .. => none

def disposed? : Handling ι S → Option ((Nat × S.Buffer) × Disposer ι)
  | queued _ => none
  | disposed e who => some (e, who)

end Handling

namespace Reclaim

variable {ι : Type} {S : Source} {s : Reclaim ι S} {i : ι}

/-- Read off the turn and whose it is. -/
def handling (s : Reclaim ι S) : Turn ι S → Option (Handling ι S)
  | .enqueue i h buffer =>
    if (s.threads i).isIdle && !s.stopping then some (.queued (h, buffer)) else none
  | .proceed i =>
    match s.threads i with
    | .collecting (e :: _) => some (.disposed e (.collection i))
    | .draining (e :: _) => some (.disposed e .shutdown)
    | _ => none
  | .reaper =>
    match s.reaper with
    | .disposing e => some (.disposed e .reaper)
    | _ => none
  | .collect _ | .shutdown _ | .stir => none

structure Recorded (past : List (Handling ι S)) (s : Reclaim ι S) : Prop where
  queued : s.queued = (past.filterMap Handling.queued?).reverse
  log : s.log = (past.filterMap Handling.disposed?).reverse

section Records

variable {past : List (Handling ι S)} {s' : Reclaim ι S} {turn : Turn ι S}

theorem Recorded.silent (r : Recorded past s) (nothing : s.handling turn = none)
    (queued : s'.queued = s.queued) (log : s'.log = s.log) :
    Recorded (past ++ (s.handling turn).toList) s' := by
  rw [nothing, Option.toList_none, List.append_nil]
  exact ⟨queued.trans r.queued, log.trans r.log⟩

theorem Recorded.enqueued (r : Recorded past s) {e : Nat × S.Buffer}
    (here : s.handling turn = some (.queued e)) (queued : s'.queued = e :: s.queued)
    (log : s'.log = s.log) : Recorded (past ++ (s.handling turn).toList) s' := by
  rw [here]
  exact ⟨by simp [queued, r.queued, Handling.queued?], by simp [log, r.log, Handling.disposed?]⟩

theorem Recorded.disposed (r : Recorded past s) {e : Nat × S.Buffer} {who : Disposer ι}
    (here : s.handling turn = some (.disposed e who)) (queued : s'.queued = s.queued)
    (log : s'.log = (e, who) :: s.log) : Recorded (past ++ (s.handling turn).toList) s' := by
  rw [here]
  exact ⟨by simp [queued, r.queued, Handling.queued?], by simp [log, r.log, Handling.disposed?]⟩

theorem wake_records (s : Reclaim ι S) : s.wake.queued = s.queued ∧ s.wake.log = s.log := by
  obtain ⟨reaper, e, -⟩ := s.wake_eq
  rw [e]
  exact ⟨rfl, rfl⟩

variable [DecidableEq ι]

theorem join_records (s : Reclaim ι S) (i : ι) :
    (s.join i).queued = s.queued ∧ (s.join i).log = s.log := by
  unfold join
  split <;> exact ⟨rfl, rfl⟩

theorem Recorded.proceed (r : Recorded past s) (i : ι) :
    Recorded (past ++ (s.handling (.proceed i)).toList) (s.proceed i) := by
  obtain ⟨wq, wl⟩ := s.wake_records
  obtain ⟨jq, jl⟩ := s.join_records i
  cases ht : s.threads i with simp only [Reclaim.proceed, ht]
  | idle | done => exact r.silent (by simp [handling, ht]) rfl rfl
  | telling h | alerting => exact r.silent (by simp [handling, ht]) wq wl
  | joining => exact r.silent (by simp [handling, ht]) jq jl
  | emptying => exact r.silent (by simp [handling, ht]) rfl rfl
  | collecting batch | draining batch =>
    cases batch with
    | nil => exact r.silent (by simp [handling, ht]) rfl rfl
    | cons e batch => exact r.disposed (by simp [handling, ht]) rfl rfl

omit [DecidableEq ι] in
theorem Recorded.reap (r : Recorded past s) :
    Recorded (past ++ (s.handling .reaper).toList) s.reap := by
  cases hr : s.reaper with simp only [Reclaim.reap, hr]
  | disposing e => exact r.disposed (by simp [handling, hr]) rfl rfl
  | looking =>
    have nothing : s.handling .reaper = none := by simp [handling, hr]
    cases hq : s.queue with simp only [Reclaim.look, hq]
    | cons e rest => exact r.silent nothing rfl rfl
    | nil => exact r.silent nothing rfl rfl
  | absent | asleep | stopped => exact r.silent (by simp [handling, hr]) rfl rfl

variable [Fintype ι]

theorem Recorded.step (r : Recorded past s) (turn : Turn ι S) :
    Recorded (past ++ (s.handling turn).toList) (s.step turn) := by
  cases turn with simp only [Reclaim.step]
  | enqueue i h b =>
    split_ifs with taken
    · exact r.enqueued (by simp [handling, taken]) rfl rfl
    · exact r.silent (by simp [handling, taken]) rfl rfl
  | collect i | shutdown i =>
    split_ifs
    · exact r.silent rfl rfl rfl
    · exact r.silent rfl rfl rfl
  | proceed i => exact r.proceed i
  | reaper => exact r.reap
  | stir => exact r.silent rfl s.wake_records.1 s.wake_records.2

def history (s : Reclaim ι S) : List (Turn ι S) → List (Handling ι S)
  | [] => []
  | turn :: rest => (s.handling turn).toList ++ (s.step turn).history rest

theorem Recorded.run (r : Recorded past s) (schedule : List (Turn ι S)) :
    Recorded (past ++ s.history schedule) (s.run schedule) := by
  induction schedule generalizing past s with
  | nil => simpa [history, Reclaim.run] using r
  | cons turn rest ih =>
    rw [history, ← List.append_assoc]
    exact ih (r.step turn)

end Records

section Progress

variable [DecidableEq ι] [Fintype ι]

theorem Orderly.enters (o : Orderly s) (idle : s.threads i = .idle) (running : s.stopping = false)
    (h : Nat) (b : S.Buffer) :
    let s' := s.step (.enqueue i h b)
    s'.threads i = .telling h ∧ s'.queue = s.queue ++ [(h, b)] ∧
      s'.queued = (h, b) :: s.queued := by
  have taken : s.step (.enqueue i h b) = s.enqueue i h b := by
    simp [Reclaim.step, idle, Duty.isIdle, running]
  rw [taken, enqueue_eq o.mode]
  exact ⟨put_self .., rfl, rfl⟩

theorem Orderly.tells (o : Orderly s) {h : Nat} (telling : s.threads i = .telling h) :
    let s' := s.step (.proceed i)
    s'.threads i = .idle ∧ s'.reaper ≠ .asleep ∧ s'.queue = s.queue := by
  have told : s.step (.proceed i) = s.wake.put i .idle := by
    simp only [Reclaim.step, Reclaim.proceed, telling]
  rw [told]
  exact ⟨put_self .., o.wake.2, s.queue_wake⟩

theorem shuts (idle : ∀ j, s.threads j = .idle) (running : s.stopping = false) (i : ι) :
    let s' := s.step (.shutdown i)
    s'.stopping = true ∧ s'.threads i = .alerting := by
  simp [Reclaim.step, idle, running, Duty.isIdle]

omit [DecidableEq ι] [Fintype ι] in
theorem absent_wake (s : Reclaim ι S) : s.wake.reaper = .absent ↔ s.reaper = .absent := by
  unfold wake
  split <;> simp_all

omit [DecidableEq ι] [Fintype ι] in
theorem absent_reap (s : Reclaim ι S) : s.reap.reaper = .absent ↔ s.reaper = .absent := by
  cases hr : s.reaper with simp only [Reclaim.reap, hr, reduceCtorEq, iff_false]
  | looking =>
    cases hq : s.queue with simp only [Reclaim.look, hq, reduceCtorEq, not_false_iff]
    | nil => split_ifs <;> simp

omit [Fintype ι] in
theorem absent_proceed (s : Reclaim ι S) (i : ι) :
    (s.proceed i).reaper = .absent ↔ s.reaper = .absent := by
  cases ht : s.threads i with simp only [Reclaim.proceed, ht]
  | telling h | alerting => exact s.absent_wake
  | emptying => exact Iff.rfl
  | joining =>
    unfold join
    split <;> exact Iff.rfl
  | collecting batch | draining batch => cases batch <;> exact Iff.rfl

theorem absent_step (s : Reclaim ι S) (turn : Turn ι S) :
    (s.step turn).reaper = .absent ↔ s.reaper = .absent := by
  cases turn with simp only [Reclaim.step]
  | enqueue i h b | collect i | shutdown i => split_ifs <;> exact Iff.rfl
  | proceed i => exact s.absent_proceed i
  | reaper => exact s.absent_reap
  | stir => exact s.absent_wake

end Progress

variable [DecidableEq ι] [Fintype ι]

/-- What holds at any time, seen from a pool and an engine that all began with and from what has
happened since. -/
structure Reclaimed (p : Pool S) (engine : S.State) (started : Bool) (past : List (Handling ι S))
    (s : Reclaim ι S) : Prop extends Recorded past s where
  conserved : Conserved s
  once : (s.queued.map Prod.fst).Nodup → (s.log.map (·.1.1)).Nodup
  logged : Logged p engine s
  /-- A reaper sleeps over what is queued only while those who queued it are about to tell it. -/
  told : s.reaper = .asleep → ∀ e ∈ s.queue, ∃ i, s.threads i = .telling e.1
  /-- It sleeps although it is to stop only while the one who asked it is about to tell it. -/
  alerted : s.reaper = .asleep → s.stopping = true → ∃ i, s.threads i = .alerting
  stopped : s.reaper = .stopped → s.stopping = true ∧ s.queue = []
  present : s.reaper = .absent ↔ started = false
  done : ∀ i, s.threads i = .done → (s.log.map Prod.fst).Perm s.queued
  enters : ∀ i h b, s.threads i = .idle → s.stopping = false →
    let s' := s.step (.enqueue i h b)
    s'.threads i = .telling h ∧ s'.queue = s.queue ++ [(h, b)] ∧ s'.queued = (h, b) :: s.queued
  tells : ∀ i h, s.threads i = .telling h →
    let s' := s.step (.proceed i)
    s'.threads i = .idle ∧ s'.reaper ≠ .asleep ∧ s'.queue = s.queue
  /-- A collection that is left alone is a collection of the pool. -/
  collects : ∀ i, s.threads i = .idle → s.stopping = false →
    let s' := s.run (.collect i :: List.replicate (s.queue.length + 1) (.proceed i))
    s'.threads i = .idle ∧ s'.desk = (Pool.collect.run s.desk).2
  returns : ∀ i batch, s.threads i = .collecting batch →
    (s.run (List.replicate (batch.length + 1) (.proceed i))).threads i = .idle
  /-- A reaper that is left alone reaps for the pool. -/
  reaps : s.reaper = .looking → ∀ n ≤ s.queue.length,
    (s.run (List.replicate (2 * n) .reaper)).desk = ((Pool.reap n).run s.desk).2
  shuts : ∀ i, (∀ j, s.threads j = .idle) → s.stopping = false →
    let s' := s.step (.shutdown i)
    s'.stopping = true ∧ s'.threads i = .alerting
  ends : s.stopping = true → ∃ i more, (s.run more).threads i = .done

/-- Whatever the threads and the reaper do, and in whatever order they take their turns. -/
theorem reclaimed (p : Pool S) (engine : S.State) (started : Bool) (schedule : List (Turn ι S)) :
    let s : Reclaim ι S := opened p engine started
    Reclaimed p engine started (s.history schedule) (s.run schedule) := by
  intro s
  have nothing : Recorded [] s := ⟨rfl, rfl⟩
  have recorded := nothing.run schedule
  have ⟨o, c, l, present⟩ := run_induction
    (P := fun s => Orderly s ∧ Conserved s ∧ Logged p engine s ∧
      (s.reaper = .absent ↔ started = false))
    (fun s turn h => ⟨h.1.step turn, h.2.1.step h.1 turn, h.2.2.1.step h.1 turn,
      (s.absent_step turn).trans h.2.2.2⟩)
    ⟨orderly_opened p engine started, conserved_opened p engine started, ⟨rfl, rfl, rfl⟩,
      by cases started <;> simp [opened]⟩ schedule
  exact
    { recorded with
      conserved := c
      once := c.once
      logged := l
      told := o.told
      alerted := o.alerted
      stopped := o.stopped
      present := present
      done := fun i => o.done c
      enters := fun i h b idle running => o.enters idle running h b
      tells := fun i h => o.tells
      collects := fun i => run_collect
      returns := fun i batch h => (run_collecting h).1
      reaps := fun looking n => desk_run_reaper looking
      shuts := fun i idle running => shuts idle running i
      ends := fun h => (o.asked h).imp fun i => o.ends }

/-- A buffer that another thread takes before the reaper has been told of it. -/
def stolen : List (Turn Bool .tables) :=
  [.enqueue false 1 ⟨⟨{ columns := ["stolen"] }, none⟩, 0, 0⟩, .collect true, .proceed true,
    .proceed true, .proceed false, .reaper, .shutdown true, .proceed true, .reaper, .proceed true,
    .proceed true, .proceed true]

theorem reclaimed_stolen :
    let p : Pool .tables := { link := (), mode := .background }
    let s : Reclaim Bool .tables := opened p {} true
    Reclaimed p {} true (s.history stolen) (s.run stolen) ∧
    (s.run stolen).threads true = .done ∧ (s.run stolen).queue = [] ∧
    (s.history stolen).map (Option.map Prod.snd ∘ Handling.disposed?) =
      [none, some (.collection true)] ∧
    disposals (s.run stolen).desk.pool.calls = [1] :=
  ⟨reclaimed _ _ _ stolen, rfl, rfl, rfl, rfl⟩

end Reclaim

end QueryLease.Pool

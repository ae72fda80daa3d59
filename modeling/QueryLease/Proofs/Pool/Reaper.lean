import Mathlib.Algebra.BigOperators.Group.Finset.Basic
import Mathlib.Data.Fintype.BigOperators
import QueryLease.Proofs.Pool.Leased

/-! Reclamation by a reaper, step by step. Threads queue closed buffers and tell the reaper, others
take the whole queue, and in the end one thread asks the reaper to stop, waits for it and takes what
is left. Whoever looks at the queue holds its lock, so a look is one step; nobody holds the lock
while a buffer is disposed of, or when the reaper is told of something, so those are steps of their
own, and the schedule may take the steps of all of them in any order. -/

namespace QueryLease.Pool

inductive Disposer (ι : Type) where
  | reaper
  | collection (i : ι)
  | shutdown
  deriving DecidableEq

inductive Reaper (S : Source) where
  | absent
  | looking
  | disposing (taken : Nat × S.Buffer)
  | asleep
  | stopped

inductive Duty (S : Source) where
  | idle
  | telling (h : Nat)
  | collecting (batch : List (Nat × S.Buffer))
  | alerting
  | joining
  | emptying
  | draining (batch : List (Nat × S.Buffer))
  | done

def Duty.isIdle {S : Source} : Duty S → Bool
  | idle => true
  | _ => false

structure Reclaim (ι : Type) (S : Source) where
  desk : Desk S
  reaper : Reaper S
  threads : ι → Duty S := fun _ => .idle
  stopping : Bool := false
  /-- The buffers that have been queued, with their handles, latest first. -/
  queued : List (Nat × S.Buffer) := []
  /-- The buffers that have been disposed of, and by whom, latest first. -/
  log : List ((Nat × S.Buffer) × Disposer ι) := []

/-- An idle thread starts a call, any other one proceeds with its own. The reaper may wake up
although nobody has told it anything. -/
inductive Turn (ι : Type) (S : Source) where
  | enqueue (i : ι) (h : Nat) (buffer : S.Buffer)
  | collect (i : ι)
  | shutdown (i : ι)
  | proceed (i : ι)
  | reaper
  | stir

variable {ι : Type} {S : Source}

theorem reap_zero (d : Desk S) : (reap 0).run d = ((), d) := by
  unfold reap
  simp only [StateT.run_bind, StateT.run_get, pure_bind, List.drop_zero, List.take_zero]
  rfl

theorem reap_succ {d : Desk S} {e : Nat × S.Buffer} {rest : List (Nat × S.Buffer)}
    (hq : d.pool.queue = e :: rest) (n : Nat) :
    (reap (n + 1)).run d =
      (reap n).run
        ((disposeNow e.1 e.2).run { d with pool := { d.pool with queue := rest } }).2 := by
  unfold reap
  simp only [StateT.run_bind, StateT.run_get, pure_bind, hq, List.drop_succ_cons,
    List.take_succ_cons]
  rfl

theorem collect_run (d : Desk S) : (collect.run d).2 =
    ((d.pool.queue.forM fun e => disposeNow e.1 e.2).run
      { d with pool := { d.pool with queue := [] } }).2 := by
  unfold collect reap
  simp only [StateT.run_bind, StateT.run_get, pure_bind, List.drop_length, List.take_length]
  rfl

namespace Reclaim

def queue (s : Reclaim ι S) : List (Nat × S.Buffer) := s.desk.pool.queue

def opened (p : Pool S) (engine : S.State) (started : Bool) : Reclaim ι S where
  desk := ⟨{ p with mode := .background, queue := [] }, engine⟩
  reaper := if started then .looking else .absent

def act (s : Reclaim ι S) (x : PoolM S Unit) : Reclaim ι S := { s with desk := (x.run s.desk).2 }

def requeue (s : Reclaim ι S) (queue : List (Nat × S.Buffer)) : Reclaim ι S :=
  s.act (edit fun p => { p with queue })

@[simp] theorem queue_requeue (s : Reclaim ι S) (q : List (Nat × S.Buffer)) :
    (s.requeue q).queue = q := rfl

@[simp] theorem reaper_requeue (s : Reclaim ι S) (q : List (Nat × S.Buffer)) :
    (s.requeue q).reaper = s.reaper := rfl

@[simp] theorem threads_requeue (s : Reclaim ι S) (q : List (Nat × S.Buffer)) :
    (s.requeue q).threads = s.threads := rfl

def dispose (s : Reclaim ι S) (e : Nat × S.Buffer) (who : Disposer ι) : Reclaim ι S :=
  { s.act (disposeNow e.1 e.2) with log := (e, who) :: s.log }

@[simp] theorem queue_dispose (s : Reclaim ι S) (e : Nat × S.Buffer) (who : Disposer ι) :
    (s.dispose e who).queue = s.queue := rfl

@[simp] theorem reaper_dispose (s : Reclaim ι S) (e : Nat × S.Buffer) (who : Disposer ι) :
    (s.dispose e who).reaper = s.reaper := rfl

@[simp] theorem threads_dispose (s : Reclaim ι S) (e : Nat × S.Buffer) (who : Disposer ι) :
    (s.dispose e who).threads = s.threads := rfl

def wake (s : Reclaim ι S) : Reclaim ι S :=
  match s.reaper with
  | .asleep => { s with reaper := .looking }
  | _ => s

@[simp] theorem queue_wake (s : Reclaim ι S) : s.wake.queue = s.queue := by
  unfold wake
  split <;> rfl

@[simp] theorem threads_wake (s : Reclaim ι S) : s.wake.threads = s.threads := by
  unfold wake
  split <;> rfl

/-- One look at the queue under the lock, which going to sleep gives up in the same instant. -/
def look (s : Reclaim ι S) : Reclaim ι S :=
  match s.queue with
  | e :: rest => { s.requeue rest with reaper := .disposing e }
  | [] => { s with reaper := if s.stopping then .stopped else .asleep }

def reap (s : Reclaim ι S) : Reclaim ι S :=
  match s.reaper with
  | .looking => s.look
  | .disposing e => { s.dispose e .reaper with reaper := .looking }
  | .absent | .asleep | .stopped => s

variable [DecidableEq ι]

def put (s : Reclaim ι S) (i : ι) (t : Duty S) : Reclaim ι S :=
  { s with threads := Function.update s.threads i t }

@[simp] theorem queue_put (s : Reclaim ι S) (i : ι) (t : Duty S) :
    (s.put i t).queue = s.queue := rfl

@[simp] theorem reaper_put (s : Reclaim ι S) (i : ι) (t : Duty S) :
    (s.put i t).reaper = s.reaper := rfl

@[simp] theorem put_self (s : Reclaim ι S) (i : ι) (t : Duty S) :
    (s.put i t).threads i = t := Function.update_self ..

theorem put_of_ne (s : Reclaim ι S) {i j : ι} (h : j ≠ i) (t : Duty S) :
    (s.put i t).threads j = s.threads j := Function.update_of_ne h ..

def enqueue (s : Reclaim ι S) (i : ι) (h : Nat) (buffer : S.Buffer) : Reclaim ι S :=
  { (s.act (handOver h buffer)).put i (.telling h) with queued := (h, buffer) :: s.queued }

theorem enqueue_eq {s : Reclaim ι S} (hm : s.desk.pool.mode = .background) (i : ι) (h : Nat)
    (b : S.Buffer) : s.enqueue i h b =
      { (s.requeue (s.queue ++ [(h, b)])).put i (.telling h) with
        queued := (h, b) :: s.queued } := by
  simp only [enqueue, act, handOver, StateT.run_bind, StateT.run_get, pure_bind, hm]
  rfl

def collect (s : Reclaim ι S) (i : ι) : Reclaim ι S :=
  (s.requeue []).put i (.collecting s.queue)

def join (s : Reclaim ι S) (i : ι) : Reclaim ι S :=
  match s.reaper with
  | .absent | .stopped => s.put i .emptying
  | .looking | .disposing _ | .asleep => s

def proceed (s : Reclaim ι S) (i : ι) : Reclaim ι S :=
  match s.threads i with
  | .idle | .done => s
  | .telling _ => s.wake.put i .idle
  | .collecting [] => s.put i .idle
  | .collecting (e :: batch) => (s.dispose e (.collection i)).put i (.collecting batch)
  | .alerting => s.wake.put i .joining
  | .joining => s.join i
  | .emptying => (s.requeue []).put i (.draining s.queue)
  | .draining [] => s.put i .done
  | .draining (e :: batch) => (s.dispose e .shutdown).put i (.draining batch)

variable [Fintype ι]

/-- A call begins only if nobody has asked the reaper to stop, and the shutdown needs the queue for
itself. A turn that cannot be taken leaves all as it is. -/
def step (s : Reclaim ι S) : Turn ι S → Reclaim ι S
  | .enqueue i h buffer =>
    if (s.threads i).isIdle && !s.stopping then s.enqueue i h buffer else s
  | .collect i => if (s.threads i).isIdle && !s.stopping then s.collect i else s
  | .shutdown i =>
    if (∀ j, (s.threads j).isIdle) && !s.stopping then { s.put i .alerting with stopping := true }
    else s
  | .proceed i => s.proceed i
  | .reaper => s.reap
  | .stir => s.wake

def run (s : Reclaim ι S) (schedule : List (Turn ι S)) : Reclaim ι S := schedule.foldl step s

variable {s : Reclaim ι S} {i : ι}

theorem run_induction {P : Reclaim ι S → Prop} (step : ∀ s turn, P s → P (s.step turn))
    (h : P s) (schedule : List (Turn ι S)) : P (s.run schedule) := by
  induction schedule generalizing s with
  | nil => exact h
  | cons turn schedule ih => exact ih (step s turn h)

theorem run_collecting {batch : List (Nat × S.Buffer)} (h : s.threads i = .collecting batch) :
    let s' := s.run (List.replicate (batch.length + 1) (.proceed i))
    s'.threads i = .idle ∧ s'.desk = ((batch.forM fun e => disposeNow e.1 e.2).run s.desk).2 := by
  induction batch generalizing s with
  | nil =>
    have last : s.proceed i = s.put i .idle := by simp only [Reclaim.proceed, h]
    rw [List.length_nil, List.replicate_succ, List.replicate_zero, run, List.foldl_cons,
      List.foldl_nil, Reclaim.step, last]
    exact ⟨put_self .., rfl⟩
  | cons e batch ih =>
    have next : s.proceed i = (s.dispose e (.collection i)).put i (.collecting batch) := by
      simp only [Reclaim.proceed, h]
    rw [List.length_cons, List.replicate_succ, run, List.foldl_cons, Reclaim.step, next]
    exact ih (put_self ..)

theorem run_collect (idle : s.threads i = .idle) (running : s.stopping = false) :
    let s' := s.run (.collect i :: List.replicate (s.queue.length + 1) (.proceed i))
    s'.threads i = .idle ∧ s'.desk = (Pool.collect.run s.desk).2 := by
  have begun : s.step (.collect i) = s.collect i := by
    simp [Reclaim.step, idle, Duty.isIdle, running]
  rw [run, List.foldl_cons, begun, collect_run]
  exact run_collecting (put_self ..)

theorem desk_run_reaper (looking : s.reaper = .looking) {n : Nat} (h : n ≤ s.queue.length) :
    (s.run (List.replicate (2 * n) .reaper)).desk = ((Pool.reap n).run s.desk).2 := by
  induction n generalizing s with
  | zero => rw [reap_zero]; rfl
  | succ n ih =>
    obtain ⟨e, rest, hq⟩ := List.exists_cons_of_length_pos (Nat.lt_of_lt_of_le n.succ_pos h)
    have next : s.reap.reap = { (s.requeue rest).dispose e .reaper with reaper := .looking } := by
      simp only [Reclaim.reap, looking, Reclaim.look, hq]
      rfl
    rw [Nat.mul_succ, List.replicate_succ, List.replicate_succ, run, List.foldl_cons,
      List.foldl_cons, Reclaim.step, Reclaim.step, next, reap_succ hq]
    refine ih rfl ?_
    rw [hq] at h
    exact Nat.le_of_succ_le_succ h

end Reclaim

end QueryLease.Pool

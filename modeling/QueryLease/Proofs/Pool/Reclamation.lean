import Mathlib.Algebra.Order.Group.Multiset
import Mathlib.Tactic.Abel
import QueryLease.Proofs.Pool.Reaper

namespace QueryLease.Pool

variable {ι : Type} {S : Source}

def Duty.batch : Duty S → List (Nat × S.Buffer)
  | collecting batch | draining batch => batch
  | _ => []

def Duty.Tells : Duty S → Prop
  | telling _ | alerting => True
  | _ => False

def Duty.Ending : Duty S → Prop
  | idle | telling _ | collecting _ => False
  | alerting | joining | emptying | draining _ | done => True

def Duty.Last : Duty S → Prop
  | emptying | draining _ | done => True
  | _ => False

def Duty.Cleared : Duty S → Prop
  | draining _ | done => True
  | _ => False

theorem Duty.Last.ending {t : Duty S} (h : t.Last) : t.Ending := by
  cases t <;> trivial

theorem Duty.Cleared.last {t : Duty S} (h : t.Cleared) : t.Last := by
  cases t <;> trivial

theorem Duty.eq_idle {t : Duty S} (h : t.isIdle) : t = .idle := by
  cases t <;> first | rfl | cases h

def Reaper.taken : Reaper S → List (Nat × S.Buffer)
  | disposing e => [e]
  | _ => []

def Reaper.Gone : Reaper S → Prop
  | absent | stopped => True
  | _ => False

namespace Reclaim

variable {s : Reclaim ι S} {i : ι} {t : Duty S} {e : Nat × S.Buffer} {who : Disposer ι}

theorem wake_eq (s : Reclaim ι S) :
    ∃ reaper, s.wake = { s with reaper } ∧ reaper ≠ .asleep ∧ reaper.taken = s.reaper.taken ∧
      (reaper = .stopped → s.reaper = .stopped) ∧ (s.reaper.Gone → reaper.Gone) := by
  obtain ⟨desk, reaper, threads, stopping, queued, log⟩ := s
  cases reaper with
  | asleep => exact ⟨.looking, rfl, nofun, rfl, nofun, id⟩
  | absent => exact ⟨.absent, rfl, nofun, rfl, nofun, id⟩
  | looking => exact ⟨.looking, rfl, nofun, rfl, nofun, id⟩
  | disposing e => exact ⟨.disposing e, rfl, nofun, rfl, nofun, id⟩
  | stopped => exact ⟨.stopped, rfl, nofun, rfl, id, id⟩

section Order

/-- Whoever sleeps is about to be told of what waits, and the end comes in order: all threads but
one are idle, the reaper goes, and then nothing is queued any more. -/
structure Orderly (s : Reclaim ι S) : Prop where
  mode : s.desk.pool.mode = .background
  told : s.reaper = .asleep → ∀ e ∈ s.queue, ∃ i, s.threads i = .telling e.1
  alerted : s.reaper = .asleep → s.stopping = true → ∃ i, s.threads i = .alerting
  stopped : s.reaper = .stopped → s.stopping = true ∧ s.queue = []
  asked : s.stopping = true → ∃ i, (s.threads i).Ending
  asking : ∀ i, (s.threads i).Ending → s.stopping = true
  alone : ∀ i, (s.threads i).Ending → ∀ j ≠ i, s.threads j = .idle
  gone : ∀ i, (s.threads i).Last → s.reaper.Gone
  cleared : ∀ i, (s.threads i).Cleared → s.queue = []

theorem Orderly.of_running (mode : s.desk.pool.mode = .background) (running : s.stopping = false)
    (reaper : s.reaper ≠ .stopped) (threads : ∀ i, ¬ (s.threads i).Ending)
    (told : s.reaper = .asleep → ∀ e ∈ s.queue, ∃ i, s.threads i = .telling e.1) : Orderly s where
  mode := mode
  told := told
  alerted _ stops := absurd (running.symm.trans stops) nofun
  stopped h := absurd h reaper
  asked stops := absurd (running.symm.trans stops) nofun
  asking i h := absurd h (threads i)
  alone i h := absurd h (threads i)
  gone i h := absurd h.ending (threads i)
  cleared i h := absurd h.last.ending (threads i)

theorem Orderly.not_ending (o : Orderly s) (running : s.stopping = false) (i : ι) :
    ¬ (s.threads i).Ending := fun h => absurd (running.symm.trans (o.asking i h)) nofun

theorem Orderly.not_stopped (o : Orderly s) (running : s.stopping = false) :
    s.reaper ≠ .stopped := fun h => absurd (running.symm.trans (o.stopped h).1) nofun

theorem Orderly.reaper (o : Orderly s) {r r' : Reaper S} (at_r : s.reaper = r)
    (asleep : r' = .asleep → s.stopping = false ∧ s.queue = [])
    (stopped : r' = .stopped → s.stopping = true ∧ s.queue = [])
    (gone : r.Gone → r'.Gone) : Orderly { s with reaper := r' } where
  mode := o.mode
  told sleeps _ he := absurd ((asleep sleeps).2 ▸ he :) List.not_mem_nil
  alerted sleeps stops := absurd ((asleep sleeps).1.symm.trans stops) nofun
  stopped := stopped
  asked := o.asked
  asking := o.asking
  alone := o.alone
  gone i h := gone (at_r ▸ o.gone i h)
  cleared := o.cleared

theorem Orderly.wake (o : Orderly s) : Orderly s.wake ∧ s.wake.reaper ≠ .asleep := by
  obtain ⟨r, e, awake, -, stopped, gone⟩ := s.wake_eq
  rw [e]
  exact ⟨o.reaper rfl (absurd · awake) (fun h => o.stopped (stopped h)) gone, awake⟩

theorem Orderly.dispose (o : Orderly s) (e : Nat × S.Buffer) (who : Disposer ι) :
    Orderly (s.dispose e who) := { o with }

theorem Orderly.requeue (o : Orderly s) {q : List (Nat × S.Buffer)} (h : q ⊆ s.queue) :
    Orderly (s.requeue q) :=
  { o with
    told := fun sleeps e he => o.told sleeps e (h he)
    stopped := fun hr => ⟨(o.stopped hr).1, List.eq_nil_of_subset_nil ((o.stopped hr).2 ▸ h)⟩
    cleared := fun i hi => List.eq_nil_of_subset_nil (o.cleared i hi ▸ h) }

theorem Orderly.look (o : Orderly s) (looking : s.reaper = .looking) : Orderly s.look := by
  cases hq : s.queue with simp only [Reclaim.look, hq]
  | cons e rest =>
    have shorter : rest ⊆ s.queue := hq ▸ List.subset_cons_self e rest
    exact (o.requeue shorter).reaper looking (by simp) (by simp) id
  | nil =>
    by_cases hs : s.stopping
    · rw [if_pos hs]
      exact o.reaper looking (by simp) (fun _ => ⟨hs, hq⟩) False.elim
    · rw [if_neg hs]
      exact o.reaper looking (fun _ => ⟨Bool.eq_false_iff.2 hs, hq⟩) (by simp) False.elim

theorem Orderly.reap (o : Orderly s) : Orderly s.reap := by
  cases hr : s.reaper with simp only [Reclaim.reap, hr]
  | looking => exact o.look hr
  | disposing e => exact (o.dispose e .reaper).reaper hr (by simp) (by simp) id
  | absent | asleep | stopped => exact o

theorem orderly_opened (p : Pool S) (engine : S.State) (started : Bool) :
    Orderly (opened p engine started : Reclaim ι S) :=
  .of_running rfl rfl (by cases started <;> nofun) (fun _ => id) (by cases started <;> nofun)

variable [DecidableEq ι]

theorem not_ending_put (h : ∀ i, ¬ (s.threads i).Ending) (ht : ¬ t.Ending) (j : ι) :
    ¬ ((s.put i t).threads j).Ending := by
  by_cases hj : j = i
  · subst hj
    rwa [put_self]
  · rw [put_of_ne s hj]
    exact h j

theorem Orderly.put (o : Orderly s) {u : Duty S} (at_u : s.threads i = u) (busy : u ≠ .idle)
    (told : s.reaper = .asleep → ¬ u.Tells) (ending : t.Ending ↔ u.Ending)
    (last : t.Last → s.reaper.Gone) (cleared : t.Cleared → s.queue = []) : Orderly (s.put i t) := by
  subst at_u
  have ends (j : ι) : ((s.put i t).threads j).Ending ↔ (s.threads j).Ending := by
    by_cases h : j = i
    · subst h
      rwa [put_self]
    · rw [put_of_ne s h]
  -- A thread that owes the reaper a word while it sleeps is not the one that moves on.
  have keeps {u : Duty S} (hu : u.Tells) (sleeps : s.reaper = .asleep) :
      (∃ j, s.threads j = u) → ∃ j, (s.put i t).threads j = u := by
    rintro ⟨j, rfl⟩
    refine ⟨j, put_of_ne s ?_ t⟩
    rintro rfl
    exact told sleeps hu
  constructor
  case mode => exact o.mode
  case told => exact fun sleeps e he => keeps trivial sleeps (o.told sleeps e he)
  case alerted => exact fun sleeps stops => keeps trivial sleeps (o.alerted sleeps stops)
  case stopped => exact o.stopped
  case asked => exact fun stops => (o.asked stops).imp fun j => (ends j).2
  case asking => exact fun j hj => o.asking j ((ends j).1 hj)
  case alone =>
    intro j hj k hk
    rw [ends] at hj
    by_cases h : k = i
    · subst h
      exact absurd (o.alone j hj k hk) busy
    · rw [put_of_ne s h]
      exact o.alone j hj k hk
  case gone =>
    intro j hj
    by_cases h : j = i
    · subst h
      exact last (by rwa [put_self] at hj)
    · exact o.gone j (by rwa [put_of_ne s h] at hj)
  case cleared =>
    intro j hj
    by_cases h : j = i
    · subst h
      exact cleared (by rwa [put_self] at hj)
    · exact o.cleared j (by rwa [put_of_ne s h] at hj)

theorem Orderly.enqueue (o : Orderly s) (running : s.stopping = false) (idle : s.threads i = .idle)
    (h : Nat) (b : S.Buffer) : Orderly (s.enqueue i h b) := by
  rw [enqueue_eq o.mode]
  refine .of_running o.mode running (o.not_stopped running)
    (not_ending_put (o.not_ending running) id) fun sleeps e he => ?_
  rcases List.mem_append.1 he with he | he
  · obtain ⟨j, hj⟩ := o.told sleeps e he
    refine ⟨j, (put_of_ne _ ?_ _).trans hj⟩
    rintro rfl
    exact absurd (idle.symm.trans hj) nofun
  · obtain rfl := List.mem_singleton.1 he
    exact ⟨i, put_self ..⟩

theorem Orderly.collect (o : Orderly s) (running : s.stopping = false) (i : ι) :
    Orderly (s.collect i) :=
  .of_running o.mode running (o.not_stopped running) (not_ending_put (o.not_ending running) id)
    fun _ _ he => absurd he List.not_mem_nil

theorem Orderly.shutdown (o : Orderly s) (running : s.stopping = false)
    (idle : ∀ j, s.threads j = .idle) (i : ι) :
    Orderly { s.put i .alerting with stopping := true } := by
  have only {j : ι} (h : ((s.put i .alerting).threads j).Ending) : j = i := by
    by_contra hj
    rw [put_of_ne s hj, idle] at h
    exact h
  constructor
  case mode => exact o.mode
  case told =>
    intro sleeps e he
    obtain ⟨j, hj⟩ := o.told sleeps e he
    exact absurd ((idle j).symm.trans hj) nofun
  case alerted => exact fun _ _ => ⟨i, put_self ..⟩
  case stopped => exact fun h => absurd h (o.not_stopped running)
  case asked => exact fun _ => ⟨i, by simp [Duty.Ending]⟩
  case asking => exact fun _ _ => rfl
  case alone =>
    intro j hj k hk
    obtain rfl := only hj
    exact (put_of_ne s hk _).trans (idle k)
  case gone =>
    intro j (hj : ((s.put i .alerting).threads j).Last)
    obtain rfl := only hj.ending
    simp [Duty.Last] at hj
  case cleared =>
    intro j (hj : ((s.put i .alerting).threads j).Cleared)
    obtain rfl := only hj.last.ending
    simp [Duty.Cleared] at hj

theorem Orderly.proceed (o : Orderly s) (i : ι) : Orderly (s.proceed i) := by
  obtain ⟨woken, awake⟩ := o.wake
  have gone := o.gone i
  have cleared := o.cleared i
  cases ht : s.threads i with simp only [Reclaim.proceed, ht] at gone cleared ⊢
  | idle | done => exact o
  | telling h | alerting =>
    exact woken.put ((s.threads_wake ▸ ht :)) (by simp) (absurd · awake) Iff.rfl False.elim
      False.elim
  | collecting batch =>
    cases batch with
    | nil => exact o.put ht (by simp) (fun _ => id) Iff.rfl False.elim False.elim
    | cons e batch =>
      exact (o.dispose e _).put ht (by simp) (fun _ => id) Iff.rfl False.elim False.elim
  | joining =>
    cases hr : s.reaper with simp only [join, hr]
    | absent | stopped =>
      exact o.put ht (by simp) (fun _ => id) Iff.rfl (fun _ => hr ▸ trivial) False.elim
    | looking | disposing | asleep => exact o
  | emptying =>
    exact (o.requeue (List.nil_subset _)).put ht (by simp) (fun _ => id) Iff.rfl
      (fun _ => gone trivial) fun _ => rfl
  | draining batch =>
    cases batch with
    | nil =>
      exact o.put ht (by simp) (fun _ => id) Iff.rfl (fun _ => gone trivial)
        fun _ => cleared trivial
    | cons e batch =>
      exact (o.dispose e _).put ht (by simp) (fun _ => id) Iff.rfl (fun _ => gone trivial)
        fun _ => cleared trivial

variable [Fintype ι]

theorem Orderly.step (o : Orderly s) (turn : Turn ι S) : Orderly (s.step turn) := by
  cases turn with simp only [Reclaim.step, Bool.and_eq_true, Bool.not_eq_true']
  | enqueue i h b =>
    split_ifs with c
    · exact o.enqueue c.2 (Duty.eq_idle c.1) h b
    · exact o
  | collect i =>
    split_ifs with c
    · exact o.collect c.2 i
    · exact o
  | shutdown i =>
    split_ifs with c
    · exact o.shutdown c.2 (fun j => Duty.eq_idle (of_decide_eq_true c.1 j)) i
    · exact o
  | proceed i => exact o.proceed i
  | reaper => exact o.reap
  | stir => exact o.wake.1

end Order

section Places

abbrev Buffers (S : Source) : Type := Multiset (Nat × S.Buffer)

def elsewhere (s : Reclaim ι S) : Buffers S :=
  (s.queue : Buffers S) + (s.reaper.taken : Buffers S) + (s.log.map Prod.fst : Buffers S)

theorem elsewhere_requeue (s : Reclaim ι S) (q : List (Nat × S.Buffer)) :
    (s.requeue q).elsewhere + (s.queue : Buffers S) = (q : Buffers S) + s.elsewhere := by
  change (q : Buffers S) + (s.reaper.taken : Buffers S) + (s.log.map Prod.fst : Buffers S) + _ = _
  rw [elsewhere]
  abel

theorem elsewhere_dispose (s : Reclaim ι S) (e : Nat × S.Buffer) (who : Disposer ι) :
    (s.dispose e who).elsewhere = {e} + s.elsewhere := by
  change (s.queue : Buffers S) + (s.reaper.taken : Buffers S) +
    (e :: s.log.map Prod.fst : List (Nat × S.Buffer)) = _
  rw [elsewhere, ← Multiset.cons_coe, ← Multiset.singleton_add]
  abel

variable [Fintype ι]

def held (threads : ι → Duty S) : Buffers S := ∑ i, ((threads i).batch : Buffers S)

/-- Every buffer that was queued is in one place. -/
def Conserved (s : Reclaim ι S) : Prop := (s.queued : Buffers S) = s.elsewhere + held s.threads

theorem conserved_opened (p : Pool S) (engine : S.State) (started : Bool) :
    Conserved (opened p engine started : Reclaim ι S) := by
  cases started <;> simp [Conserved, elsewhere, held, opened, queue, Reaper.taken, Duty.batch]

theorem Conserved.once (c : Conserved s) (h : (s.queued.map Prod.fst).Nodup) :
    (s.log.map (·.1.1)).Nodup := by
  have le : (s.log.map Prod.fst : Buffers S) ≤ (s.queued : Buffers S) := by
    rw [c, elsewhere]
    exact (Multiset.le_add_left _ _).trans (Multiset.le_add_right _ _)
  have nodup : ((s.queued : Buffers S).map Prod.fst).Nodup := h
  have once := Multiset.nodup_of_le (Multiset.map_le_map le) nodup
  rwa [Multiset.map_coe, List.map_map] at once

theorem Conserved.wake (c : Conserved s) : Conserved s.wake := by
  obtain ⟨r, e, -, taken, -⟩ := s.wake_eq
  rw [e, Conserved, elsewhere, taken]
  exact c

theorem Conserved.aside (c : Conserved s) {s' : Reclaim ι S} (threads : s'.threads = s.threads)
    (queued : s'.queued = s.queued) (places : s'.elsewhere = s.elsewhere) : Conserved s' := by
  rw [Conserved, threads, queued, places]
  exact c

theorem Conserved.reap (c : Conserved s) : Conserved s.reap := by
  cases hr : s.reaper with simp only [Reclaim.reap, hr]
  | looking =>
    cases hq : s.queue with simp only [Reclaim.look, hq]
    | cons e rest =>
      refine c.aside rfl rfl ?_
      change (rest : Buffers S) + ([e] : List _) + (s.log.map Prod.fst : Buffers S) = _
      simp only [elsewhere, hq, hr, Reaper.taken, ← Multiset.singleton_add, ← Multiset.cons_coe]
      abel
    | nil =>
      refine c.aside rfl rfl ?_
      rw [elsewhere, elsewhere]
      split_ifs <;> simp [Reaper.taken, hr, queue]
  | disposing e =>
    refine c.aside rfl rfl ?_
    change (s.queue : Buffers S) + 0 + (e :: s.log.map Prod.fst : List _) = _
    simp only [elsewhere, hr, Reaper.taken, ← Multiset.singleton_add, ← Multiset.cons_coe]
    abel
  | absent | asleep | stopped => exact c

variable [DecidableEq ι]

theorem held_update (threads : ι → Duty S) (i : ι) :
    ∃ others, ∀ t, held (Function.update threads i t) = others + (t.batch : Buffers S) := by
  refine ⟨∑ j ∈ Finset.univ.erase i, ((threads j).batch : Buffers S), fun t => ?_⟩
  rw [held, ← Finset.sum_erase_add _ _ (Finset.mem_univ i), Function.update_self]
  refine congrArg (· + _) (Finset.sum_congr rfl fun j hj => ?_)
  rw [Function.update_of_ne (Finset.ne_of_mem_erase hj)]

theorem Conserved.move (c : Conserved s) {u : Duty S} (at_u : s.threads i = u)
    {s' : Reclaim ι S} (threads : s'.threads = Function.update s.threads i t) (new : Buffers S)
    (queued : (s'.queued : Buffers S) = new + s.queued)
    (places : s'.elsewhere + t.batch = new + s.elsewhere + u.batch) : Conserved s' := by
  obtain ⟨others, ho⟩ := held_update s.threads i
  have before : held s.threads = others + u.batch := by
    rw [← ho, ← at_u, Function.update_eq_self]
  calc (s'.queued : Buffers S)
    _ = new + (s.elsewhere + (others + u.batch)) := by rw [queued, c, before]
    _ = others + (new + s.elsewhere + u.batch) := by abel
    _ = others + (s'.elsewhere + t.batch) := by rw [places]
    _ = s'.elsewhere + (others + t.batch) := by abel
    _ = s'.elsewhere + held s'.threads := by rw [threads, ho]

theorem Conserved.put (c : Conserved s) {u : Duty S} (at_u : s.threads i = u)
    (same : u.batch = t.batch) : Conserved (s.put i t) :=
  c.move at_u rfl 0 (zero_add _).symm (by rw [same, zero_add]; rfl)

theorem Conserved.take (c : Conserved s) {u : Duty S} (at_u : s.threads i = u)
    (empty : u.batch = []) (all : t.batch = s.queue) : Conserved ((s.requeue []).put i t) := by
  refine c.move at_u rfl 0 (zero_add _).symm ?_
  rw [empty, all, zero_add, Multiset.coe_nil, add_zero]
  exact (s.elsewhere_requeue []).trans (zero_add _)

theorem Conserved.dispose (c : Conserved s) {u : Duty S} (at_u : s.threads i = u)
    (taken : u.batch = e :: t.batch) (who : Disposer ι) :
    Conserved ((s.dispose e who).put i t) := by
  refine c.move at_u rfl 0 (zero_add _).symm ?_
  change (s.dispose e who).elsewhere + t.batch = _
  rw [elsewhere_dispose, taken, ← Multiset.cons_coe, ← Multiset.singleton_add]
  abel

theorem Conserved.enqueue (c : Conserved s) (hm : s.desk.pool.mode = .background)
    (idle : s.threads i = .idle) (h : Nat) (b : S.Buffer) : Conserved (s.enqueue i h b) := by
  rw [enqueue_eq hm]
  refine c.move idle rfl {(h, b)} rfl ?_
  have more := s.elsewhere_requeue (s.queue ++ [(h, b)])
  rw [← Multiset.coe_add, add_assoc, add_comm, add_left_cancel_iff, Multiset.coe_singleton] at more
  exact congrArg (· + _) more

theorem Conserved.proceed (c : Conserved s) (i : ι) : Conserved (s.proceed i) := by
  cases ht : s.threads i with simp only [Reclaim.proceed, ht]
  | idle | done => exact c
  | telling h | alerting => exact c.wake.put ((s.threads_wake ▸ ht :)) rfl
  | collecting batch | draining batch =>
    cases batch with
    | nil => exact c.put ht rfl
    | cons e batch => exact c.dispose ht rfl _
  | joining =>
    cases hr : s.reaper with simp only [join, hr]
    | absent | stopped => exact c.put ht rfl
    | looking | disposing | asleep => exact c
  | emptying => exact c.take ht rfl rfl

theorem Conserved.step (c : Conserved s) (o : Orderly s) (turn : Turn ι S) :
    Conserved (s.step turn) := by
  cases turn with simp only [Reclaim.step, Bool.and_eq_true, Bool.not_eq_true']
  | enqueue i h b =>
    split_ifs with idle
    · exact c.enqueue o.mode (Duty.eq_idle idle.1) h b
    · exact c
  | collect i =>
    split_ifs with idle
    · exact c.take (Duty.eq_idle idle.1) rfl rfl
    · exact c
  | shutdown i =>
    split_ifs with idle
    · exact c.put (Duty.eq_idle (of_decide_eq_true idle.1 i)) rfl
    · exact c
  | proceed i => exact c.proceed i
  | reaper => exact c.reap
  | stir => exact c.wake

end Places

section Log

/-- The buffers in the log are what the source has been asked to dispose of, and all it has been
asked. -/
structure Logged (p : Pool S) (engine : S.State) (s : Reclaim ι S) : Prop where
  link : s.desk.pool.link = p.link
  engine : s.desk.engine = s.log.foldr (fun e => S.dispose p.link e.1.2) engine
  calls : disposals s.desk.pool.calls = s.log.map (·.1.1) ++ disposals p.calls

variable {p : Pool S} {engine : S.State}

theorem Logged.dispose (l : Logged p engine s) (e : Nat × S.Buffer) (who : Disposer ι) :
    Logged p engine (s.dispose e who) where
  link := l.link
  engine := by
    change S.dispose s.desk.pool.link e.2 s.desk.engine = _
    rw [l.link, l.engine]
    rfl
  calls := congrArg (e.1 :: ·) l.calls

theorem Logged.wake (l : Logged p engine s) : Logged p engine s.wake := by
  obtain ⟨r, e, -⟩ := s.wake_eq
  rw [e]
  exact { l with }

theorem Logged.reap (l : Logged p engine s) : Logged p engine s.reap := by
  cases hr : s.reaper with simp only [Reclaim.reap, hr]
  | looking =>
    cases hq : s.queue with simp only [Reclaim.look, hq]
    | cons e rest => exact { l with }
    | nil => exact { l with }
  | disposing e => exact { l.dispose e .reaper with }
  | absent | asleep | stopped => exact l

variable [DecidableEq ι]

theorem Logged.proceed (l : Logged p engine s) (i : ι) : Logged p engine (s.proceed i) := by
  cases ht : s.threads i with simp only [Reclaim.proceed, ht]
  | idle | done => exact l
  | telling h | alerting => exact { l.wake with }
  | collecting batch | draining batch =>
    cases batch with
    | nil => exact { l with }
    | cons e batch => exact { l.dispose e _ with }
  | joining =>
    cases hr : s.reaper with simp only [join, hr]
    | absent | stopped => exact { l with }
    | looking | disposing | asleep => exact l
  | emptying => exact { l with }

variable [Fintype ι]

theorem Logged.step (l : Logged p engine s) (o : Orderly s) (turn : Turn ι S) :
    Logged p engine (s.step turn) := by
  cases turn with simp only [Reclaim.step]
  | enqueue i h b =>
    rw [enqueue_eq o.mode]
    split_ifs
    · exact { l with }
    · exact l
  | collect i | shutdown i =>
    split_ifs
    · exact { l with }
    · exact l
  | proceed i => exact l.proceed i
  | reaper => exact l.reap
  | stir => exact l.wake

end Log

section End

def toilOfReaper : Reaper S → Nat
  | .absent | .asleep | .stopped => 0
  | .looking => 1
  | .disposing _ => 2

def toilOfEnding : Duty S → Nat
  | .idle | .telling _ | .collecting _ | .done => 0
  | .alerting => 5
  | .joining => 3
  | .emptying => 2
  | .draining batch => batch.length + 1

/-- A bound on the steps that are left when the reaper has been asked to stop. -/
def toil (s : Reclaim ι S) (i : ι) : Nat :=
  2 * s.queue.length + toilOfReaper s.reaper + toilOfEnding (s.threads i)

theorem toilOfReaper_wake (s : Reclaim ι S) :
    toilOfReaper s.wake.reaper ≤ toilOfReaper s.reaper + 1 := by
  obtain ⟨desk, reaper, threads, stopping, queued, log⟩ := s
  cases reaper <;> simp [Reclaim.wake, toilOfReaper]

variable [DecidableEq ι]

theorem Orderly.toil_reap (o : Orderly s) (ht : s.threads i = .joining) (left : ¬ s.reaper.Gone) :
    s.reap.threads = s.threads ∧ s.reap.toil i < s.toil i := by
  have stops : s.stopping = true := o.asking i (ht ▸ trivial)
  cases hr : s.reaper with simp only [Reclaim.reap, hr]
  | absent | stopped => exact absurd (hr ▸ trivial) left
  | asleep =>
    obtain ⟨j, hj⟩ := o.alerted hr stops
    have same : i = j := by
      by_contra other
      cases hj.symm.trans (o.alone i (ht ▸ trivial) j (Ne.symm other))
    subst same
    cases ht.symm.trans hj
  | looking =>
    cases hq : s.queue with simp only [Reclaim.look, hq]
    | cons e rest =>
      refine ⟨rfl, ?_⟩
      change 2 * rest.length + 2 + toilOfEnding (s.threads i) < _
      simp only [toil, hq, hr, toilOfReaper, List.length_cons]
      omega
    | nil =>
      rw [if_pos stops]
      refine ⟨trivial, ?_⟩
      change 2 * s.queue.length + 0 + toilOfEnding (s.threads i) < _
      simp [toil, hr, toilOfReaper]
  | disposing e =>
    refine ⟨rfl, ?_⟩
    change 2 * s.queue.length + 1 + toilOfEnding (s.threads i) < _
    simp [toil, hr, toilOfReaper]

variable [Fintype ι]

theorem Orderly.progress (o : Orderly s) (ending : (s.threads i).Ending)
    (left : s.threads i ≠ .done) :
    ∃ turn, ((s.step turn).threads i).Ending ∧ (s.step turn).toil i < s.toil i := by
  cases ht : s.threads i with rw [ht] at ending left
  | idle | telling h | collecting batch => exact absurd ending id
  | done => exact absurd rfl left
  | alerting =>
    have less := s.toilOfReaper_wake
    refine ⟨.proceed i, ?_⟩
    simp [Reclaim.step, Reclaim.proceed, ht, toil, toilOfEnding, Duty.Ending]
    omega
  | joining =>
    by_cases gone : s.reaper.Gone
    · refine ⟨.proceed i, ?_⟩
      cases hr : s.reaper with
      | absent | stopped =>
        simp [Reclaim.step, Reclaim.proceed, join, hr, ht, toil, toilOfEnding, Duty.Ending]
      | looking | disposing e | asleep => exact absurd (hr ▸ gone : Reaper.Gone _) id
    · obtain ⟨same, less⟩ := o.toil_reap ht gone
      exact ⟨.reaper, (congrFun same i).trans ht ▸ trivial, less⟩
  | emptying =>
    refine ⟨.proceed i, ?_⟩
    simp [Reclaim.step, Reclaim.proceed, ht, toil, toilOfEnding, Duty.Ending]
    omega
  | draining batch =>
    refine ⟨.proceed i, ?_⟩
    cases batch <;> simp [Reclaim.step, Reclaim.proceed, ht, toil, toilOfEnding, Duty.Ending]

theorem Orderly.ends (o : Orderly s) (ending : (s.threads i).Ending) :
    ∃ more, (s.run more).threads i = .done := by
  induction hn : s.toil i using Nat.strong_induction_on generalizing s with
  | h n ih =>
    subst hn
    by_cases done : s.threads i = .done
    · exact ⟨[], done⟩
    · obtain ⟨turn, ending', less⟩ := o.progress ending done
      obtain ⟨more, hm⟩ := ih _ less (o.step turn) ending' rfl
      exact ⟨turn :: more, hm⟩

end End

variable [Fintype ι]

theorem Orderly.done (o : Orderly s) (c : Conserved s) (h : s.threads i = .done) :
    (s.log.map Prod.fst).Perm s.queued := by
  have threads (j : ι) : (s.threads j).batch = [] := by
    by_cases hj : j = i
    · rw [hj, h]
      rfl
    · rw [o.alone i (h ▸ trivial) j hj]
      rfl
  have hands : held s.threads = 0 := Finset.sum_eq_zero fun j _ => by rw [threads]; rfl
  have gone : s.reaper.taken = [] := by
    have := o.gone i (h ▸ trivial)
    cases hr : s.reaper <;> simp_all [Reaper.Gone, Reaper.taken]
  refine (Multiset.coe_eq_coe.1 ?_).symm
  rw [c, hands, elsewhere, gone, o.cleared i (h ▸ trivial)]
  simp

end Reclaim

end QueryLease.Pool

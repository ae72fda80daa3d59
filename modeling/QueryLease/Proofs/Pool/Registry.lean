import Mathlib.Data.List.Sort
import QueryLease.Proofs.Pool.Tenure

namespace QueryLease

open Pool

namespace Lease.Word

def asked (w : Word) : Word :=
  if w.requested then w else if w.reads = 0 then .shut else w.request.2

def answer (w : Word) : Release :=
  if w.requested then .alreadyRequested else if w.reads = 0 then .freed else .deferred w.reads

variable {w : Word} {n : Nat}

theorem asked_again (requested : w.requested = true) : w.asked = w := if_pos requested

theorem answer_again (requested : w.requested = true) : w.answer = .alreadyRequested :=
  if_pos requested

theorem answer_bne (w : Word) : (w.answer != .alreadyRequested) = !w.requested := by
  unfold answer
  cases w.requested with
  | true =>
    rw [if_pos rfl]
    decide
  | false =>
    rw [if_neg Bool.false_ne_true]
    split_ifs <;> rfl

theorem Counts.asked (c : w.Counts n) : w.asked.Counts n ∧ w.asked.requested = true := by
  cases hr : w.requested with
  | true => exact (asked_again hr).symm ▸ ⟨c, hr⟩
  | false =>
    obtain ⟨v, hv, -, -, deferred⟩ := c.request_first hr
    rw [Word.asked, if_neg (Bool.eq_false_iff.1 hr), c.reads_eq, hv]
    split_ifs with h0
    · exact ⟨.inr (.inr ⟨rfl, h0⟩), requested_shut⟩
    · exact ⟨(deferred h0).2.2, (deferred h0).2.1⟩

theorem Counts.stage_eq (c : w.Counts n) : w.stage = (Lease.mk w.requested n).stage :=
  Tracks.stage (l := ⟨w.requested, n⟩) ⟨c, rfl⟩

theorem Counts.opened_iff (c : w.Counts n) : w.stage = .opened ↔ w.requested = false := by
  rw [c.stage_eq, stage_eq_opened]

theorem Counts.stage_asked (c : w.Counts n) :
    w.asked.stage = if w.reads = 0 then .closed else .closing := by
  rw [c.asked.1.stage_eq, c.asked.2, c.reads_eq]
  rfl

end Lease.Word

variable {S : Source}

namespace Pool

variable {d : Desk S} {p : Pool S} {G : Stake} {h k : Nat} {x : Handle S}

def Counted (p : Pool S) : Prop :=
  ∀ (h : Nat) (x : Handle S), p.handles[h]? = some x → ∃ n, x.word.Counts n

theorem Sound.counted (s : Sound G p) : p.Counted := fun h x hx => ⟨_, s.leased.counts h x hx⟩

theorem Counted.word (c : p.Counted) (h : Nat) : ∃ n, (p.word h).Counts n := by
  cases hx : p.handles[h]? with
  | none => exact ⟨0, .inr (.inr ⟨word_absent hx, rfl⟩)⟩
  | some x => exact word_eq hx ▸ c h x hx

def Handle.ask (x : Handle S) : Handle S := { x with word := x.word.asked }

def Requests (p q : Pool S) (asked : Nat → Prop) [DecidablePred asked] : Prop :=
  ∀ h, q.handles[h]? = if asked h then p.handles[h]?.map Handle.ask else p.handles[h]?

namespace Requests

variable {q : Pool S} {asked : Nat → Prop} [DecidablePred asked]

theorem word (r : Requests p q asked) (h : Nat) :
    q.word h = if asked h then (p.word h).asked else p.word h := by
  rw [Pool.word, r h, Pool.word]
  split_ifs
  · cases p.handles[h]? with
    | none => exact (Lease.Word.asked_again Lease.Word.requested_shut).symm
    | some x => rfl
  · rfl

theorem counted (r : Requests p q asked) (c : p.Counted) : q.Counted := by
  intro h x hx
  rw [r h] at hx
  split_ifs at hx
  · obtain ⟨y, hy, rfl⟩ := Option.map_eq_some_iff.1 hx
    obtain ⟨n, counts⟩ := c h y hy
    exact ⟨n, counts.asked.1⟩
  · exact c h x hx

theorem owned (r : Requests p q asked) : q.owned = p.owned := by
  funext h
  rw [Pool.owned, r h, Pool.owned]
  split_ifs
  · rw [Option.any_map]
    rfl
  · rfl

end Requests

theorem requestRelease_run_requested (c : d.pool.Counted)
    (requested : (d.pool.word k).requested = true) :
    (requestRelease k).run d = (.alreadyRequested, d) := by
  cases hx : d.pool.handles[k]? with
  | none =>
    have same (w : Lease.Word) : d.pool.update k (fun y => { y with word := w }) = d.pool :=
      update_eq_self fun y hy => by cases hx.symm.trans hy
    simp only [requestRelease, StateT.run_bind, StateT.run_get, pure_bind, word_absent hx]
    show (Lease.Release.alreadyRequested, { d with pool := d.pool.update k _ }) = _
    rw [same]
  | some x =>
    obtain ⟨n, counts⟩ := c k x hx
    exact requestRelease_run_again hx (counts.request_again (word_eq hx ▸ requested))

theorem requestRelease_asked (c : d.pool.Counted) (k : Nat) :
    let out := (requestRelease k).run d
    out.1 = (d.pool.word k).answer ∧ Requests d.pool out.2.pool (· = k) ∧
      out.2.pool.released = d.pool.released + if (d.pool.word k).requested then 0 else 1 := by
  cases hr : (d.pool.word k).requested with
  | true =>
    rw [requestRelease_run_requested c hr]
    refine ⟨(Lease.Word.answer_again hr).symm, fun h => ?_, rfl⟩
    split_ifs with same
    · subst same
      cases hx : d.pool.handles[h]? with
      | none => rfl
      | some x =>
        refine congrArg some ?_
        show x = { x with word := x.word.asked }
        rw [Lease.Word.asked_again (word_eq hx ▸ hr)]
    · rfl
  | false =>
    cases hx : d.pool.handles[k]? with
    | none =>
      rw [word_absent hx, Lease.Word.requested_shut] at hr
      cases hr
    | some x =>
      rw [word_eq hx] at hr ⊢
      obtain ⟨n, counts⟩ := c k x hx
      obtain ⟨v, hv, -, closing, deferred⟩ := counts.request_first hr
      have unrequested : ¬ x.word.requested = true := Bool.eq_false_iff.1 hr
      have handles (w : Lease.Word) (hw : w = x.word.asked) (h : Nat) :
          (d.pool.reword k w 1).handles[h]? =
            if h = k then d.pool.handles[h]?.map Handle.ask else d.pool.handles[h]? := by
        rw [reword, getElem?_update]
        simp only [eq_comm (a := k)]
        split_ifs with same
        · rw [same, hx, hw]
          rfl
        · rfl
      rw [Lease.Word.answer, if_neg unrequested, counts.reads_eq]
      rw [Lease.Word.asked, if_neg unrequested, counts.reads_eq, hv] at handles
      -- Unread, the word goes on to its last state, which counts as asked too.
      by_cases h0 : n = 0
      · subst h0
        rw [requestRelease_run_freed hx hv (closing rfl)]
        obtain ⟨same, released, -⟩ :=
          handOver_gone { d with pool := d.pool.reword k .shut 1 } k x.buffer k
        refine ⟨rfl, fun h => ?_, released⟩
        rw [same]
        exact handles .shut rfl h
      · rw [requestRelease_run_deferred hx hv h0, if_neg h0]
        exact ⟨rfl, handles v (if_neg h0).symm, rfl⟩

theorem Counted.ask (c : d.pool.Counted) (k : Nat) : ((requestRelease k).run d).2.pool.Counted :=
  (requestRelease_asked c k).2.1.counted c

theorem word_asked (c : d.pool.Counted) (other : h ≠ k) :
    ((requestRelease k).run d).2.pool.word h = d.pool.word h := by
  rw [(requestRelease_asked c k).2.1.word, if_neg other]

theorem mapM_requestRelease_cons (k : Nat) (ks : List Nat) (d : Desk S) :
    ((k :: ks).mapM requestRelease).run d =
      (((requestRelease k).run d).1 ::
          ((ks.mapM requestRelease).run ((requestRelease k).run d).2).1,
        ((ks.mapM requestRelease).run ((requestRelease k).run d).2).2) := by
  rw [List.mapM_cons]
  rfl

theorem mapM_requestRelease_asked {ks : List Nat} (c : d.pool.Counted) (once : ks.Nodup) :
    let out := (ks.mapM requestRelease).run d
    out.1 = ks.map (fun h => (d.pool.word h).answer) ∧
      Requests d.pool out.2.pool (· ∈ ks) ∧
      out.2.pool.released = d.pool.released + ks.countP fun h => !(d.pool.word h).requested := by
  induction ks generalizing d with
  | nil => exact ⟨rfl, fun _ => rfl, rfl⟩
  | cons k ks ih =>
    obtain ⟨new, once⟩ := List.nodup_cons.1 once
    obtain ⟨answer, handles, released⟩ := requestRelease_asked c k
    obtain ⟨answers, handles', released'⟩ := ih (c.ask k) once
    have others : ∀ h ∈ ks, ((requestRelease k).run d).2.pool.word h = d.pool.word h :=
      fun h mem => word_asked c fun same => new (same ▸ mem)
    rw [mapM_requestRelease_cons]
    refine ⟨?_, fun h => ?_, ?_⟩
    · rw [answer, answers, List.map_cons]
      exact congrArg _ (List.map_congr_left fun h mem => by rw [others h mem])
    · rw [handles' h, handles h]
      by_cases first : h = k
      · subst first
        rw [if_neg new, if_pos rfl, if_pos (List.mem_cons_self ..)]
      · simp only [List.mem_cons, first, false_or, if_false]
    · rw [released', released, List.countP_cons, Nat.add_assoc, Nat.add_comm (ite ..),
        List.countP_congr fun h mem => by rw [others h mem]]
      cases (d.pool.word k).requested <;> rfl

theorem mapM_requestRelease_skip {ks : List Nat} (c : d.pool.Counted) (once : ks.Nodup) :
    ((ks.mapM requestRelease).run d).2 =
      (((ks.filter fun h => !(d.pool.word h).requested).mapM requestRelease).run d).2 := by
  induction ks generalizing d with
  | nil => rfl
  | cons k ks ih =>
    obtain ⟨new, once⟩ := List.nodup_cons.1 once
    rw [mapM_requestRelease_cons]
    have others : ∀ h ∈ ks, ((requestRelease k).run d).2.pool.word h = d.pool.word h :=
      fun h mem => word_asked c fun same => new (same ▸ mem)
    show ((ks.mapM requestRelease).run ((requestRelease k).run d).2).2 = _
    cases hr : (d.pool.word k).requested with
    | true =>
      rw [List.filter_cons_of_neg (by simp [hr]), requestRelease_run_requested c hr]
      exact ih c once
    | false =>
      rw [List.filter_cons_of_pos (by simp [hr]), mapM_requestRelease_cons, ih (c.ask k) once]
      have same : (ks.filter fun h => !(((requestRelease k).run d).2.pool.word h).requested) =
          ks.filter fun h => !(d.pool.word h).requested :=
        List.filter_congr fun h mem => by rw [others h mem]
      rw [same]

/-- Every owned handle is tracked, and handles are tracked in the order of their making. -/
structure Registered (p : Pool S) : Prop where
  complete : p.Tracking
  ordered : p.tracked.Pairwise (· < ·)
  made : ∀ h ∈ p.tracked, h < p.handles.size

theorem Registered.fresh (link : S.Link) (mode : Mode) :
    Registered ({ link, mode } : Pool S) where
  complete h owned := by cases owned
  ordered := List.Pairwise.nil
  made h mem := absurd mem List.not_mem_nil

theorem Registered.filter_eq (r : p.Registered) :
    p.tracked.filter p.owned = (List.range p.handles.size).filter p.owned := by
  refine List.Pairwise.eq_of_mem_iff (r.ordered.filter _) (List.pairwise_lt_range.filter _) ?_
  intro h
  rw [List.mem_filter, List.mem_filter, List.mem_range]
  exact ⟨fun ⟨mem, owned⟩ => ⟨r.made h mem, owned⟩, fun ⟨_, owned⟩ => ⟨r.complete h owned, owned⟩⟩

theorem tracked_track (p : Pool S) (h : Nat) :
    ∃ kept, kept.Sublist p.tracked ∧ (p.track h).tracked = kept ++ [h] := by
  unfold track
  split_ifs
  · exact ⟨_, List.filter_sublist, rfl⟩
  · exact ⟨_, List.Sublist.refl _, rfl⟩

theorem Registered.enrol (r : p.Registered) (b : S.Buffer) (columns : List String) :
    (p.enrol b columns).Registered := by
  obtain ⟨kept, sub, tracked⟩ := p.tracked_track p.handles.size
  have made : ∀ h ∈ kept, h < p.handles.size := fun h mem => r.made h (sub.subset mem)
  refine ⟨r.complete.enrol b columns, ?_, fun h mem => ?_⟩
  · rw [enrol_eq]
    show (p.track p.handles.size).tracked.Pairwise (· < ·)
    rw [tracked, List.pairwise_append]
    refine ⟨r.ordered.sublist sub, List.pairwise_singleton _ _, fun h mem k last => ?_⟩
    exact List.mem_singleton.1 last ▸ made h mem
  · rw [enrol_eq] at mem
    rw [tracked] at mem
    rw [size_enrol]
    rcases List.mem_append.1 mem with mem | last
    · exact Nat.lt_succ_of_lt (made h mem)
    · exact List.mem_singleton.1 last ▸ Nat.lt_succ_self _

theorem Shift.absent {asks : Prop} {s : Option (Nat × Bool)} (t : Shift asks s none) :
    s = none := by
  cases t
  rfl

theorem Registered.sublist {q : Pool S} (r : p.Registered) (complete : q.Tracking)
    (sub : q.tracked.Sublist p.tracked) (size : p.handles.size ≤ q.handles.size) : q.Registered :=
  ⟨complete, r.ordered.sublist sub, fun h mem => (r.made h (sub.subset mem)).trans_le size⟩

end Pool

namespace Deed

variable {d : Desk S} {deed : Deed S} {G : Stake}

theorem tracked_sublist (old : ∀ text, deed ≠ .query text) :
    (deed.perform.run d).2.pool.tracked.Sublist d.pool.tracked := by
  by_cases all : deed = .releaseAll
  · subst all
    show (Pool.releaseAll.run d).2.pool.tracked.Sublist _
    rw [tracked_releaseAll]
    exact List.filter_sublist
  · rw [tracked_perform old all]

theorem registered (s : d.pool.Sound G) (possible : deed.possible d.pool = true)
    (r : d.pool.Registered) : (deed.perform.run d).2.pool.Registered := by
  have complete := tracking s possible r.complete
  rcases old_or_enrols deed d with old | same | ⟨b, columns, made⟩
  · refine r.sublist complete (tracked_sublist old) (Nat.le_of_not_lt fun fewer => ?_)
    -- A handle that is there is still there, as it has a standing.
    have shifted := shift s possible old (deed.perform.run d).2.pool.handles.size
    have gone : (deed.perform.run d).2.pool.standing
        (deed.perform.run d).2.pool.handles.size = none := by
      rw [standing, Array.getElem?_size]
      rfl
    rw [gone, standing_eq (Array.getElem?_eq_getElem fewer)] at shifted
    cases shifted.absent
  · rwa [same]
  · rw [made]
    exact r.enrol b columns

theorem registered_course (s : d.Sound) (r : d.pool.Registered) (deeds : List (Deed S)) :
    (course d deeds).pool.Registered := keeps_course registered s r deeds

end Deed

namespace Pool

variable {d : Desk S} {p : Pool S} {h : Nat}

/-- The owned handles, in the order of their making. -/
def ownedHandles (p : Pool S) : List Nat := (List.range p.handles.size).filter p.owned

def openHandles (p : Pool S) : List Nat :=
  p.ownedHandles.filter fun h => (p.word h).stage = .opened

theorem mem_ownedHandles : h ∈ p.ownedHandles ↔ p.owned h = true := by
  rw [ownedHandles, List.mem_filter, List.mem_range]
  refine and_iff_right_of_imp fun owned => ?_
  by_contra absent
  rw [Pool.owned, Array.getElem?_eq_none (Nat.le_of_not_lt absent)] at owned
  cases owned

theorem mem_openHandles :
    h ∈ p.openHandles ↔ p.owned h = true ∧ (p.word h).stage = .opened := by
  rw [openHandles, List.mem_filter, mem_ownedHandles, decide_eq_true_iff]

theorem nodup_ownedHandles (p : Pool S) : p.ownedHandles.Nodup := List.nodup_range.filter _

theorem openHandles_eq (c : p.Counted) :
    p.openHandles = p.ownedHandles.filter fun h => !(p.word h).requested := by
  refine List.filter_congr fun h _ => ?_
  obtain ⟨n, counts⟩ := c.word h
  rw [Bool.eq_iff_iff, decide_eq_true_iff, counts.opened_iff, Bool.not_eq_true']

theorem releaseAll_run (d : Desk S) : releaseAll.run d =
    let out := (d.pool.prune.tracked.mapM requestRelease).run { d with pool := d.pool.prune }
    (out.1.countP (· != .alreadyRequested), out.2) := rfl

theorem releaseAll_tracked (r : d.pool.Registered) (c : d.pool.Counted) :
    let swept := releaseAll.run d
    swept.1 = d.pool.openHandles.length ∧
      (d.pool.openHandles.mapM requestRelease).run { d with pool := d.pool.prune } =
        (d.pool.openHandles.map fun h => (d.pool.word h).answer, swept.2) ∧
      Requests d.pool swept.2.pool (· ∈ d.pool.openHandles) ∧
      swept.2.pool.released = d.pool.released + d.pool.openHandles.length := by
  have tracked : d.pool.prune.tracked = d.pool.ownedHandles := r.filter_eq
  have once := nodup_ownedHandles d.pool
  have pruned : { d with pool := d.pool.prune }.pool.Counted := c
  have few : d.pool.openHandles.Nodup := once.filter _
  have skip := mapM_requestRelease_skip pruned once
  obtain ⟨answers, -, -⟩ := mapM_requestRelease_asked pruned once
  obtain ⟨answers', handles', released'⟩ := mapM_requestRelease_asked pruned few
  have opens : (d.pool.ownedHandles.filter fun h =>
      !({ d with pool := d.pool.prune }.pool.word h).requested) = d.pool.openHandles :=
    (openHandles_eq c).symm
  rw [opens] at skip
  rw [releaseAll_run, tracked]
  dsimp only
  rw [skip]
  refine ⟨?_, Prod.ext answers' rfl, handles', ?_⟩
  · rw [answers, List.countP_map, openHandles_eq c, ← List.countP_eq_length_filter]
    exact List.countP_congr fun h _ => by
      rw [Function.comp_apply, Lease.Word.answer_bne]
      rfl
  · refine released'.trans (congrArg _ (List.countP_eq_length.2 fun h mem => ?_))
    obtain ⟨n, counts⟩ := c.word h
    have unrequested := counts.opened_iff.1 (mem_openHandles.1 mem).2
    show (!(d.pool.word h).requested) = true
    rw [unrequested]
    rfl

theorem releaseAll_idle (c : d.pool.Counted) (once : d.pool.tracked.Nodup)
    (owned : ∀ h ∈ d.pool.tracked, d.pool.owned h = true)
    (requested : ∀ h ∈ d.pool.tracked, (d.pool.word h).requested = true) :
    releaseAll.run d = (0, d) := by
  have same : d.pool.prune = d.pool := by
    unfold prune
    rw [List.filter_eq_self.2 owned]
  have skip := mapM_requestRelease_skip c once
  rw [List.filter_eq_nil_iff.2 fun h mem => by simp [requested h mem]] at skip
  rw [releaseAll_run, same]
  refine Prod.ext (List.countP_eq_zero.2 fun outcome mem => ?_) skip
  rw [(mapM_requestRelease_asked c once).1] at mem
  obtain ⟨h, hm, rfl⟩ := List.mem_map.1 mem
  rw [Lease.Word.answer_again (requested h hm)]
  decide

/-- Whatever has been done with the results of one connection, however often handles were made,
dropped and pruned: those that are owned are all known, and a release of all is a request to each
that is open, in the order of their making, and to no other. -/
theorem owned_all_released (link : S.Link) (mode : Mode) (engine : S.State)
    (deeds : List (Deed S)) :
    let now := Deed.course ⟨{ link, mode }, engine⟩ deeds
    let p := now.pool
    let swept := releaseAll.run now
    let q := swept.2.pool
    p.stats.live = p.ownedHandles.length ∧
    -- What it asks for, and what it is answered.
    swept.1 = p.openHandles.length ∧ q.released = p.released + p.openHandles.length ∧
    (p.openHandles.mapM requestRelease).run { now with pool := p.prune } =
      (p.openHandles.map fun h =>
        if (p.word h).reads = 0 then .freed else .deferred (p.word h).reads, swept.2) ∧
    -- What becomes of the handles.
    (∀ h ∈ p.openHandles, (q.word h).reads = (p.word h).reads ∧
      (q.word h).stage = if (p.word h).reads = 0 then .closed else .closing) ∧
    (∀ h, h ∉ p.openHandles → q.handles[h]? = p.handles[h]?) ∧
    q.owned = p.owned ∧ (∀ h, q.owned h = true → (q.word h).stage ≠ .opened) ∧
    releaseAll.run swept.2 = (0, swept.2) := by
  intro now p swept q
  have fresh := Desk.Sound.fresh link mode engine
  have r : p.Registered := Deed.registered_course fresh (.fresh link mode) deeds
  obtain ⟨G, s⟩ : now.Sound := fresh.course deeds
  have c : p.Counted := s.counted
  obtain ⟨count, requests, handles, released⟩ := releaseAll_tracked r c
  have asked (h : Nat) (mem : h ∈ p.openHandles) : q.word h = (p.word h).asked :=
    (handles.word h).trans (if_pos mem)
  have same (h : Nat) (out : h ∉ p.openHandles) : q.handles[h]? = p.handles[h]? :=
    (handles h).trans (if_neg out)
  have shut (h : Nat) (owner : p.owned h = true) : (q.word h).requested = true := by
    obtain ⟨n, counts⟩ := c.word h
    by_cases mem : h ∈ p.openHandles
    · rw [asked h mem]
      exact counts.asked.2
    · rw [word, same h mem, ← word]
      refine Bool.of_not_eq_false fun opened => mem ?_
      exact mem_openHandles.2 ⟨owner, counts.opened_iff.2 opened⟩
  have owned : q.owned = p.owned := handles.owned
  have counted : q.Counted := handles.counted c
  have tracked : q.tracked = p.ownedHandles := (tracked_releaseAll now).trans r.filter_eq
  refine ⟨?_, count, released, requests.trans (Prod.ext ?_ rfl), fun h mem => ?_, same, owned,
    fun h owner opened => ?_, ?_⟩
  · rw [stats, ownedHandles, ← r.filter_eq, List.countP_eq_length_filter]
  · refine List.map_congr_left fun h mem => if_neg ?_
    obtain ⟨n, counts⟩ := c.word h
    exact Bool.eq_false_iff.1 (counts.opened_iff.1 (mem_openHandles.1 mem).2)
  · obtain ⟨n, counts⟩ := c.word h
    rw [asked h mem, counts.stage_asked, counts.asked.1.reads_eq, counts.reads_eq]
    exact ⟨rfl, rfl⟩
  · obtain ⟨n, counts⟩ := counted.word h
    have requested := shut h (owned ▸ owner)
    rw [counts.opened_iff.1 opened] at requested
    cases requested
  · refine releaseAll_idle counted (tracked ▸ nodup_ownedHandles p) (fun h mem => ?_)
      fun h mem => ?_
    · exact owned ▸ mem_ownedHandles.1 (tracked ▸ mem)
    · exact shut h (mem_ownedHandles.1 (tracked ▸ mem))

end Pool

end QueryLease

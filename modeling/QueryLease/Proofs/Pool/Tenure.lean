import QueryLease.Proofs.Pool.Standing

namespace QueryLease

open Pool

variable {S : Source} {d : Desk S} {G : Stake} {h : Nat} {deed : Deed S} {deeds : List (Deed S)}

namespace Lease.Word

theorem Counts.acquire_of_not_requested {w : Word} {n : Nat} (c : w.Counts n)
    (fresh : w.requested = false) :
    w.stage = .opened ∧ w ≠ .shut ∧ ((∃ v, w.acquire = .ok v) ∨ w.full = true) := by
  have t : w.Tracks ⟨false, n⟩ := ⟨c, fresh⟩
  refine ⟨t.stage, fun shut => ?_, ?_⟩
  · rw [shut, requested_shut] at fresh
    cases fresh
  · by_cases room : n = 2 ^ 62 - 1
    · refine .inr ?_
      rw [t.eq_pack, full_pack t.small]
      exact decide_eq_true (show n + 1 = limit by rw [room]; rfl)
    · rcases t.acquire fun _ => room with ⟨v, hv, -⟩ | ⟨-, requested⟩
      · exact .inl ⟨v, hv⟩
      · cases requested

end Lease.Word

namespace Deed

theorem tracking_course (s : d.Sound) (t : d.pool.Tracking) (deeds : List (Deed S)) :
    (course d deeds).pool.Tracking := keeps_course tracking s t deeds

theorem standing_take (s : d.Sound) (deed : Deed S) (h : Nat) :
    Shift (deed.Asks h) (d.pool.standing h) ((deed.take d).pool.standing h) ∨
      d.pool.standing h = none ∧ (deed.take d).pool.standing h = some (1, false) := by
  obtain ⟨G, s⟩ := s
  unfold take
  split_ifs with possible
  · rcases old_or_enrols deed d with old | same | ⟨b, columns, made⟩
    · exact .inl (shift s possible old h)
    · rw [same]
      exact .inl (.still _)
    · rw [made, standing_enrol]
      split_ifs with new
      · refine .inr ⟨?_, rfl⟩
        rw [standing, new, Array.getElem?_size]
        rfl
      · exact .inl (.still _)
  · exact .inl (.still _)

theorem asked_course (s : d.Sound) (a : d.pool.Asked h) (deeds : List (Deed S)) :
    (course d deeds).pool.Asked h := by
  induction deeds generalizing d with
  | nil => exact a
  | cons deed deeds ih =>
    refine ih (s.take deed) ?_
    rcases standing_take s deed h with t | ⟨none, -⟩
    · exact a.shift t
    · obtain ⟨n, hn⟩ := a
      exact absurd (none.symm.trans hn) nofun

theorem unasked_course (s : d.Sound) (u : d.pool.Unasked h)
    (unasked : ∀ deed ∈ deeds, ¬ deed.Asks h) : (course d deeds).pool.Unasked h := by
  induction deeds generalizing d with
  | nil => exact u
  | cons deed deeds ih =>
    obtain ⟨first, others⟩ := List.forall_mem_cons.1 unasked
    refine ih (s.take deed) ?_ others
    rcases standing_take s deed h with t | ⟨-, new⟩
    · exact u.shift t first
    · intro n hn
      cases new.symm.trans hn

end Deed

namespace Pool

theorem Sound.opened (s : Sound G d.pool) (owned : d.pool.owned h = true)
    (unasked : d.pool.Unasked h) :
    (d.pool.word h).stage = .opened ∧ h ∉ d.pool.gone [] ∧
      (((acquire h).run d).1 = .ok () ∨ (d.pool.word h).full = true) := by
  have h0 := owned_iff.1 owned
  rw [s.holders_eq] at h0
  obtain ⟨x, hx, -⟩ := s.exists_handle h0
  have requested := unasked.not_requested owned
  have counts := s.leased.counts h x hx
  rw [← word_eq hx] at counts
  obtain ⟨opened, hw, room⟩ := counts.acquire_of_not_requested requested
  refine ⟨opened, ?_, room.imp_left ?_⟩
  · have once := s.leased.gone_once h
    rw [hx, Option.elim_some, ← word_eq hx, Lease.Word.shutCount, if_neg hw] at once
    exact List.count_eq_zero.1 once
  · rintro ⟨v, hv⟩
    rw [acquire_run_ok hv]

theorem Sound.drop_last (s : Sound G d.pool) (possible : Deed.possible d.pool (.drop h) = true)
    (last : d.pool.holders h = 1) :
    let q := ((drop h).run d).2.pool
    (q.word h).stage = .closed ∧
      q.released = d.pool.released + (if (d.pool.word h).requested then 0 else 1) ∧
      ∀ k, (q.gone []).count k = (d.pool.gone []).count k +
        if k = h ∧ (d.pool.word h).requested = false then 1 else 0 := by
  intro q
  have h0 := last
  rw [s.holders_eq] at h0
  obtain ⟨x, hx, owners⟩ := s.exists_handle (h0 ▸ Nat.one_ne_zero)
  have unread : G (.read h) = 0 := by
    have := (Bool.and_eq_true_iff.1 possible).2
    rw [last, s.reads_eq] at this
    simpa using this
  have counts := s.leased.counts h x hx
  rw [unread] at counts
  obtain ⟨handles, released⟩ := drop_run_last hx (owners.trans h0) counts
  obtain ⟨G', s'⟩ := Desk.Sound.perform s possible
  have hy : q.handles[h]? = some { x with owners := 0, word := .shut } :=
    (handles h).trans (if_pos rfl)
  rw [word_eq hx]
  have closed : Lease.Word.shut.stage = .closed := rfl
  refine ⟨(congrArg _ (word_eq hy)).trans closed, released, fun k => ?_⟩
  have before := s.leased.gone_once k
  have after : (q.gone []).count k = _ := s'.leased.gone_once k
  rw [before, after, show ((Deed.drop h).perform.run d).2.pool.handles[k]? = _ from handles k]
  by_cases hk : h = k
  · subst hk
    rw [if_pos rfl, hx, Option.elim_some, Option.elim_some, Lease.Word.shutCount, if_pos rfl,
      Lease.Word.shutCount]
    cases requested : x.word.requested with
    | true => rw [if_pos (counts.eq_shut requested), if_neg (by simp)]
    | false =>
      have opened : x.word ≠ .shut := fun shut => by
        rw [shut, Lease.Word.requested_shut] at requested
        cases requested
      rw [if_neg opened, if_pos ⟨rfl, rfl⟩]
  · rw [if_neg hk, if_neg fun both => hk both.1.symm, Nat.add_zero]

theorem Sound.gone_le_one (s : Sound G d.pool) (k : Nat) : (d.pool.gone []).count k ≤ 1 := by
  rw [s.leased.gone_once]
  cases d.pool.handles[k]? with
  | none => exact Nat.zero_le 1
  | some x =>
    rw [Option.elim_some, Lease.Word.shutCount]
    split_ifs <;> simp

/-- Whatever is done with the results of one connection, in whatever order. A read is refused to an
owner only if the word can count no further one, which ends the program. -/
theorem last_owner_frees (link : S.Link) (mode : Mode) (engine : S.State)
    (before after : List (Deed S)) (h : Nat) :
    let earlier := Deed.course ⟨{ link, mode }, engine⟩ before
    let now := Deed.course earlier after
    let p := now.pool
    let dropped := (drop h).run now
    -- While somebody owns a result, and nobody has asked for its release since it was made.
    (earlier.pool.handles.size ≤ h → (∀ deed ∈ after, ¬ deed.Asks h) → p.owned h = true →
      (p.word h).stage = .opened ∧ h ∉ p.gone [] ∧
        (((acquire h).run now).1 = .ok () ∨ (p.word h).full = true)) ∧
    -- Once somebody has asked for it.
    (∀ deed : Deed S, deed.Asks h → deed.possible p = true → p.owned h = true →
      ∀ later, ((Deed.course (deed.take now) later).pool.word h).requested = true) ∧
    -- When one of its owners goes.
    (Deed.possible p (.drop h) = true →
      (p.holders h ≠ 1 → dropped =
        ((), { now with pool := p.update h fun x => { x with owners := x.owners - 1 } })) ∧
      (p.holders h = 1 → (dropped.2.pool.word h).stage = .closed ∧
        dropped.2.pool.released = p.released + (if (p.word h).requested then 0 else 1) ∧
        ∀ k, (dropped.2.pool.gone []).count k = (p.gone []).count k +
          if k = h ∧ (p.word h).requested = false then 1 else 0)) ∧
    (∀ k, (p.gone []).count k ≤ 1) ∧
    -- The link outlives all owners, and then the buffers.
    (p.connections ≠ 0 ∨ (∃ k, p.owned k = true) → p.owners ≠ 0) ∧
    (p.owners ≠ 0 → .close ∉ p.calls) ∧ (p.owners = 0 → p.queue = [] ∧ p.Ended) := by
  intro earlier now p dropped
  have fresh := Desk.Sound.fresh link mode engine
  have sound : earlier.Sound := fresh.course before
  have tracking : earlier.pool.Tracking :=
    Deed.tracking_course fresh (fun k owned => by cases owned) before
  have reached : now.Sound := sound.course after
  obtain ⟨G, s⟩ := reached
  refine ⟨fun new unasked owned => ?_, fun deed asks possible owned later => ?_,
    fun possible => ⟨fun several => ?_, s.drop_last possible⟩, s.gone_le_one, ?_, s.linked,
    fun h0 => ⟨(s.ended h0).1, s.ended_of_owners h0⟩⟩
  · have absent : earlier.pool.Unasked h := fun n hn => by
      rw [standing, Array.getElem?_eq_none new] at hn
      cases hn
    exact s.opened owned (Deed.unasked_course sound absent unasked)
  · refine (Deed.asked_course (Desk.Sound.take ⟨G, s⟩ deed) ?_ later).requested
    rw [Deed.take, if_pos possible]
    exact Deed.asked s (Deed.tracking_course sound tracking after) possible asks owned
  · have owned := owned_iff.1 (Bool.and_eq_true_iff.1 possible).1
    rw [s.holders_eq] at owned
    obtain ⟨x, hx, hn⟩ := s.exists_handle owned
    rw [holders_eq hx] at several
    exact drop_run_shared hx (by omega)
  · rintro (connected | ⟨k, owned⟩)
    · exact s.owners_ne_zero (.inl (s.connections_eq ▸ connected))
    · exact s.owners_ne_zero (.inr ⟨k, s.holders_eq k ▸ owned_iff.1 owned⟩)

def oneQuery : Desk .tables where
  pool := { link := (), mode := .deferred }
  engine := { queries := [("n", { table := { columns := ["n"] } })] }

/-- A clone outlives the connection, and keeps the buffer. -/
example :
    let p := (Deed.course oneQuery [.query "n", .retain 0, .leave, .drop 0]).pool
    (p.word 0).stage = .opened ∧ p.owners = 1 ∧ p.calls = [] := by decide

example :
    (Deed.course oneQuery [.query "n", .retain 0, .leave, .drop 0, .drop 0]).pool.calls =
      [.close, .dispose 0 .shut] := by decide

end Pool

end QueryLease

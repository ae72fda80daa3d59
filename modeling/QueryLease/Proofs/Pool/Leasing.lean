import QueryLease.Proofs.Alike
import QueryLease.Proofs.Pool.Upkeep

namespace QueryLease.Pool

variable {S : Source} {B : Type}

structure Steady (p q : Pool S) : Prop where
  link : q.link = p.link
  mode : q.mode = p.mode
  owners : q.owners = p.owners
  owned : q.handles.map (·.owners) = p.handles.map (·.owners)
  requested : ∀ (h : Nat) (x y : Handle S), p.handles[h]? = some x → q.handles[h]? = some y →
    x.word.requested = true → y.word.requested = true

theorem Steady.refl (p : Pool S) : Steady p p where
  link := rfl
  mode := rfl
  owners := rfl
  owned := rfl
  requested _ _ _ hx hy := by
    obtain rfl := Option.some.inj (hx.symm.trans hy)
    exact id

/-- A pool after operations on the leases of `p`, beside the state of its source. -/
structure Leasing (U : Upkeep S B) (A : Multiset (Asset S B)) (p : Pool S) (reads : Nat → Nat)
    (inHand : List (Nat × S.Buffer)) (d : Desk S) : Prop where
  steady : Steady p d.pool
  leased : Leased reads inHand d.pool
  linked : Call.close ∉ d.pool.calls
  good : U.Good (.link d.pool.link ::ₘ (d.pool.stock inHand + A)) d.engine

variable {U : Upkeep S B} {A : Multiset (Asset S B)} {p : Pool S} {reads : Nat → Nat}
  {inHand : List (Nat × S.Buffer)} {d : Desk S} {h n : Nat} {x : Handle S} {w : Lease.Word}

namespace Steady

variable {q : Pool S}

theorem update {g : Handle S → Handle S} (s : Steady p q) (ho : ∀ x, (g x).owners = x.owners)
    (hr : ∀ x, q.handles[h]? = some x → x.word.requested = true → (g x).word.requested = true) :
    Steady p (q.update h g) where
  link := s.link
  mode := s.mode
  owners := s.owners
  owned := by
    rw [← s.owned]
    apply Array.ext_getElem?
    intro i
    rw [Array.getElem?_map, Array.getElem?_map, getElem?_update]
    split_ifs
    · cases q.handles[i]? with
      | none => rfl
      | some x => exact congrArg some (ho x)
    · rfl
  requested i y z hy hz := by
    rw [getElem?_update] at hz
    split_ifs at hz with hi
    · subst hi
      obtain ⟨x, hx, rfl⟩ := Option.map_eq_some_iff.1 hz
      exact fun hr' => hr x hx (s.requested h y x hy hx hr')
    · exact s.requested i y z hy hz

theorem reword {k : Nat} (s : Steady p q) (hx : q.handles[h]? = some x)
    (hw : x.word.requested = true → w.requested = true) : Steady p (q.reword h w k) := by
  obtain ⟨link, mode, owners, owned, requested⟩ := s.update (h := h)
    (g := fun x => { x with word := w }) (fun _ => rfl) fun y hy => by
      obtain rfl := Option.some.inj (hx.symm.trans hy)
      exact hw
  exact ⟨link, mode, owners, owned, requested⟩

theorem note (s : Steady p q) (call : Call) : Steady p (q.note call) :=
  ⟨s.link, s.mode, s.owners, s.owned, s.requested⟩

end Steady

theorem disposeNow_keeps (b : S.Buffer) :
    Keeps (Leasing U A p reads ((h, b) :: inHand)) (disposeNow h b)
      fun _ => Leasing U A p reads inHand := by
  apply Alike.of_modify
  rintro d ⟨steady, leased, linked, good⟩
  refine ⟨⟨steady.link, steady.mode, steady.owners, steady.owned, steady.requested⟩,
    leased.disposeNow linked, ?_, ?_⟩
  · rintro (_ | ⟨_, hc⟩)
    exact linked hc
  · rw [stock_cons, Multiset.cons_add, Multiset.cons_swap] at good
    have := U.dispose good
    rwa [Multiset.cons_swap, ← Multiset.cons_add, ← stock_disposed] at this

theorem handOver_keeps (b : S.Buffer) :
    Keeps (Leasing U A p reads ((h, b) :: inHand)) (handOver h b)
      fun _ => Leasing U A p reads inHand := by
  have queued : ∀ d, Leasing U A p reads ((h, b) :: inHand) d → d.pool.mode ≠ .inline →
      Leasing U A p reads inHand { d with pool.queue := d.pool.queue ++ [(h, b)] } := by
    rintro d ⟨steady, leased, linked, good⟩ hm
    refine ⟨⟨steady.link, steady.mode, steady.owners, steady.owned, steady.requested⟩,
      leased.enqueue hm, linked, ?_⟩
    rwa [stock_queue]
    rw [← List.append_assoc]
    exact List.perm_append_singleton ..
  apply Alike.get_bind
  intro d hd
  cases hm : d.pool.mode with
  | inline => exact (disposeNow_keeps b).weaken (fun _ e => e ▸ hd) fun _ _ => id
  | deferred => exact Alike.of_eq rfl (queued d hd (by rw [hm]; decide))
  | background => exact Alike.of_eq rfl (queued d hd (by rw [hm]; decide))

theorem forM_disposeNow_keeps (queue : List (Nat × S.Buffer)) :
    Keeps (Leasing U A p reads queue) (queue.forM fun entry => disposeNow entry.1 entry.2)
      fun _ => Leasing U A p reads [] := by
  induction queue with
  | nil => exact Alike.still
  | cons entry queue ih => exact (disposeNow_keeps entry.2).bind fun _ => ih

theorem reap_keeps (n : Nat) :
    Keeps (Leasing U A p reads []) (reap n) fun _ => Leasing U A p reads [] := by
  apply Alike.get_bind
  intro d ⟨steady, leased, linked, good⟩
  refine Alike.bind (q := fun _ => Leasing U A p reads (d.pool.queue.take n)) (Alike.of_eq rfl ?_)
    fun _ => forM_disposeNow_keeps _
  refine ⟨⟨steady.link, steady.mode, steady.owners, steady.owned, steady.requested⟩,
    leased.take n, linked, ?_⟩
  show U.Good (_ ::ₘ (Pool.stock { d.pool with queue := _ } (d.pool.queue.take n) + A)) d.engine
  rwa [stock_queue]
  rw [List.take_append_drop]
  exact List.Perm.refl _

theorem collect_keeps :
    Keeps (Leasing U A p reads []) collect fun _ => Leasing U A p reads [] := by
  apply Alike.get_bind
  intro d hd
  exact ((reap_keeps d.pool.queue.length).weaken (fun _ e => e ▸ hd) fun _ _ => id).bind
    fun _ => Alike.still

theorem collect_empties :
    Keeps (fun _ => True) (collect (S := S)) fun _ d => d.pool.queue = [] := by
  have all : ∀ queue : List (Nat × S.Buffer), Keeps (fun d => d.pool.queue = [])
      (queue.forM fun entry => disposeNow entry.1 entry.2) fun _ d => d.pool.queue = [] := by
    intro queue
    induction queue with
    | nil => exact Alike.still
    | cons entry queue ih =>
      exact Alike.bind (q := fun _ d => d.pool.queue = []) (Alike.of_modify fun _ => id) fun _ => ih
  apply Alike.get_bind
  intro d _
  refine Alike.bind (q := fun _ d => d.pool.queue = []) ?_ fun _ => Alike.still
  apply Alike.get_bind
  rintro _ rfl
  exact Alike.bind (q := fun _ d => d.pool.queue = []) (Alike.of_eq rfl (List.drop_length ..))
    fun _ => all _

theorem Leasing.reword {k : Nat} (L : Leasing U A p reads inHand d)
    (hx : d.pool.handles[h]? = some x) (opened : x.word ≠ .shut) (hw : w.Counts n)
    (hr : x.word.requested = true → w.requested = true)
    (hk : x.word.requestCount + k = w.requestCount) :
    Leasing U A p (Function.update reads h n) (taken h x w ++ inHand)
      { d with pool := d.pool.reword h w k } := by
  obtain ⟨steady, leased, linked, good⟩ := L
  refine ⟨steady.reword hx hr, leased.reword hx opened hw hk, linked, ?_⟩
  rwa [stock_reword _ _ hx opened]

theorem acquire_keeps (h : Nat) : Keeps (Leasing U A p reads []) (acquire h)
    fun outcome => Leasing U A p
      (match outcome with
        | .ok () => Function.update reads h (reads h + 1)
        | .error _ => reads) [] := by
  apply Alike.get_bind
  intro d hd
  cases hw : (d.pool.word h).acquire with
  | error refusal => exact Alike.of_eq rfl hd
  | ok v =>
    apply Alike.of_eq rfl
    cases hx : d.pool.handles[h]? with
    | none =>
      rw [word_absent hx, Lease.Word.acquire_shut] at hw
      cases hw
    | some x =>
      rw [word_eq hx] at hw
      obtain ⟨hs, hv, hr, hr', counts⟩ := (hd.leased.counts h x hx).acquire_ok hw
      have := hd.reword (k := 0) hx hs counts (by simp [hr])
        (by simp [Lease.Word.requestCount, hr, hr'])
      rwa [taken, if_neg hv] at this

theorem reword_reword (p : Pool S) (v w : Lease.Word) (k : Nat) :
    (p.reword h v k).update h (fun x => { x with word := w }) = p.reword h w k := by
  have : (p.handles.modify h fun x => { x with word := v }).modify h
      (fun x => { x with word := w }) = p.handles.modify h fun x => { x with word := w } := by
    apply Array.ext_getElem?
    intro i
    simp only [Array.getElem?_modify]
    split_ifs
    · cases p.handles[i]? <;> rfl
    · rfl
  unfold reword update
  rw [this]

theorem getElem?_reword (p : Pool S) (k : Nat) (hx : p.handles[h]? = some x) :
    (p.reword h w k).handles[h]? = some { x with word := w } := by
  rw [reword, getElem?_update, if_pos rfl, hx]
  rfl

theorem finish_run {v : Lease.Word} {k : Nat} (hx : d.pool.handles[h]? = some x)
    (hv : v.finish? = some .shut) :
    (finish h).run { d with pool := d.pool.reword h v k } =
      (handOver h x.buffer).run { d with pool := d.pool.reword h .shut k } := by
  have hy := getElem?_reword (w := v) d.pool k hx
  rw [← reword_reword d.pool v .shut]
  simp [finish, handle?, hy, hv, edit]

theorem Steady.size {q : Pool S} (s : Steady p q) : q.handles.size = p.handles.size := by
  rw [← Array.size_map (f := (·.owners)), s.owned, Array.size_map]

theorem Leasing.finish {v : Lease.Word} {k : Nat} (L : Leasing U A p reads [] d)
    (hx : d.pool.handles[h]? = some x) (opened : x.word ≠ .shut) (hv : v.finish? = some .shut)
    (hk : x.word.requestCount + k = 1) :
    Alike (· = { d with pool := d.pool.reword h v k }) (Pool.finish h) (Pool.finish h) fun _ d =>
      Leasing U A p (Function.update reads h 0) [] d ∧
        ∀ x, d.pool.handles[h]? = some x → x.word.requested = true := by
  apply Alike.of_eq rfl
  rw [finish_run hx hv]
  have closed := L.reword (w := .shut) hx opened (.inr (.inr ⟨rfl, rfl⟩)) (fun _ => rfl) hk
  refine ⟨(handOver_keeps x.buffer).post closed, fun y hy => ?_⟩
  have kept := (handOver_keeps (p := d.pool.reword h .shut k) x.buffer).post
    { closed with steady := Steady.refl _ }
  exact kept.steady.requested h _ y (getElem?_reword d.pool k hx) hy Lease.Word.requested_shut

theorem endRead_keeps (hn : reads h = n + 1) (hh : h < p.handles.size) :
    Keeps (Leasing U A p reads []) (endRead h)
      fun _ => Leasing U A p (Function.update reads h n) [] := by
  apply Alike.get_bind
  intro d hd
  have hx := Array.getElem?_eq_getElem (hd.steady.size.symm ▸ hh)
  have counts := hd.leased.counts h _ hx
  rw [hn] at counts
  rw [word_eq hx]
  rcases counts.endRead with ⟨v, he, hv, hr, hc⟩ | ⟨v, he, hv, hr, rfl⟩
  · rw [he]
    apply Alike.of_eq rfl
    have := hd.reword (k := 0) hx (counts.ne_shut (Nat.succ_ne_zero n)) hc (fun h => hr.trans h)
      (by rw [Lease.Word.requestCount, Lease.Word.requestCount, hr, Nat.add_zero])
    rwa [taken, if_neg hv] at this
  · rw [he]
    refine Alike.bind (q := fun _ => (· = { d with pool := d.pool.reword h v 0 }))
      (Alike.of_eq rfl rfl) fun _ => ?_
    exact (hd.finish hx (counts.ne_shut (Nat.succ_ne_zero 0)) hv
      (by rw [Lease.Word.requestCount, if_pos hr])).weaken (fun _ => id) fun _ _ => And.left

theorem requestRelease_keeps (h : Nat) : Keeps (Leasing U A p reads []) (requestRelease h)
    fun _ d => Leasing U A p reads [] d ∧
      ∀ x, d.pool.handles[h]? = some x → x.word.requested = true := by
  apply Alike.get_bind
  intro d hd
  -- A lease that was asked for before, and one that is not there, are left as they are.
  have again : ∀ w, (∀ x, d.pool.handles[h]? = some x → w = x.word ∧ w.requested = true) →
      Leasing U A p reads [] { d with pool := d.pool.update h fun x => { x with word := w } } ∧
        ∀ x, (d.pool.update h fun x => { x with word := w }).handles[h]? = some x →
          x.word.requested = true := by
    intro w hw
    rw [update_eq_self fun x hx => by rw [(hw x hx).1]]
    refine ⟨hd, fun x hx => ?_⟩
    rw [← (hw x hx).1]
    exact (hw x hx).2
  cases hx : d.pool.handles[h]? with
  | none =>
    rw [word_absent hx]
    exact Alike.of_eq rfl (again _ fun x h => absurd (hx.symm.trans h) nofun)
  | some x =>
    rw [word_eq hx]
    have counts := hd.leased.counts h x hx
    cases hr : x.word.requested with
    | true =>
      rw [counts.request_again hr]
      refine Alike.of_eq rfl (again _ fun y hy => ?_)
      obtain rfl := Option.some.inj (hx.symm.trans hy)
      exact ⟨rfl, hr⟩
    | false =>
      obtain ⟨v, he, opened, none, some⟩ := counts.request_first hr
      rw [he]
      have hk : x.word.requestCount = 0 := by rw [Lease.Word.requestCount, hr]; rfl
      refine Alike.bind (q := fun _ => (· = { d with pool := d.pool.reword h v 0 }))
        (Alike.of_eq rfl rfl) fun _ => ?_
      refine Alike.bind (q := fun _ => (· = { d with pool := d.pool.reword h v 1 }))
        (Alike.of_eq rfl rfl) fun _ => ?_
      -- Unread, it closes at once; read, it waits for its reads.
      split_ifs with h0
      · have := hd.finish (k := 1) hx opened (none h0) (by rw [hk])
        rw [Function.update_eq_self_iff.2 h0.symm] at this
        exact this.bind fun _ => Alike.still
      · obtain ⟨hv, hr', hc⟩ := some h0
        refine Alike.of_eq rfl ⟨?_, fun y hy => ?_⟩
        · have := hd.reword (k := 1) hx opened hc (fun _ => hr')
            (by rw [hk, Lease.Word.requestCount, if_pos hr'])
          rwa [taken, if_neg hv, Function.update_eq_self_iff.2 rfl] at this
        · obtain rfl := Option.some.inj ((getElem?_reword d.pool 1 hx).symm.trans hy)
          exact hr'

theorem mapM_requestRelease_keeps (hs : List Nat) :
    Keeps (Leasing U A p reads []) (hs.mapM requestRelease) fun _ => Leasing U A p reads [] := by
  induction hs with
  | nil => exact Alike.still
  | cons h hs ih =>
    rw [List.mapM_cons]
    refine (requestRelease_keeps h).bind fun _ => ?_
    exact (ih.weaken (fun _ => And.left) fun _ _ => id).bind fun _ => Alike.still

theorem Leasing.prune (L : Leasing U A p reads inHand d) :
    Leasing U A p reads inHand { d with pool := d.pool.prune } where
  steady := ⟨L.steady.link, L.steady.mode, L.steady.owners, L.steady.owned, L.steady.requested⟩
  leased :=
    L.leased.move rfl rfl (List.Perm.refl _) L.leased.disposed L.leased.inline L.leased.lawful
  linked := L.linked
  good := L.good

theorem releaseAll_keeps :
    Keeps (Leasing U A p reads []) releaseAll fun _ => Leasing U A p reads [] := by
  unfold releaseAll
  refine Alike.bind (q := fun _ => Leasing U A p reads []) (Alike.of_modify fun _ => Leasing.prune)
    fun _ => ?_
  apply Alike.get_bind
  intro d hd
  exact ((mapM_requestRelease_keeps _).weaken (fun _ e => e ▸ hd) fun _ _ => id).bind
    fun _ => Alike.still

theorem handle?_keeps {P : Desk S → Prop} (h : Nat) :
    Keeps P (handle? h) fun x d => P d ∧ d.pool.handles[h]? = x :=
  Alike.keeps fun _ hd => ⟨hd, rfl⟩

theorem Leasing.fetch (L : Leasing U A p reads [] d) (hx : d.pool.handles[h]? = some x)
    (hr : reads h ≠ 0) :
    Leasing U A p reads []
      ⟨(d.pool.note (.fetch h x.word)).update h fun y =>
          { y with buffer := (S.fetch d.pool.link x.buffer d.engine).2.1 },
        (S.fetch d.pool.link x.buffer d.engine).2.2⟩ := by
  obtain ⟨steady, leased, linked, good⟩ := L
  obtain ⟨T, before, after⟩ := exists_stock_buffer (B := B)
    (p := d.pool.note (.fetch h x.word)) [] hx ((leased.counts h x hx).ne_shut hr)
  have noted : Leased reads [] (d.pool.note (.fetch h x.word)) :=
    leased.note rfl (leased.reading hx hr linked)
  refine ⟨(steady.note _).update (fun _ => rfl) fun _ _ => id, noted.update fun _ => rfl, ?_, ?_⟩
  · exact List.not_mem_cons_of_ne_of_not_mem nofun linked
  · rw [after, Multiset.cons_add, Multiset.cons_swap]
    apply U.fetch
    rw [Multiset.cons_swap, ← Multiset.cons_add]
    exact before ▸ good

theorem Leasing.read (L : Leasing U A p reads [] d) (hx : d.pool.handles[h]? = some x)
    (hr : reads h ≠ 0) (row : S.Row) (column : Nat) :
    Leasing U A p reads []
      ⟨d.pool.note (.read h x.word), (S.read d.pool.link x.buffer row column d.engine).2⟩ := by
  obtain ⟨steady, leased, linked, good⟩ := L
  obtain ⟨T, before, -⟩ := exists_stock_buffer (B := B)
    (p := d.pool.note (.read h x.word)) [] hx ((leased.counts h x hx).ne_shut hr)
  refine ⟨steady.note _, leased.note rfl (leased.reading hx hr linked), ?_, ?_⟩
  · exact List.not_mem_cons_of_ne_of_not_mem nofun linked
  · rw [before, Multiset.cons_add, Multiset.cons_swap]
    apply U.read
    rw [Multiset.cons_swap, ← Multiset.cons_add]
    exact before ▸ good

theorem fetch_keeps (hr : reads h ≠ 0) :
    Keeps (Leasing U A p reads []) (fetch h) fun _ => Leasing U A p reads [] := by
  refine (handle?_keeps h).bind fun x => ?_
  cases x with
  | none => exact Alike.of_pure fun _ => And.left
  | some x =>
    apply Alike.get_bind
    intro d ⟨hd, hx⟩
    exact Alike.of_eq rfl (hd.fetch hx hr)

theorem readCell_keeps (hr : reads h ≠ 0) (row : S.Row) (column : Nat) :
    Keeps (Leasing U A p reads []) (readCell h row column) fun _ => Leasing U A p reads [] := by
  refine (handle?_keeps h).bind fun x => ?_
  cases x with
  | none => exact Alike.of_pure fun _ => And.left
  | some x =>
    apply Alike.get_bind
    intro d ⟨hd, hx⟩
    exact Alike.of_eq rfl (hd.read hx hr row column)

theorem claimCursor_keeps (h : Nat) :
    Keeps (Leasing U A p reads []) (claimCursor h) fun _ => Leasing U A p reads [] := by
  refine (handle?_keeps h).bind fun x => ?_
  cases x with
  | none => exact Alike.of_pure fun _ => And.left
  | some x =>
    refine Alike.bind (q := fun _ => Leasing U A p reads []) (Alike.of_modify ?_) fun _ =>
      Alike.still
    rintro d ⟨⟨steady, leased, linked, good⟩, -⟩
    refine ⟨steady.update (fun _ => rfl) fun _ _ => id, leased.update fun _ => rfl, linked, ?_⟩
    have same : (d.pool.update h fun x => { x with cursorTaken := true }).stock [] =
      (d.pool.stock [] : Multiset (Asset S B)) := stock_update (fun _ => rfl) fun _ => rfl
    exact same ▸ good

end QueryLease.Pool

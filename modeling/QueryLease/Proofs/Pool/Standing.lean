import QueryLease.Proofs.Pool.Course
import QueryLease.Proofs.Pool.Lifecycle

namespace QueryLease

open Pool

variable {S : Source}

namespace Pool

/-- The owners of a handle, and whether its release has been requested. -/
def standing (p : Pool S) (h : Nat) : Option (Nat × Bool) :=
  p.handles[h]?.map fun x => (x.owners, x.word.requested)

/-- The shifts of a handle's standing, the last owner's leave among them. Some deeds ask for the
release. -/
inductive Shift (asks : Prop) : Option (Nat × Bool) → Option (Nat × Bool) → Prop
  | still (s : Option (Nat × Bool)) : Shift asks s s
  | asked (n : Nat) (b : Bool) : asks → Shift asks (some (n, b)) (some (n, true))
  | retained (n : Nat) (b : Bool) : Shift asks (some (n + 1, b)) (some (n + 2, b))
  | dropped (n : Nat) (b : Bool) : Shift asks (some (n + 2, b)) (some (n + 1, b))
  | left (b : Bool) : Shift asks (some (1, b)) (some (0, true))

theorem Shift.mono {asks asks' : Prop} {s s' : Option (Nat × Bool)} (t : Shift asks s s')
    (imp : asks → asks') : Shift asks' s s' := by
  cases t with
  | still => exact .still _
  | asked n b h => exact .asked n b (imp h)
  | retained n b => exact .retained n b
  | dropped n b => exact .dropped n b
  | left b => exact .left b

theorem Shift.drop {asks : Prop} {n : Nat} {b : Bool} (h0 : n ≠ 0) :
    Shift asks (some (n, b)) (some (n - 1, b || n == 1)) := by
  obtain ⟨n, rfl⟩ := Nat.exists_eq_succ_of_ne_zero h0
  cases n with
  | zero =>
    rw [beq_self_eq_true, Bool.or_true]
    exact .left b
  | succ n =>
    rw [beq_eq_false_iff_ne.2 (by omega), Bool.or_false]
    exact .dropped n b

variable {d : Desk S} {p q : Pool S} {G : Stake} {h k n m : Nat} {x : Handle S} {w : Lease.Word}

theorem standing_congr (handles : q.handles = p.handles) (h : Nat) :
    q.standing h = p.standing h := by
  rw [standing, handles, standing]

theorem standing_eq (hx : p.handles[h]? = some x) :
    p.standing h = some (x.owners, x.word.requested) := by
  rw [standing, hx]
  rfl

theorem standing_update (k h : Nat) {g : Handle S → Handle S}
    (hg : ∀ x, (g x).owners = x.owners ∧ (g x).word = x.word) :
    (p.update k g).standing h = p.standing h := by
  rw [standing, standing, getElem?_update]
  split_ifs
  · cases p.handles[h]? with
    | none => rfl
    | some x =>
      show some ((g x).owners, (g x).word.requested) = _
      rw [(hg x).1, (hg x).2]
      rfl
  · rfl

theorem standing_reword (hx : p.handles[k]? = some x) (h : Nat) :
    (p.reword k w n).standing h = if k = h then some (x.owners, w.requested) else p.standing h := by
  rw [standing, reword, getElem?_update]
  split_ifs with hk
  · rw [← hk, hx]
    rfl
  · rfl

theorem standing_reword_same (hx : p.handles[k]? = some x) (hw : w.requested = x.word.requested)
    (h : Nat) : (p.reword k w n).standing h = p.standing h := by
  rw [standing_reword hx, hw]
  split_ifs with hk
  · rw [← hk, standing_eq hx]
  · rfl

theorem standing_acquire (hx : d.pool.handles[k]? = some x) (counts : x.word.Counts n) (h : Nat) :
    ((acquire k).run d).2.pool.standing h = d.pool.standing h := by
  cases hw : (d.pool.word k).acquire with
  | error refusal => rw [acquire_run_error hw]
  | ok v =>
    rw [acquire_run_ok hw]
    rw [word_eq hx] at hw
    obtain ⟨-, -, hr, hr', -⟩ := counts.acquire_ok hw
    exact standing_reword_same hx (hr'.trans hr.symm) h

theorem standing_endRead (hx : d.pool.handles[k]? = some x) (counts : x.word.Counts (n + 1))
    (h : Nat) : ((endRead k).run d).2.pool.standing h = d.pool.standing h := by
  rcases counts.endRead with ⟨v, hw, -, hr, -⟩ | ⟨v, hw, hv, hr, -⟩
  · rw [endRead_run (word_eq hx ▸ hw)]
    exact standing_reword_same hx hr h
  · rw [endRead_run_last hx hw hv, standing_congr (handOver_gone _ k x.buffer k).1]
    exact standing_reword_same hx (Lease.Word.requested_shut.trans hr.symm) h

theorem standing_requestRelease (hx : d.pool.handles[k]? = some x) (counts : x.word.Counts n)
    (h : Nat) : ((requestRelease k).run d).2.pool.standing h =
      if k = h then some (x.owners, true) else d.pool.standing h := by
  cases hr : x.word.requested with
  | true =>
    rw [requestRelease_run_again hx (counts.request_again hr)]
    split_ifs with hk
    · rw [← hk, standing_eq hx, hr]
    · rfl
  | false =>
    obtain ⟨v, hw, -, closing, deferred⟩ := counts.request_first hr
    by_cases h0 : n = 0
    · subst h0
      rw [requestRelease_run_freed hx hw (closing rfl),
        standing_congr (handOver_gone _ k x.buffer k).1]
      exact standing_reword hx h
    · rw [requestRelease_run_deferred hx hw h0, ← (deferred h0).2.1]
      exact standing_reword hx h

section Register

variable {H : Array (Handle S)}

theorem disposeNow_register (k : Nat) (b : S.Buffer) :
    Keeps (fun d => d.pool.handles = H ∧ d.pool.released = n) (disposeNow k b)
      fun _ d => d.pool.handles = H ∧ d.pool.released = n := Alike.of_modify fun _ => id

theorem reap_register (m : Nat) :
    Keeps (fun d : Desk S => d.pool.handles = H ∧ d.pool.released = n) (reap m)
      fun _ d => d.pool.handles = H ∧ d.pool.released = n := by
  have all : ∀ queue : List (Nat × S.Buffer),
      Keeps (fun d : Desk S => d.pool.handles = H ∧ d.pool.released = n)
        (queue.forM fun entry => disposeNow entry.1 entry.2)
        fun _ d => d.pool.handles = H ∧ d.pool.released = n := by
    intro queue
    induction queue with
    | nil => exact Alike.still
    | cons entry queue ih => exact (disposeNow_register entry.1 entry.2).bind fun _ => ih
  apply Alike.get_bind
  intro d hd
  exact Alike.bind (q := fun _ d => d.pool.handles = H ∧ d.pool.released = n) (Alike.of_eq rfl hd)
    fun _ => all _

theorem leave_register :
    Keeps (fun d : Desk S => d.pool.handles = H ∧ d.pool.released = n) leave
      fun _ d => d.pool.handles = H ∧ d.pool.released = n := by
  intro d hd
  refine ⟨rfl, ?_⟩
  rw [leave_run]
  split_ifs
  · exact (reap_register (d.pool.queue.length)).post (s := { d with pool.owners := _ }) hd
  · exact hd

end Register

theorem drop_run (d : Desk S) (k : Nat) :
    let less : Desk S :=
      { d with pool := d.pool.update k fun x => { x with owners := x.owners - 1 } }
    (drop k).run d =
      if less.pool.owned k then ((), less) else leave.run ((requestRelease k).run less).2 := by
  intro less
  show StateT.run (if !less.pool.owned k then _ else pure ()) less = _
  cases less.pool.owned k with
  | true => rfl
  | false => rfl

theorem drop_run_shared (hx : d.pool.handles[k]? = some x) (h2 : 2 ≤ x.owners) :
    (drop k).run d =
      ((), { d with pool := d.pool.update k fun x => { x with owners := x.owners - 1 } }) := by
  have owned : (d.pool.update k fun x => { x with owners := x.owners - 1 }).owned k = true := by
    rw [owned_iff, holders, getElem?_update, if_pos rfl, hx]
    show x.owners - 1 ≠ 0
    omega
  rw [drop_run, if_pos owned]

theorem drop_run_last (hx : d.pool.handles[k]? = some x) (h1 : x.owners = 1)
    (counts : x.word.Counts 0) :
    let q := ((drop k).run d).2.pool
    (∀ h, q.handles[h]? =
        if k = h then some { x with owners := 0, word := .shut } else d.pool.handles[h]?) ∧
      q.released = d.pool.released + if x.word.requested then 0 else 1 := by
  intro q
  let less : Desk S :=
    { d with pool := d.pool.update k fun x => { x with owners := x.owners - 1 } }
  have get (h : Nat) : less.pool.handles[h]? =
      if k = h then some { x with owners := 0 } else d.pool.handles[h]? := by
    show (d.pool.update k _).handles[h]? = _
    rw [getElem?_update]
    split_ifs with hk
    · rw [← hk, hx]
      show some { x with owners := x.owners - 1 } = _
      rw [h1]
    · rfl
  have hx' : less.pool.handles[k]? = some { x with owners := 0 } := (get k).trans (if_pos rfl)
  have left : q = (leave.run ((requestRelease k).run less).2).2.pool := by
    have unowned : ¬ less.pool.owned k = true := by
      rw [owned_iff, holders_eq hx']
      exact fun h => h rfl
    show ((drop k).run d).2.pool = _
    rw [drop_run, if_neg unowned]
  obtain ⟨handles, released⟩ :=
    leave_register.post (s := ((requestRelease k).run less).2) ⟨rfl, rfl⟩
  rw [left, handles, released]
  -- Requested before and unread, the lease has closed already; otherwise it closes now.
  cases hr : x.word.requested with
  | true =>
    rw [requestRelease_run_again hx' (counts.request_again hr)]
    refine ⟨fun h => ?_, rfl⟩
    rw [get, counts.eq_shut hr]
  | false =>
    obtain ⟨v, hw, -, closing, -⟩ := counts.request_first hr
    rw [requestRelease_run_freed hx' hw (closing rfl)]
    obtain ⟨handles, released, -⟩ :=
      handOver_gone { less with pool := less.pool.reword k .shut 1 } k x.buffer k
    rw [handles, released]
    refine ⟨fun h => ?_, rfl⟩
    show (less.pool.reword k .shut 1).handles[h]? = _
    rw [reword, getElem?_update, get]
    split_ifs <;> rfl

theorem standing_drop (hx : d.pool.handles[k]? = some x) (h0 : x.owners ≠ 0)
    (last : x.owners = 1 → x.word.Counts 0) (h : Nat) :
    ((drop k).run d).2.pool.standing h =
      if k = h then
        some (x.owners - 1, x.word.requested || x.owners == 1)
      else d.pool.standing h := by
  by_cases h1 : x.owners = 1
  · rw [standing, (drop_run_last hx h1 (last h1)).1]
    split_ifs
    · show some (0, Lease.Word.shut.requested) = _
      rw [h1, beq_self_eq_true, Bool.or_true, Lease.Word.requested_shut]
    · rfl
  · rw [drop_run_shared hx (by omega), standing, getElem?_update]
    split_ifs with hk
    · rw [← hk, hx, beq_eq_false_iff_ne.2 h1, Bool.or_false]
      rfl
    · rfl

theorem standing_retain (hx : d.pool.handles[k]? = some x) (h : Nat) :
    ((retain k).run d).2.pool.standing h =
      if k = h then some (x.owners + 1, x.word.requested) else d.pool.standing h := by
  show (d.pool.update k _).standing h = _
  rw [standing, getElem?_update]
  split_ifs with hk
  · rw [← hk, hx]
    rfl
  · rfl

theorem standing_fetch (k h : Nat) :
    ((fetch k).run d).2.pool.standing h = d.pool.standing h := by
  cases hx : d.pool.handles[k]? with
  | none => rw [fetch_run_none hx]
  | some x =>
    rw [fetch_run_some hx]
    exact standing_update k h fun _ => ⟨rfl, rfl⟩

theorem readCell_handles (k : Nat) (row : S.Row) (column : Nat) :
    ((readCell k row column).run d).2.pool.handles = d.pool.handles := by
  cases hx : d.pool.handles[k]? with
  | none =>
    simp only [readCell, handle?, StateT.run_bind, StateT.run_get, pure_bind, hx]
    rfl
  | some x =>
    simp only [readCell, handle?, StateT.run_bind, StateT.run_get, pure_bind, hx]
    rfl

theorem standing_claimCursor (k h : Nat) :
    ((claimCursor k).run d).2.pool.standing h = d.pool.standing h := by
  cases hx : d.pool.handles[k]? with
  | none =>
    simp only [claimCursor, handle?, StateT.run_bind, StateT.run_get, pure_bind, hx]
    rfl
  | some x =>
    simp only [claimCursor, handle?, StateT.run_bind, StateT.run_get, pure_bind, hx]
    exact standing_update k h fun _ => ⟨rfl, rfl⟩

theorem query_run (text : String) (d : Desk S) :
    ((query text).run d).2.pool = d.pool ∨
      ∃ b columns, ((query text).run d).2.pool = d.pool.enrol b columns := by
  cases he : S.execute d.pool.link text d.engine with
  | mk outcome engine =>
    cases outcome with
    | error fault =>
      refine .inl ?_
      simp only [query, StateT.run_bind, StateT.run_get, pure_bind, he]
      rfl
    | ok made =>
      refine .inr ⟨made.1, made.2, ?_⟩
      simp only [query, StateT.run_bind, StateT.run_get, pure_bind, he]
      rfl

theorem standing_enrol (p : Pool S) (b : S.Buffer) (columns : List String) (h : Nat) :
    (p.enrol b columns).standing h =
      if h = p.handles.size then some (1, false) else p.standing h := by
  rw [standing, getElem?_enrol]
  split_ifs
  · show some (1, Lease.Word.fresh.requested) = _
    rw [show Lease.Word.fresh.requested = false by decide]
  · rfl

theorem Steady.shift (s : Steady p q) (h : Nat) : Shift True (p.standing h) (q.standing h) := by
  have same := congrArg (·[h]?) s.owned
  simp only [Array.getElem?_map] at same
  cases hx : p.handles[h]? with
  | none =>
    rw [hx] at same
    rw [standing, standing, hx, Option.map_eq_none_iff.1 same]
    exact .still none
  | some x =>
    rw [hx] at same
    obtain ⟨y, hy, owners⟩ := Option.map_eq_some_iff.1 same
    rw [standing_eq hx, standing_eq hy, show y.owners = x.owners from owners]
    have kept := s.requested h x y hx hy
    cases hr : y.word.requested with
    | true => exact .asked _ _ trivial
    | false =>
      cases hr' : x.word.requested with
      | true => exact absurd (kept hr') (by rw [hr]; nofun)
      | false => exact .still _

end Pool

namespace Deed

variable {d : Desk S} {G : Stake} {h : Nat} {deed : Deed S}

def Asks (h : Nat) (deed : Deed S) : Prop := deed = .requestRelease h ∨ deed = .releaseAll

theorem shift (s : d.pool.Sound G) (possible : deed.possible d.pool = true)
    (old : ∀ text, deed ≠ .query text) (h : Nat) :
    Shift (deed.Asks h) (d.pool.standing h) ((deed.perform.run d).2.pool.standing h) := by
  have owned {k : Nat} (hk : d.pool.owned k = true) : ∃ x, d.pool.handles[k]? = some x ∧
      x.owners ≠ 0 ∧ x.word.Counts (d.pool.word k).reads := by
    have h0 := owned_iff.1 hk
    rw [s.holders_eq] at h0
    obtain ⟨x, hx, owners⟩ := s.exists_handle h0
    exact ⟨x, hx, owners ▸ h0, s.reads_eq k ▸ s.leased.counts k x hx⟩
  have still {q : Pool S} (same : q.standing h = d.pool.standing h) :
      Shift (deed.Asks h) (d.pool.standing h) (q.standing h) := same ▸ .still _
  cases deed with
  | acquire k =>
    obtain ⟨x, hx, -, counts⟩ := owned possible
    exact still (standing_acquire hx counts h)
  | endRead k =>
    have reads : G (.read k) ≠ 0 := s.reads_eq k ▸ bne_iff_ne.1 possible
    obtain ⟨n, hn⟩ := Nat.exists_eq_succ_of_ne_zero reads
    obtain ⟨x, hx, -⟩ := s.exists_handle fun none => reads (s.backed k none)
    exact still (standing_endRead hx (hn ▸ s.leased.counts k x hx) h)
  | fetch k => exact still (standing_fetch k h)
  | read k row column => exact still (standing_congr (readCell_handles k row column) h)
  | query text => exact absurd rfl (old text)
  | requestRelease k =>
    obtain ⟨x, hx, -, counts⟩ := owned possible
    have asked := standing_requestRelease hx counts h
    show Shift _ _ (((Pool.requestRelease k).run d).2.pool.standing h)
    rw [asked]
    split_ifs with hk
    · rw [← hk, standing_eq hx]
      exact .asked _ _ (.inl rfl)
    · exact .still _
  | claimCursor k => exact still (standing_claimCursor k h)
  | retain k =>
    obtain ⟨x, hx, h0, -⟩ := owned possible
    obtain ⟨n, hn⟩ := Nat.exists_eq_succ_of_ne_zero h0
    show Shift _ _ (((Pool.retain k).run d).2.pool.standing h)
    rw [standing_retain hx]
    split_ifs with hk
    · rw [← hk, standing_eq hx, hn]
      exact .retained n _
    · exact .still _
  | drop k =>
    obtain ⟨hk, last⟩ := Bool.and_eq_true_iff.1 possible
    obtain ⟨x, hx, h0, counts⟩ := owned hk
    -- A last owner may go only when no read is left.
    have single : x.owners = 1 → x.word.Counts 0 := fun h1 => by
      rw [holders_eq hx, h1] at last
      rwa [show (d.pool.word k).reads = 0 by simpa using last] at counts
    show Shift _ _ (((Pool.drop k).run d).2.pool.standing h)
    rw [standing_drop hx h0 single]
    split_ifs with hk
    · rw [← hk, standing_eq hx]
      exact Shift.drop h0
    · exact .still _
  | join => exact still rfl
  | leave => exact still (standing_congr (leave_register.post ⟨rfl, rfl⟩).1 h)
  | releaseAll =>
    have h0 : d.pool.owners ≠ 0 :=
      s.owners_ne_zero (.inl (s.connections_eq ▸ bne_iff_ne.1 possible))
    exact ((releaseAll_keeps.post ((Desk.Sound.held s).leasing h0)).steady.shift h).mono
      fun _ => .inr rfl
  | reap n => exact still (standing_congr ((reap_register n).post ⟨rfl, rfl⟩).1 h)
  | source change => exact still rfl

end Deed

namespace Pool

variable {d : Desk S} {p q : Pool S} {G : Stake} {h k n : Nat} {asks : Prop}

def Asked (p : Pool S) (h : Nat) : Prop := ∃ n, p.standing h = some (n, true)

def Unasked (p : Pool S) (h : Nat) : Prop := ∀ n, p.standing h = some (n, true) → n = 0

theorem Asked.of_get {x : Handle S} (hx : p.handles[h]? = some x)
    (requested : x.word.requested = true) : p.Asked h :=
  ⟨x.owners, by rw [standing_eq hx, requested]⟩

theorem Asked.shift (a : p.Asked h) (t : Shift asks (p.standing h) (q.standing h)) : q.Asked h := by
  obtain ⟨n, hn⟩ := a
  rw [hn] at t
  generalize hs : q.standing h = s at t
  cases t with
  | still => exact ⟨_, hs⟩
  | asked => exact ⟨_, hs⟩
  | retained => exact ⟨_, hs⟩
  | dropped => exact ⟨_, hs⟩
  | left => exact ⟨_, hs⟩

theorem Unasked.shift (u : p.Unasked h) (t : Shift asks (p.standing h) (q.standing h))
    (none : ¬ asks) : q.Unasked h := by
  intro n hn
  rw [hn] at t
  generalize hs : p.standing h = s at t
  cases t with
  | still => exact u n hs
  | asked n b h => exact absurd h none
  | retained n => exact absurd (u (n + 1) hs) (Nat.succ_ne_zero n)
  | dropped n => exact absurd (u (n + 2) hs) (Nat.succ_ne_zero (n + 1))
  | left => rfl

theorem Asked.requested (a : p.Asked h) : (p.word h).requested = true := by
  obtain ⟨n, hn⟩ := a
  obtain ⟨x, hx, e⟩ := Option.map_eq_some_iff.1 hn
  rw [word_eq hx]
  exact congrArg Prod.snd e

theorem owned_iff_standing : p.owned h = true ↔ ∃ n b, p.standing h = some (n + 1, b) := by
  rw [owned_iff, holders, standing]
  cases p.handles[h]? with
  | none => simp
  | some x =>
    constructor
    · intro h0
      obtain ⟨n, hn⟩ := Nat.exists_eq_succ_of_ne_zero h0
      exact ⟨n, x.word.requested, congrArg some (Prod.ext hn rfl)⟩
    · rintro ⟨n, b, e⟩
      have owners : x.owners = n + 1 := congrArg Prod.fst (Option.some.inj e)
      show x.owners ≠ 0
      omega

theorem Unasked.not_requested (u : p.Unasked h) (owned : p.owned h = true) :
    (p.word h).requested = false := by
  obtain ⟨n, b, hn⟩ := owned_iff_standing.1 owned
  obtain ⟨x, hx, e⟩ := Option.map_eq_some_iff.1 hn
  rw [word_eq hx, show x.word.requested = b from congrArg Prod.snd e]
  cases b with
  | false => rfl
  | true => exact absurd (u _ hn) (Nat.succ_ne_zero n)

theorem Shift.owned (t : Shift asks (p.standing h) (q.standing h)) (owned : q.owned h = true) :
    p.owned h = true := by
  obtain ⟨n, b, hn⟩ := owned_iff_standing.1 owned
  rw [hn] at t
  apply owned_iff_standing.2
  generalize p.standing h = s at t
  cases t with
  | still => exact ⟨n, b, rfl⟩
  | asked n b' h => exact ⟨n, b', rfl⟩
  | retained n b => exact ⟨n, b, rfl⟩
  | dropped n b => exact ⟨n + 1, b, rfl⟩

theorem mapM_requestRelease_asks {B : Type} {U : Upkeep S B} {A : Multiset (Asset S B)}
    {reads : Nat → Nat} (hs : List Nat) :
    Keeps (Leasing U A p reads []) (hs.mapM requestRelease) fun _ d => Leasing U A p reads [] d ∧
      ∀ h ∈ hs, ∀ x, d.pool.handles[h]? = some x → x.word.requested = true := by
  induction hs generalizing p with
  | nil => exact Alike.of_pure fun d L => ⟨L, fun h mem => absurd mem List.not_mem_nil⟩
  | cons h hs ih =>
    rw [List.mapM_cons]
    refine (requestRelease_keeps h).bind fun _ => Alike.bind ?_ fun _ => Alike.still
    intro d ⟨L, asked⟩
    obtain ⟨L', others⟩ := ih.post L
    refine ⟨rfl, L', fun k mem y hy => ?_⟩
    rcases List.mem_cons.1 mem with rfl | mem
    · have steady := (ih.post { L with steady := Steady.refl d.pool }).1.steady
      have hk : k < d.pool.handles.size := steady.size ▸ (Array.getElem?_eq_some_iff.1 hy).1
      have hx := Array.getElem?_eq_getElem hk
      exact steady.requested k _ y hx hy (asked _ hx)
    · exact others k mem y hy

def Tracking (p : Pool S) : Prop := ∀ h, p.owned h = true → h ∈ p.tracked

theorem mem_track (owned : p.owned k = true) (mem : k ∈ p.tracked) (h : Nat) :
    k ∈ (p.track h).tracked := by
  unfold track
  split_ifs
  · exact List.mem_append_left _ (List.mem_filter.2 ⟨mem, owned⟩)
  · exact List.mem_append_left _ mem

theorem Tracking.enrol (t : p.Tracking) (b : S.Buffer) (columns : List String) :
    (p.enrol b columns).Tracking := by
  intro h owned
  rw [enrol_eq]
  by_cases new : h = p.handles.size
  · show h ∈ (p.track p.handles.size).tracked
    unfold track
    exact List.mem_append_right _ (List.mem_singleton.2 new)
  · rw [owned_enrol, if_neg new] at owned
    exact mem_track owned (t h owned) _

theorem tracked_frame (T : List Nat) : Frame fun p : Pool S => p.tracked = T where
  same _ tracked ht := tracked.trans ht
  update _ _ _ ht := ht

theorem tracked_releaseAll (d : Desk S) :
    (releaseAll.run d).2.pool.tracked = d.pool.tracked.filter d.pool.owned :=
  ((tracked_frame _).mapM d.pool.prune.tracked).post (s := { d with pool := d.pool.prune }) rfl

theorem tracked_fetch (d : Desk S) (k : Nat) :
    ((fetch k).run d).2.pool.tracked = d.pool.tracked := by
  cases hx : d.pool.handles[k]? with
  | none => rw [fetch_run_none hx]
  | some x =>
    rw [fetch_run_some hx]
    rfl

end Pool

namespace Deed

variable {d : Desk S} {G : Stake} {h : Nat} {deed : Deed S}

theorem old_or_enrols (deed : Deed S) (d : Desk S) :
    (∀ text, deed ≠ .query text) ∨ (deed.perform.run d).2.pool = d.pool ∨
      ∃ b columns, (deed.perform.run d).2.pool = d.pool.enrol b columns := by
  by_cases old : ∀ text, deed ≠ .query text
  · exact .inl old
  · obtain ⟨text, rfl⟩ := Classical.not_forall_not.1 old
    exact .inr (query_run text d)

theorem tracked_perform (old : ∀ text, deed ≠ .query text) (some : deed ≠ .releaseAll) :
    (deed.perform.run d).2.pool.tracked = d.pool.tracked := by
  have F := tracked_frame (S := S) d.pool.tracked
  cases deed with
  | acquire k => exact (F.acquire k).post rfl
  | endRead k => exact (F.endRead k).post rfl
  | fetch k => exact tracked_fetch d k
  | read k row column => exact (F.readCell k row column).post rfl
  | query text => exact absurd rfl (old text)
  | requestRelease k => exact (F.requestRelease k).post rfl
  | claimCursor k => exact (F.claimCursor k).post rfl
  | retain k => rfl
  | drop k => exact (F.drop k).post rfl
  | join => rfl
  | leave => exact F.leave.post rfl
  | releaseAll => exact absurd rfl some
  | reap n => exact (F.reap n).post rfl
  | source change => rfl

theorem tracking (s : d.pool.Sound G) (possible : deed.possible d.pool = true)
    (t : d.pool.Tracking) : (deed.perform.run d).2.pool.Tracking := by
  rcases old_or_enrols deed d with old | same | ⟨b, columns, made⟩
  · intro h owned
    have before := (shift s possible old h).owned owned
    by_cases all : deed = .releaseAll
    · subst all
      show h ∈ (Pool.releaseAll.run d).2.pool.tracked
      rw [tracked_releaseAll]
      exact List.mem_filter.2 ⟨t h before, before⟩
    · rw [tracked_perform old all]
      exact t h before
  · rwa [same]
  · rw [made]
    exact t.enrol b columns

theorem asked (s : d.pool.Sound G) (t : d.pool.Tracking) (possible : deed.possible d.pool = true)
    (asks : deed.Asks h) (owned : d.pool.owned h = true) :
    (deed.perform.run d).2.pool.Asked h := by
  have h0 := owned_iff.1 owned
  rw [s.holders_eq] at h0
  obtain ⟨x, hx, -⟩ := s.exists_handle h0
  rcases asks with rfl | rfl
  · exact ⟨_, (standing_requestRelease hx (s.leased.counts h x hx) h).trans (if_pos rfl)⟩
  · have connected : d.pool.owners ≠ 0 :=
      s.owners_ne_zero (.inl (s.connections_eq ▸ bne_iff_ne.1 possible))
    obtain ⟨L, asked⟩ := (mapM_requestRelease_asks d.pool.prune.tracked).post
      ((Desk.Sound.held s).leasing connected).prune
    have mem : h ∈ d.pool.prune.tracked := List.mem_filter.2 ⟨t h owned, owned⟩
    have hy := Array.getElem?_eq_getElem
      (L.steady.size.symm ▸ (Array.getElem?_eq_some_iff.1 hx).1)
    exact .of_get hy (asked h mem _ hy)

end Deed

end QueryLease

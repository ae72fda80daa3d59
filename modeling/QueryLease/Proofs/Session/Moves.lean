import QueryLease.Proofs.Session.Acts

namespace QueryLease.Session

open Pool

variable {V : Venue} {U : Venue.Upkeep V} {F : Session V → Prop} {E : Holding V} {K : Kept V}
  {p h : Nat} {X : Stake} {α : Type}

theorem KeptWith.holds_of_zero {s : Session V} (hs : KeptWith U K (E + inPool p 0) s) :
    Holds U E s := by
  have := hs.holds
  rwa [inPool_zero, add_zero] at this

theorem ofExcept_gained {g : α → Stake} (outcome : Except Error α) :
    Acts (Holds U E) (KeptWith U K (E + inPool p (gained 0 g outcome))) (ofExcept outcome)
      (ofExcept outcome) fun a => KeptWith U K (E + inPool p (g a)) := by
  cases outcome with
  | ok a =>
    rw [gained_ok, zero_add]
    exact Acts.pure fun _ => id
  | error e => exact Acts.throw fun _ hs => hs.holds_of_zero

theorem ofExcept_acts {P : Session V → Prop} (hP : ∀ s, P s → F s) (outcome : Except Error α) :
    Acts F P (ofExcept outcome) (ofExcept outcome) fun _ => P := by
  cases outcome with
  | ok a => exact Acts.still
  | error e => exact Acts.throw hP

theorem ofExcept_outcome {Q : α → Session V → Prop} (outcome : Except Error α) :
    Acts F (fun s => match outcome with
      | .ok a => Q a s
      | .error _ => F s) (ofExcept outcome) (ofExcept outcome) Q := by
  cases outcome with
  | ok a => exact Acts.pure fun _ => id
  | error e => exact Acts.throw fun _ => id

theorem done {a : α} : Acts F (Holds U E) (pure a) (pure a) fun _ => Holds U E :=
  Acts.still

theorem done_kept {a : α} : Acts F (KeptWith U K E) (pure a) (pure a) fun _ => Holds U E :=
  Acts.pure fun _ hs => hs.holds

theorem pool_acts (hX : Lent K p X) (h0 : X ≠ 0) (hE : Pool.Backed (E.1 p)) :
    Acts F (KeptWith U K E) (pool p) (pool p) fun _ => KeptWith U K E :=
  onPool_use hX (Trades.look fun _ => rfl) h0 hE

theorem keep_kept (hE : Backed E) (name : String) (x : Object V) :
    Acts F (KeptWith U K (E + x.holding)) (keep name x) (keep name x) fun _ => Holds U E :=
  (keep_acts hE name x).pre fun _ hs => hs.holds

theorem keepRow_acts (hE : Backed E) (p : Nat) (r : Row V.source) (name : Option String) :
    Acts F (Holds U (E + inPool p (one (.owner r.handle)))) (keepRow p r name) (keepRow p r name)
      fun _ => Holds U E := by
  cases name with
  | none => exact onPool_spend r.drop (one_ne_zero _) hE (drop_trades r.handle)
  | some name => exact keep_acts hE name (.row p r)

theorem handleInfo_acts (hX : Lent K p X) (h0 : X ≠ 0) (hE : Pool.Backed (E.1 p)) :
    Acts F (KeptWith U K E) (handleInfo p h) (handleInfo p h) fun _ => KeptWith U K E :=
  (pool_acts hX h0 hE).bind fun _ => Acts.still

theorem view_acts {r : Row V.source} (hX : Lent K p (one (.owner r.handle)))
    (hE : Pool.Backed (E.1 p)) (column : Nat) :
    Acts (Holds U E) (KeptWith U K E) (view p r column) (view p r column)
      fun _ => KeptWith U K E := by
  have h0 := one_ne_zero (.owner r.handle)
  refine (onPool_use hX (r.checkColumn_trades column) h0 hE).bind fun checked => ?_
  refine (ofExcept_acts (fun _ hs => hs.holds) checked).bind fun _ => ?_
  refine (onPool_use hX r.columns_trades h0 hE).bind fun columns => ?_
  refine (onPool_use hX (r.read_trades column _) h0 hE).bind fun isNull => ?_
  refine (onPool_use hX (r.read_trades column _) h0 hE).bind fun value => ?_
  exact Acts.still

theorem collectRows_acts (hX : Lent K p (one (.owner h))) (hE : Pool.Backed (E.1 p))
    (wanted : Wanted) :
    Acts (Holds U E) (KeptWith U K E) (collectRows p h wanted) (collectRows p h wanted)
      fun _ => KeptWith U K E := by
  have collected {α : Type} {map : Row V.source → PoolM V.source (Except Error α)}
      (hm : ∀ r : Row V.source, Trades U.toUpkeep (one (.owner r.handle)) (map r) (map r)
        fun _ => one (.owner r.handle)) :
      Acts (Holds U E) (KeptWith U K E) (onPool p (Pool.collectRows id h map))
        (onPool p (Pool.collectRows id h map)) fun _ => KeptWith U K E :=
    onPool_use hX (collectRows_trades (Trading.pool U.toUpkeep) h hm) (one_ne_zero _) hE
  cases wanted with
  | all =>
    exact (collected Row.values_trades).bind fun rows =>
      (ofExcept_acts (fun _ hs => hs.holds) rows).bind fun _ => Acts.still
  | column n =>
    exact (collected fun r => r.getValue_trades n).bind fun values =>
      (ofExcept_acts (fun _ hs => hs.holds) values).bind fun _ => Acts.still
  | named name =>
    exact (collected fun r => r.getByName_trades name).bind fun values =>
      (ofExcept_acts (fun _ hs => hs.holds) values).bind fun _ => Acts.still

theorem rawFetch_acts (hX : Lent K p (one (.owner h) + one (.read h))) (hE : Backed E)
    (name : String) :
    Acts (Holds U E) (KeptWith U K E) (rawFetch p h name) (rawFetch p h name)
      fun _ => Holds U E := by
  have h0 : one (.owner h) + one (.read h) ≠ 0 := add_ne_zero (one_ne_zero _) _
  refine (onPool_use hX (fetch_trades h) h0 (hE p)).bind fun fetched => ?_
  match fetched with
  | .error f => exact Acts.throw fun _ hs => hs.holds
  | .ok none => exact done_kept
  | .ok (some token) =>
    refine Acts.bind (Q := fun _ => Holds U E) ?_ fun _ => done
    exact (keep_acts hE name (.rawRow token)).pre fun _ hs => (add_zero E).symm ▸ hs.holds

theorem rawRow_acts (w : RawRow) :
    Acts (Holds U E) (Holds U E) (rawRow w) (rawRow w) fun _ => Holds U E := by
  cases w with
  | kept name =>
    refine (find_acts name).bind fun x => ?_
    split
    · exact Acts.pure fun _ => And.left
    · exact bad_acts.pre fun _ => And.left
  | numbered n =>
    simp only [rawRow]
    cases V.numbered n with
    | some token => exact done
    | none => exact bad_acts

theorem outline_acts (hE : Backed E) {name : String} {x : Object V}
    (hx : K.lookup name = some x) :
    Acts (Holds U E) (KeptWith U K E) (outline x) (outline x) fun _ => Holds U E := by
  have looked {p : Nat} {t : Token} (h : x.holding = inPool p (one t)) :
      Acts (Holds U E) (KeptWith U K E) (pool p) (pool p) fun _ => KeptWith U K E :=
    pool_acts (lent_of_lookup hx h) (one_ne_zero _) (hE p)
  cases x with
  | connection p => exact (looked rfl).bind fun _ => done_kept
  | result p h => exact (looked rfl).bind fun _ => done_kept
  | handle p h => exact (looked rfl).bind fun _ => done_kept
  | cursor p c => exact done_kept
  | row p r => exact done_kept
  | guard p h => exact bad_acts.pre fun _ hs => hs.holds
  | rawRow token => exact bad_acts.pre fun _ hs => hs.holds
  | base b =>
    refine Acts.bind (Q := fun _ => Holds U E) (Alike.keeps fun s hs => hs.holds) fun s => ?_
    cases V.baseOutline b s.engine with
    | some text => exact done
    | none => exact bad_acts

theorem Move.perform_acts (hE : Backed E) (m : Move) :
    Acts (Holds U E) (Holds U E) (m.perform (V := V)) m.perform fun _ => Holds U E := by
  -- What a move borrows for its operations it gives back, unless it keeps an object.
  cases m with
  | query c text name =>
    refine (connection_acts c).bind fun p => Acts.at_kept fun K _ hp => ?_
    refine (onPool_borrow hp (query_trades text).gains (one_ne_zero _) (hE p)).bind
      fun outcome => ?_
    refine (ofExcept_gained outcome).bind fun h => ?_
    have hE' := hE.add (Backed.inPool p (.owner h))
    refine (pool_acts hp (one_ne_zero _) (hE' p)).bind fun _ => ?_
    exact (keep_kept hE name (.result p h)).bind fun _ => done
  | run c text =>
    refine (connection_acts c).bind fun p => Acts.at_kept fun K _ hp => ?_
    refine (onPool_use hp (run_trades text) (one_ne_zero _) (hE p)).bind fun outcome => ?_
    exact (ofExcept_acts (fun _ hs => hs.holds) outcome).bind fun _ => done_kept
  | cloneConnection c name =>
    refine (connection_acts c).bind fun p => Acts.at_kept fun K _ hp => ?_
    refine (onPool_borrow hp join_trades (one_ne_zero _) (hE p)).bind fun _ => ?_
    exact (keep_kept hE name (.connection p)).bind fun _ => done
  | drop name => exact (forget_acts hE name).bind fun _ => done
  | close r =>
    refine (result_acts r).bind fun ⟨p, h⟩ => Acts.at_kept fun K _ hp => ?_
    exact (onPool_use hp (requestRelease_trades (one_self _)) (one_ne_zero _) (hE p)).bind
      fun _ => done_kept
  | info r =>
    refine (result_acts r).bind fun ⟨p, h⟩ => Acts.at_kept fun K _ hp => ?_
    exact (pool_acts hp (one_ne_zero _) (hE p)).bind fun _ => done_kept
  | cursor r name =>
    refine (result_acts r).bind fun ⟨p, h⟩ => Acts.at_kept fun K _ hp => ?_
    refine (onPool_borrow hp (Cursor.take_trades h).gains (one_ne_zero _) (hE p)).bind
      fun outcome => ?_
    refine (ofExcept_gained outcome).bind fun c => ?_
    exact (keep_kept hE name (.cursor p c)).bind fun _ => done
  | advance k =>
    refine (cursor_acts k).bind fun ⟨p, c⟩ => Acts.at_kept fun K hK hc => ?_
    refine (onPool_move hK hc rfl c.advance_trades (one_ne_zero _) (hE p)).bind fun ⟨moved, c⟩ => ?_
    refine (replace_acts (x := .cursor p c) hK hc).bind fun _ => ?_
    exact (ofExcept_acts (fun _ => id) moved).bind fun _ => done
  | next k name =>
    refine (cursor_acts k).bind fun ⟨p, c⟩ => Acts.at_kept fun K hK hc => ?_
    refine (onPool_move hK hc rfl c.next_trades (one_ne_zero _) (hE p)).bind fun found => ?_
    have replaced (c' : Cursor V.source) (X : Stake) : Acts (Holds U E)
        (Aside U K k (E + inPool p (one (.owner c'.handle) + X))) (replace k (.cursor p c'))
        (replace k (.cursor p c')) fun _ => Holds U (E + inPool p X) := by
      rw [add_comm (one _), inPool_add, ← add_assoc]
      exact replace_acts (x := .cursor p c') hK hc
    match found with
    | (none, c) => exact (replace_acts (x := .cursor p c) hK hc).bind fun _ => done
    | (some (.error e), c) =>
      exact (replace_acts (x := .cursor p c) hK hc).bind fun _ => Acts.throw fun _ => id
    | (some (.ok r), c) =>
      exact (replaced c (one (.owner r.handle))).bind fun _ =>
        (keepRow_acts hE p r name).bind fun _ => done
  | currentRow k name =>
    refine (cursor_acts k).bind fun ⟨p, c⟩ => Acts.at_kept fun K _ hc => ?_
    have hp : Lent K p (one (.owner c.handle)) := lent_of_lookup hc rfl
    refine (onPool_borrow hp c.currentRow_trades.gains (one_ne_zero _) (hE p)).bind
      fun outcome => ?_
    refine (ofExcept_gained outcome).bind fun r => ?_
    exact (keep_kept hE name (.row p r)).bind fun _ => done
  | cursorInfo k =>
    refine (cursor_acts k).bind fun ⟨p, c⟩ => Acts.at_kept fun K _ hc => ?_
    have hp : Lent K p (one (.owner c.handle)) := lent_of_lookup hc rfl
    exact (pool_acts hp (one_ne_zero _) (hE p)).bind fun _ => done_kept
  | rowInfo w =>
    refine (row_acts w).bind fun ⟨p, r⟩ => Acts.at_kept fun K _ hp => ?_
    exact (onPool_use hp r.columns_trades (one_ne_zero _) (hE p)).bind fun _ => done_kept
  | cloneRow w name =>
    refine (row_acts w).bind fun ⟨p, r⟩ => Acts.at_kept fun K _ hp => ?_
    refine (onPool_borrow hp r.clone_trades (one_ne_zero _) (hE p)).bind fun r' => ?_
    exact (keep_kept hE name (.row p r')).bind fun _ => done
  | get w column =>
    refine (row_acts w).bind fun ⟨p, r⟩ => Acts.at_kept fun K _ hp => ?_
    refine (onPool_use hp (r.getValue_trades column) (one_ne_zero _) (hE p)).bind fun outcome => ?_
    exact (ofExcept_acts (fun _ hs => hs.holds) outcome).bind fun _ => done_kept
  | getByName w name =>
    refine (row_acts w).bind fun ⟨p, r⟩ => Acts.at_kept fun K _ hp => ?_
    refine (onPool_use hp (r.getByName_trades name) (one_ne_zero _) (hE p)).bind fun outcome => ?_
    exact (ofExcept_acts (fun _ hs => hs.holds) outcome).bind fun _ => done_kept
  | values w =>
    refine (row_acts w).bind fun ⟨p, r⟩ => Acts.at_kept fun K _ hp => ?_
    refine (onPool_use hp r.values_trades (one_ne_zero _) (hE p)).bind fun outcome => ?_
    exact (ofExcept_acts (fun _ hs => hs.holds) outcome).bind fun _ => done_kept
  | view w column =>
    refine (row_acts w).bind fun ⟨p, r⟩ => Acts.at_kept fun K _ hp => ?_
    exact (view_acts hp (hE p) column).bind fun _ => done_kept
  | collectRows r wanted =>
    refine (result_acts r).bind fun ⟨p, h⟩ => Acts.at_kept fun K _ hp => ?_
    exact (collectRows_acts hp (hE p) wanted).bind fun _ => done_kept
  | handle x name =>
    refine (owned_acts x).bind fun ⟨p, h⟩ => Acts.at_kept fun K _ hx => ?_
    obtain ⟨X, h0, hX⟩ := hx
    refine (onPool_borrow hX (retain_trades h0) (ne_zero_of_apply h0) (hE p)).bind fun _ => ?_
    exact (keep_kept hE name (.handle p h)).bind fun _ => done
  | acquire x name =>
    refine (owned_acts x).bind fun ⟨p, h⟩ => Acts.at_kept fun K _ hx => ?_
    obtain ⟨X, h0, hX⟩ := hx
    refine (onPool_borrow hX (acquire_trades h0).gains (ne_zero_of_apply h0) (hE p)).bind
      fun outcome => ?_
    refine (ofExcept_gained outcome).bind fun _ => ?_
    have retained : Trades U.toUpkeep (X + one (.read h)) (Pool.retain h) (Pool.retain h)
        fun _ => X + (one (.owner h) + one (.read h)) := by
      rw [add_comm (one (.owner h)), ← add_assoc]
      exact retain_trades fun h' => h0 (Nat.add_eq_zero_iff.1 h').1
    refine (onPool_lent hX retained (ne_zero_of_apply h0) (hE p)).bind fun _ => ?_
    exact (keep_kept hE name (.guard p h)).bind fun _ => done
  | release x =>
    refine (owned_acts x).bind fun ⟨p, h⟩ => Acts.at_kept fun K _ hx => ?_
    obtain ⟨X, h0, hX⟩ := hx
    exact (onPool_use hX (requestRelease_trades h0) (ne_zero_of_apply h0) (hE p)).bind
      fun _ => done_kept
  | handleInfo x =>
    refine (owned_acts x).bind fun ⟨p, h⟩ => Acts.at_kept fun K _ hx => ?_
    obtain ⟨X, h0, hX⟩ := hx
    exact (handleInfo_acts hX (ne_zero_of_apply h0) (hE p)).bind fun _ => done_kept
  | guardInfo g =>
    refine (guard_acts g).bind fun ⟨p, h⟩ => Acts.at_kept fun K _ hp => ?_
    exact (handleInfo_acts hp (add_ne_zero (one_ne_zero _) _) (hE p)).bind fun _ => done_kept
  | rawFetch g name =>
    refine (guard_acts g).bind fun ⟨p, h⟩ => Acts.at_kept fun K _ hp => ?_
    exact (rawFetch_acts hp hE name).bind fun _ => done
  | rawRead w g column =>
    refine (rawRow_acts w).bind fun token => (guard_acts g).bind fun ⟨p, h⟩ =>
      Acts.at_kept fun K _ hp => ?_
    refine (onPool_use hp (readCell_trades h token column) (add_ne_zero (one_ne_zero _) _)
      (hE p)).bind fun outcome => ?_
    exact (ofExcept_acts (fun _ hs => hs.holds) outcome).bind fun _ => done_kept
  | collect c =>
    refine (connection_acts c).bind fun p => Acts.at_kept fun K _ hp => ?_
    exact (onPool_use hp collect_trades (one_ne_zero _) (hE p)).bind fun _ => done_kept
  | releaseAll c =>
    refine (connection_acts c).bind fun p => Acts.at_kept fun K _ hp => ?_
    exact (onPool_use hp releaseAll_trades (one_ne_zero _) (hE p)).bind fun _ => done_kept
  | mode c =>
    refine (connection_acts c).bind fun p => Acts.at_kept fun K _ hp => ?_
    exact (pool_acts hp (one_ne_zero _) (hE p)).bind fun _ => done_kept
  | outline name =>
    refine (find_acts name).bind fun x => Acts.at_kept fun K _ hx => ?_
    exact (outline_acts hE hx).bind fun _ => done

end QueryLease.Session

import QueryLease.Proofs.Pool.Course
import QueryLease.Proofs.Session.CallOrder

namespace QueryLease

namespace Pool

variable {S : Source} {G : Stake} {p : Pool S} {h : Nat}

def HandsOver (p : Pool S) : Prop :=
  ∀ (h : Nat) (x : Handle S), p.handles[h]? = some x →
    (x.word.stage = .closed ↔ x.word.requested = true ∧ x.word.reads = 0) ∧
    (p.gone []).count h = if x.word.stage = .closed then 1 else 0

theorem Sound.handsOver (s : Sound G p) : p.HandsOver := by
  intro h x hx
  have counts := s.leased.counts h x hx
  refine ⟨counts.closed_iff, ?_⟩
  have once := s.leased.gone_once h
  rw [hx] at once
  simp only [counts.closed_iff_shut]
  exact once

end Pool

namespace Session

open Pool

variable {V : Venue} {U : Venue.Upkeep V} {P : Type} {D : Scope V} {E E' : Holding V}
  {K : Kept V} {s s' : Session V} {p h : Nat} {f : P → StepM V Answer}

def reads (s : Session V) (p h : Nat) : Nat := s.pools[p]?.elim 0 fun pool => (pool.word h).reads

def Object.guards (p h : Nat) : Object V → Bool
  | guard q k => p == q && h == k
  | _ => false

def guards (s : Session V) (p h : Nat) : Nat := s.kept.countP fun e => e.2.guards p h

/-- Apart from guards, as many reads of every handle are in flight. -/
def Level (s s' : Session V) : Prop :=
  ∀ p h, s'.reads p h + s.guards p h = s.reads p h + s'.guards p h

theorem inPool_read (p q h : Nat) (G : Stake) :
    (inPool q G : Holding V).1 p (.read h) = if p = q then G (.read h) else 0 := by
  rw [inPool_fst]
  split_ifs <;> rfl

theorem Object.holding_read (x : Object V) (p h : Nat) :
    x.holding.1 p (.read h) = if x.guards p h then 1 else 0 := by
  cases x with
  | guard q k =>
    refine (inPool_read ..).trans ?_
    simp [one_apply, Object.guards, ite_and]
  | connection q => exact (inPool_read ..).trans (ite_self 0)
  | result q k => exact (inPool_read ..).trans (ite_self 0)
  | cursor q c => exact (inPool_read ..).trans (ite_self 0)
  | row q r => exact (inPool_read ..).trans (ite_self 0)
  | handle q k => exact (inPool_read ..).trans (ite_self 0)
  | rawRow token => rfl
  | base b => rfl

theorem held_read (K : Kept V) (p h : Nat) :
    (held K).1 p (.read h) = K.countP fun e => e.2.guards p h := by
  induction K with
  | nil => rfl
  | cons e K ih =>
    rw [List.countP_cons, ← ih, ← Object.holding_read, add_comm]
    rfl

theorem Holds.reads_eq (hs : Holds U E s) (p h : Nat) :
    s.reads p h = s.guards p h + E.1 p (.read h) := by
  rw [guards, ← held_read]
  show _ = (Session.held s.kept + E).1 p (.read h)
  rw [reads]
  cases hp : s.pools[p]? with
  | none =>
    rw [hs.held.absent p (Array.getElem?_eq_none_iff.1 hp)]
    rfl
  | some pool => exact (hs.held.sound p pool hp).reads_eq h

theorem Holds.level (hs : Holds U E s) (hs' : Holds U E' s')
    (same : ∀ p h, E'.1 p (.read h) = E.1 p (.read h)) : Level s s' := by
  intro p h
  rw [hs.reads_eq, hs'.reads_eq, same]
  omega

/-- A read of the handle is in flight, so its lease has not closed and its buffer is there. -/
def Borrowed (p h : Nat) (s : Session V) : Prop :=
  ∃ pool x, s.pools[p]? = some pool ∧ pool.handles[h]? = some x ∧ x.word.reads ≠ 0 ∧
    x.word.stage ≠ .closed ∧ h ∉ pool.gone []

def Scope.reading (V : Venue) (p h : Nat) : Scope V where
  mem E := Backed E ∧ E.1 p (.read h) ≠ 0
  backed := And.left
  owner hE q k := ⟨hE.1.add (.inPool q (.owner k)), fun none =>
    hE.2 (Nat.add_eq_zero_iff.1 none).1⟩

theorem Scope.all_lends_reading (p h : Nat) : (all V).Lends (reading V p h) p h := by
  refine fun E hE => ⟨hE.add (.inPool p (Row.backed_read h)), ?_⟩
  rw [add_inPool_self]
  exact add_apply_ne_zero _ (add_apply_ne_zero _ (one_self (.read h)))

theorem Scope.reading_lends (p h q k : Nat) : (reading V p h).Lends (reading V p h) q k :=
  fun _ hE => ⟨hE.1.add (.inPool q (Row.backed_read k)), fun none =>
    hE.2 (Nat.add_eq_zero_iff.1 none).1⟩

theorem Holds.borrowed (hs : Holds U E s) (hE : E.1 p (.read h) ≠ 0) : Borrowed p h s := by
  have reads := hs.reads_eq p h
  rw [Session.reads] at reads
  cases hp : s.pools[p]? with
  | none =>
    rw [hp, Option.elim_none] at reads
    omega
  | some pool =>
    rw [hp, Option.elim_some] at reads
    have sound := hs.held.sound p pool hp
    cases hx : pool.handles[h]? with
    | none =>
      rw [word_absent hx, show Lease.Word.shut.reads = 0 by decide] at reads
      omega
    | some x =>
      rw [word_eq hx] at reads
      have read : x.word.reads ≠ 0 := by omega
      obtain ⟨closed, once⟩ := sound.handsOver h x hx
      have opened : x.word.stage ≠ .closed := fun e => read (closed.1 e).2
      rw [if_neg opened] at once
      exact ⟨pool, x, hp, hx, read, opened, List.count_eq_zero.1 once⟩

theorem row_run {w : String} {r : Row V.source} (hr : s.kept.lookup w = some (.row p r)) :
    (row w).run.run s = (.ok (p, r), s) := by
  have found : (find w).run.run s = (.ok (.row p r), s) := by
    rw [find_run, hr]
    rfl
  show StateT.run ((find w).run >>= ExceptT.bindCont _) s = _
  rw [StateT.run_bind, found]
  rfl

theorem withRaw_borrows (hf : ∀ p, NeutralStep U (f p) (f p)) (hE : Backed E) (hs : Holds U E s)
    {w : String} {r : Row V.source} (hr : s.kept.lookup w = some (.row p r))
    {look : StepM V Answer}
    (hl : ∀ s, Borrowed p r.handle s → look.run.run s = (.ok .nothing, s)) (column : Nat)
    (inside : List (Step (Option P))) :
    (withRaw w column (performAll (watched look f) false inside)).run.run s =
      (withRaw w column (performAll (watched (pure .nothing) f) false inside)).run.run s := by
  have own : ∀ p', NeutralStepIn U (.reading V p r.handle) (f p') (f p') :=
    fun p' E hE => hf p' E hE.1
  have neutral := performAll_in (Scope.reading_lends p r.handle)
    (watched_in own (fun E s hE hs => hs.borrowed hE.2) hl) false inside
  have looked := withRow_acts (K := s.kept) (Scope.all_lends_reading p r.handle)
    (lent_of_lookup hr rfl) neutral hE column s ⟨rfl, hs⟩
  rw [withRaw_eq, withRaw_eq]
  show StateT.run ((row w).run >>= ExceptT.bindCont _) s =
    StateT.run ((row w).run >>= ExceptT.bindCont _) s
  rw [StateT.run_bind, StateT.run_bind, row_run hr]
  exact looked.1

def Scope.level (n : Nat → Nat → Nat) : Scope V where
  mem E := Backed E ∧ ∀ p h, E.1 p (.read h) = n p h
  backed := And.left
  owner hE q k := by
    refine ⟨hE.1.add (.inPool q (.owner k)), fun p h => ?_⟩
    show _ + (inPool q (one (.owner k)) : Holding V).1 p (.read h) = _
    rw [inPool_read, hE.2]
    exact congrArg (n p h + ·) (ite_self 0)

def between (look : SessionM V Unit) (inside : Running V) : Running V := do
  look
  let ran ← inside
  look
  return ran

theorem between_neutral {look : SessionM V Unit} {inside : Running V}
    (hl : Alike (Holds U E) look (pure ()) fun _ => Holds U E)
    (h : Alike (Holds U E) inside inside fun _ => Holds U E) :
    Alike (Holds U E) (between look inside) inside fun _ => Holds U E := by
  have alike : Alike (Holds U E) (between look inside)
      (do pure (); let ran ← inside; pure (); return ran) fun _ => Holds U E :=
    hl.bind fun _ => h.bind fun _ => hl.bind fun _ => Alike.still
  simpa only [pure_bind, bind_pure] using alike

theorem forEach_level (hf : ∀ p, NeutralStep U (f p) (f p)) (hE : Backed E) (hs : Holds U E s)
    {look : SessionM V Unit} (hl : ∀ s', Level s s' → look.run s' = ((), s')) (x name : String)
    (stop : Bool) (inside : List (Step P)) :
    (forEach x name (between look (performAll f stop inside))).run.run s =
      (forEach x name (performAll f stop inside)).run.run s := by
  let D : Scope V := .level fun p h => E.1 p (.read h)
  have neutral :
      NeutralIn U D (between look (performAll f stop inside)) (performAll f stop inside) := by
    intro E' hE'
    refine between_neutral (fun s' hs' => ?_) (performAll_neutral hf stop inside E' hE'.1)
    have quiet := hl s' (hs.level hs' hE'.2)
    exact ⟨quiet, by rw [quiet]; exact hs'⟩
  exact (forEach_acts neutral (show D.mem E from ⟨hE, fun _ _ => rfl⟩) x name s hs).1

def Move.plain : Move → Bool
  | advance _ | next _ none | get _ _ | getByName _ _ => true
  | values _ | view _ _ | collectRows _ _ => true
  | _ => false

variable {name : String} {α : Type}

abbrev KeptStays (K : Kept V) (x : StepM V α) : Prop :=
  Acts (fun s => s.kept = K) (fun s => s.kept = K) x x fun _ s => s.kept = K

def Guards (K : Kept V) (s : Session V) : Prop :=
  ∀ p h, s.guards p h = K.countP fun e => e.2.guards p h

theorem guards_of_kept (hs : s.kept = K) : Guards K s := fun _ _ => congrArg _ hs

theorem find_kept (name : String) : Acts (fun s => s.kept = K) (fun s => s.kept = K) (find name)
    (find name) fun x s => K.lookup name = some x ∧ s.kept = K := by
  refine Alike.keeps fun s hs => ?_
  rw [find_run, hs]
  cases K.lookup name with
  | none => exact hs
  | some x => exact ⟨rfl, hs⟩

theorem bad_kept {Q : α → Session V → Prop} :
    Acts (fun s => s.kept = K) (fun s => s.kept = K) (bad : StepM V α) bad Q :=
  Acts.throw fun _ => id

theorem row_kept (name : String) : KeptStays K (row (V := V) name) := by
  refine (find_kept name).bind fun x => Acts.assume fun _ => ?_
  split
  · exact Acts.still
  · exact bad_kept

theorem result_kept (name : String) : KeptStays K (result (V := V) name) := by
  refine (find_kept name).bind fun x => Acts.assume fun _ => ?_
  split
  · exact Acts.still
  · exact bad_kept

theorem cursor_kept (name : String) :
    Acts (fun s => s.kept = K) (fun s => s.kept = K) (cursor name) (cursor name)
      fun x s => K.lookup name = some (.cursor x.1 x.2) ∧ s.kept = K := by
  refine (find_kept name).bind fun x => ?_
  split
  · exact Acts.pure fun _ => id
  · exact bad_kept.pre fun _ => And.right

theorem view_kept (p : Nat) (r : Row V.source) (column : Nat) :
    KeptStays K (view p r column) := by
  refine (onPool_kept p _).bind fun checked =>
    (ofExcept_acts (fun _ => id) checked).bind fun _ => ?_
  refine (onPool_kept p _).bind fun columns => (onPool_kept p _).bind fun isNull => ?_
  exact (onPool_kept p _).bind fun value => Acts.still

theorem attempt_kept {β : Type} (p : Nat) (act : PoolM V.source (Except Error α)) {g : α → β} :
    KeptStays K (do return g (← ofExcept (← onPool p act))) :=
  (onPool_kept p act).bind fun outcome => (ofExcept_acts (fun _ => id) outcome).bind fun _ =>
    Acts.still

theorem collectRows_kept (p h : Nat) (wanted : Wanted) :
    KeptStays K (collectRows (V := V) p h wanted) := by
  cases wanted with
  | all => exact attempt_kept p _
  | column n => exact attempt_kept p _
  | named name => exact attempt_kept p _

theorem replace_guards {c c' : Cursor V.source} (hK : Ordered K)
    (hc : K.lookup name = some (.cursor p c)) :
    Acts (Guards K) (fun s => s.kept = K) (replace name (.cursor p c'))
      (replace name (.cursor p c')) fun _ => Guards K := by
  refine Alike.keeps ?_
  rintro s rfl q k
  have unread (c : Cursor V.source) : (Object.cursor p c).holding.1 q (.read k) = 0 :=
    (Object.holding_read ..).trans (if_neg Bool.false_ne_true)
  have same : (held (insert name (.cursor p c') s.kept).1).1 q (.read k) +
      (Object.cursor p c).holding.1 q (.read k) =
        (held s.kept).1 q (.read k) + (Object.cursor p c').holding.1 q (.read k) := by
    have same := held_insert name (.cursor p c') s.kept
    rw [insert_of_lookup hK hc] at same
    exact congrArg (·.1 q (.read k)) same
  rw [unread, unread, held_read, held_read] at same
  exact same

theorem onPool_guards (p : Nat) (act : PoolM V.source α) :
    Acts (Guards K) (Guards K) (onPool p act) (onPool p act) fun _ => Guards K := fun s hs =>
  (onPool_kept p act).weaken (fun _ => id)
    (fun _ kept q k => (guards_of_kept kept q k).trans (hs q k))
    (fun _ _ kept q k => (guards_of_kept kept q k).trans (hs q k)) s rfl

theorem Move.plain_guards (hK : Ordered K) {m : Move} (plain : m.plain = true) :
    Acts (Guards K) (fun s => s.kept = K) (m.perform (V := V)) m.perform fun _ => Guards K := by
  have kept {β : Type} {x : StepM V β} (h : KeptStays K x) :
      Acts (Guards K) (fun s => s.kept = K) x x fun _ => Guards K :=
    h.weaken (fun _ => id) (fun _ => guards_of_kept) fun _ _ => guards_of_kept
  have moved {β : Type} (p : Nat) (act : PoolM V.source β) :
      Acts (Guards K) (fun s => s.kept = K) (onPool p act) (onPool p act) fun _ s => s.kept = K :=
    (onPool_kept p act).weaken (fun _ => id) (fun _ => guards_of_kept) fun _ _ => id
  have sought (k : String) := (cursor_kept (V := V) (K := K) k).weaken (fun _ => id)
    (fun _ => guards_of_kept) fun _ _ => id
  cases m with
  | get w column => exact kept ((row_kept w).bind fun ⟨p, r⟩ => attempt_kept p _)
  | getByName w name => exact kept ((row_kept w).bind fun ⟨p, r⟩ => attempt_kept p _)
  | values w => exact kept ((row_kept w).bind fun ⟨p, r⟩ => attempt_kept p _)
  | view w column =>
    exact kept ((row_kept w).bind fun ⟨p, r⟩ => (view_kept p r column).bind fun _ => Acts.still)
  | collectRows x wanted =>
    exact kept ((result_kept x).bind fun ⟨p, h⟩ => (collectRows_kept p h wanted).bind fun _ =>
      Acts.still)
  | advance k =>
    refine (sought k).bind fun ⟨p, c⟩ => Acts.assume fun hc => ?_
    refine (moved p c.advance).bind fun ⟨moved, c'⟩ => (replace_guards hK hc).bind fun _ => ?_
    exact (ofExcept_acts (fun _ => id) moved).bind fun _ => Acts.still
  | next k keep =>
    cases keep with
    | some name => cases plain
    | none =>
      refine (sought k).bind fun ⟨p, c⟩ => Acts.assume fun hc => ?_
      refine (moved p c.next).bind fun ⟨found, c'⟩ => (replace_guards hK hc).bind fun _ => ?_
      match found with
      | none => exact Acts.still
      | some (.error e) => exact Acts.throw fun _ => id
      | some (.ok r) => exact (onPool_guards p r.drop).bind fun _ => Acts.still
  | _ => cases plain

theorem Move.plain_reads (hE : Backed E) (hs : Holds U E s) {m : Move} (plain : m.plain = true)
    (p h : Nat) : (m.perform.run.run s).2.reads p h = s.reads p h := by
  have after : Holds U E (m.perform.run.run s).2 := (m.perform_acts hE).run.post hs
  have guards : Guards s.kept (m.perform.run.run s).2 :=
    (Move.plain_guards hs.ordered plain).run.post rfl
  rw [after.reads_eq, hs.reads_eq, guards p h]
  rfl

theorem Holds.row_reads (hE : Backed E) (hs : Holds U E s) {w : String} {r : Row V.source}
    (hr : s.kept.lookup w = some (.row p r)) {pool : Pool V.source} (hp : s.pools[p]? = some pool)
    {x : PoolM V.source α} (trades : Trades U.toUpkeep (one (.owner r.handle)) x x
      fun _ => one (.owner r.handle)) (h : Nat) :
    ((x.run ⟨pool, s.engine⟩).2.pool.word h).reads = (pool.word h).reads := by
  obtain ⟨Y, hY, e⟩ := (lent_of_lookup hr rfl : Lent s.kept p (one (.owner r.handle))).exists_rest
  have split : (Session.held s.kept + E).1 p = (Y + E).1 p + one (.owner r.handle) := by
    rw [e, add_right_comm, add_inPool_self]
  have desk := hs.held.desk hp
  rw [split] at desk
  have after := (trades _ _ ((hY.add hE) p) (hs.held.linked_others p)).post desk
  rw [after.sound.reads_eq, desk.sound.reads_eq]

structure InBalance (f : P → StepM V Answer) (s : Session V) : Prop where
  steps (step : Step P) : Level s ((step.perform f).run.run s).2
  plain (m : Move) : m.plain = true → ∀ p h, (m.perform.run.run s).2.reads p h = s.reads p h
  views (w : String) (p : Nat) (r : Row V.source) : s.kept.lookup w = some (.row p r) →
    ∀ pool, s.pools[p]? = some pool → ∀ column h,
      (((r.isNull column).run ⟨pool, s.engine⟩).2.pool.word h).reads = (pool.word h).reads ∧
      (((r.value column).run ⟨pool, s.engine⟩).2.pool.word h).reads = (pool.word h).reads
  pools (p : Nat) (pool : Pool V.source) : s.pools[p]? = some pool → ∀ deeds,
    (Deed.course ⟨pool, s.engine⟩ deeds).pool.HandsOver
  /-- Between all steps that are run while a cell is looked at. -/
  looked (w : String) (p : Nat) (r : Row V.source) : s.kept.lookup w = some (.row p r) →
    ∀ look : StepM V Answer, (∀ s, Borrowed p r.handle s → look.run.run s = (.ok .nothing, s)) →
    ∀ column inside, ((Step.withRaw w column inside).perform (watched look f)).run.run s =
      ((Step.withRaw w column inside).perform (watched (pure .nothing) f)).run.run s
  /-- Before and after the steps that are run on each row of a walk, which leave the level too. -/
  visited (look : SessionM V Unit) : (∀ s', Level s s' → look.run s' = ((), s')) →
    ∀ x name stop inside, (forEach x name (between look (performAll f stop inside))).run.run s =
      ((Step.forEach x name inside stop).perform f).run.run s

theorem Holds.inBalance (hf : ∀ p, NeutralStep U (f p) (f p)) (hE : Backed E) (hs : Holds U E s) :
    InBalance f s where
  steps step := hs.level ((Step.perform_neutral hf step E hE).run.post hs) fun _ _ => rfl
  plain _ plain := Move.plain_reads hE hs plain
  views _ _ r hr _ hp column h :=
    ⟨hs.row_reads hE hr hp (r.read_trades column _) h,
      hs.row_reads hE hr hp (r.read_trades column _) h⟩
  pools p pool hp deeds := by
    have sound : Desk.Sound ⟨pool, s.engine⟩ := ⟨_, hs.held.sound p pool hp⟩
    obtain ⟨G, sound⟩ := sound.course deeds
    exact sound.handsOver
  looked w p r hr look hl column inside := by
    simp only [Step.perform]
    exact withRaw_borrows hf hE hs hr hl column inside
  visited look hl x name stop inside := by
    simp only [Step.perform]
    exact forEach_level hf hE hs hl x name stop inside

/-- In every state of a run, and of what is run inside its steps, the reads are in balance. -/
theorem borrows_balance (engine : V.source.State) (prompt : Bool) :
    let act := Attended.perform (Outside.perform (V := V))
    Always act (InBalance act) { engine, prompt } := by
  have start := holds_nothing (U := .free V) engine prompt trivial trivial
  have neutral := Attended.perform_neutral (Outside.perform_neutral (V := V))
  exact always_of_holds neutral (fun _ _ hE hs => hs.inBalance neutral hE) start

end Session

end QueryLease

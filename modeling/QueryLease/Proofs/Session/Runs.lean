import QueryLease.Proofs.Session.Moves

namespace QueryLease.Session

open Pool

variable {V : Venue} {U : Venue.Upkeep V} {F : Session V → Prop} {E : Holding V} {P : Type}
  {s : Session V}

/-- Some of what may be held beside the kept objects, with any number of owners more. -/
structure Scope (V : Venue) where
  mem : Holding V → Prop
  backed {E : Holding V} : mem E → Backed E
  owner {E : Holding V} : mem E → ∀ p h, mem (E + inPool p (one (.owner h)))

namespace Scope

def all (V : Venue) : Scope V where
  mem := Backed
  backed := id
  owner hE p h := hE.add (Backed.inPool p (.owner h))

def Lends (D D' : Scope V) (p h : Nat) : Prop :=
  ∀ E, D.mem E → D'.mem (E + inPool p (one (.owner h) + one (.read h)))

theorem all_lends (p h : Nat) : (all V).Lends (all V) p h :=
  fun _ hE => hE.add (Backed.inPool p (Row.backed_read h))

end Scope

variable {D D' : Scope V}

/-- The two actions are alike where this is held, and hold in the end what was held before. -/
def NeutralIn {α : Type} (U : Venue.Upkeep V) (D : Scope V) (x y : SessionM V α) : Prop :=
  ∀ E, D.mem E → Alike (Holds U E) x y fun _ => Holds U E

abbrev Neutral {α : Type} (U : Venue.Upkeep V) (x y : SessionM V α) : Prop :=
  NeutralIn U (.all V) x y

def trading (U : Venue.Upkeep V) (D : Scope V) (p : Nat) :
    Trading U.toUpkeep (StepM V) (onPool p) where
  trades pre x y post := ∀ E, D.mem E → Acts (fun _ => False) (Holds U (E + inPool p pre)) x y
    fun a => Holds U (E + inPool p (post a))
  pure h _ _ := Acts.pure fun _ => h ▸ id
  bind hx hf E hE := (hx E hE).bind fun a => hf a E hE
  frame {_ h _ _ _ _} hx E hE := by
    simp only [inPool_add, ← add_assoc]
    exact hx _ (D.owner hE p h)
  lift h0 h _ hE := onPool_acts h h0 (D.backed hE p)

theorem NeutralIn.lifted {α : Type} {x y : SessionM V α} (h : NeutralIn U D x y) (hE : D.mem E) :
    Acts F (Holds U E) (liftM x) (liftM y) fun _ => Holds U E := by
  intro s hs
  obtain ⟨same, hs'⟩ := h E hE s hs
  refine ⟨?_, hs'⟩
  show (Except.ok (x.run s).1, (x.run s).2) = (Except.ok (y.run s).1, (y.run s).2)
  rw [same]

theorem snapshot_keeps : NeutralIn U D snapshot snapshot := by
  intro E _
  apply Alike.keeps
  intro s ⟨hs, ordered⟩
  exact ⟨hs.of_fst rfl (U.report hs.good), ordered⟩

variable {inside inside' : Running V}

theorem lookAt_acts {p : Nat} {r : Row V.source} (lends : D.Lends D' p r.handle)
    (h : NeutralIn U D' inside inside') (hE : D.mem E) (column : Nat) :
    Acts F (Holds U (E + inPool p (one (.owner r.handle)))) (lookAt p r column inside)
      (lookAt p r column inside') fun _ => Holds U (E + inPool p (one (.owner r.handle))) := by
  refine (onPool_acts (r.checkColumn_trades column) (one_ne_zero _) (D.backed hE p)).bind
    fun checked => ?_
  match checked with
  | .error e => exact Acts.still
  | .ok () =>
    refine (r.withCell_trades (trading U D p) column (fun cell => ?_) E hE).weaken (fun _ => id)
      (fun _ => False.elim) fun _ _ => id
    exact fun E hE => (h.lifted (lends E hE)).bind fun _ => Acts.still

def withRow (p : Nat) (r : Row V.source) (column : Nat) (inside : Running V) : StepM V Answer := do
  let r ← onPool p r.clone
  let looked ← lookAt p r column inside
  onPool p r.drop
  let (cell, records, ended) ← ofExcept looked
  match ended with
  | .error .panicked => return .looked true cell records
  | _ => return .looked false cell records

theorem withRaw_eq (w : String) (column : Nat) (inside : Running V) :
    withRaw w column inside = row w >>= fun found => withRow found.1 found.2 column inside := rfl

theorem onPool_clone (p : Nat) (r : Row V.source) :
    onPool p r.clone = onPool p (Pool.retain r.handle) >>= fun _ => pure r := by
  rw [onPool_eq, onPool_eq, bind_assoc]
  refine bind_congr fun s => ?_
  cases s.pools[p]? <;> rfl

theorem withRow_acts {p : Nat} {r : Row V.source} (lends : D.Lends D' p r.handle)
    (hp : Lent K p (one (.owner r.handle))) (h : NeutralIn U D' inside inside') (hE : D.mem E)
    (column : Nat) :
    Acts (Holds U E) (KeptWith U K E) (withRow p r column inside) (withRow p r column inside')
      fun _ => Holds U E := by
  have backed := D.backed hE
  simp only [withRow, onPool_clone, bind_assoc, pure_bind]
  refine (onPool_borrow hp (retain_trades (one_self _)) (one_ne_zero _) (backed p)).bind fun _ => ?_
  refine ((lookAt_acts lends h hE column).pre fun _ hs => hs.holds).bind fun looked => ?_
  refine (onPool_spend r.drop (one_ne_zero _) backed (drop_trades r.handle)).bind fun _ => ?_
  refine (ofExcept_acts (fun _ => id) looked).bind fun ⟨cell, records, ended⟩ => ?_
  match ended with
  | .error .panicked => exact done
  | .error (.failed t) => exact done
  | .ok () => exact done

theorem withRaw_acts (lends : ∀ p h, D.Lends D p h) (h : NeutralIn U D inside inside')
    (hE : D.mem E) (w : String) (column : Nat) :
    Acts (Holds U E) (Holds U E) (withRaw w column inside) (withRaw w column inside')
      fun _ => Holds U E := by
  simp only [withRaw_eq]
  exact (row_acts w).bind fun ⟨p, r⟩ => Acts.at_kept fun K _ hp =>
    withRow_acts (lends p r.handle) hp h hE column

theorem forEach_acts (h : NeutralIn U D inside inside') (hE : D.mem E) (x name : String) :
    Acts (Holds U E) (Holds U E) (forEach x name inside) (forEach x name inside')
      fun _ => Holds U E := by
  refine (result_acts x).bind fun ⟨p, h₀⟩ => Acts.at_kept fun K _ hp => ?_
  have backed := D.backed hE
  refine (onPool_borrow hp (retain_trades (one_self _)) (one_ne_zero _) (backed p)).bind fun _ => ?_
  refine Acts.bind (Q := fun _ => Holds U (E + inPool p (one (.owner h₀)))) ?_ fun walked => ?_
  · refine (fold_trades (trading U D p) _ (fun visits r => ?_) h₀ []) E hE |>.weaken
      (fun _ hs => hs.holds) (fun _ => False.elim) fun _ _ => id
    intro E hE
    have hE' := D.owner hE p r.handle
    refine (onPool_acts r.clone_trades (one_ne_zero _) (D.backed hE p)).bind fun r' => ?_
    rw [inPool_add, ← add_assoc]
    refine (keep_acts (D.backed hE') name (.row p r')).bind fun _ => ?_
    exact (h.lifted hE').bind fun _ => Acts.still
  · exact (onPool_spend (Pool.drop h₀) (one_ne_zero _) backed (drop_trades h₀)).bind fun _ => done

theorem rounds_acts (h : NeutralIn U D inside inside') (hE : D.mem E) (n : Nat)
    (last : List (Record Answer)) :
    Acts (Holds U E) (Holds U E) (rounds inside n last) (rounds inside' n last)
      fun _ => Holds U E := by
  induction n generalizing last with
  | zero => exact Acts.still
  | succ n ih =>
    refine (h.lifted hE).bind fun ⟨records, ended⟩ => ?_
    match ended with
    | .ok () => exact ih records
    | .error i => exact Acts.throw fun _ => id

def NeutralStepIn {α : Type} (U : Venue.Upkeep V) (D : Scope V) (x y : StepM V α) : Prop :=
  ∀ E, D.mem E → Acts (Holds U E) (Holds U E) x y fun _ => Holds U E

abbrev NeutralStep {α : Type} (U : Venue.Upkeep V) (x y : StepM V α) : Prop :=
  NeutralStepIn U (.all V) x y

variable {f g : P → StepM V Answer}

mutual

theorem Step.perform_in (lends : ∀ p h, D.Lends D p h)
    (hf : ∀ p, NeutralStepIn U D (f p) (g p)) :
    ∀ step : Step P, NeutralStepIn U D (step.perform f) (step.perform g)
  | .move m => fun _ hE => m.perform_acts (D.backed hE)
  | .peculiar p => hf p
  | .withRaw w column inside => fun _ hE =>
    withRaw_acts lends (performAll_in lends hf false inside) hE w column
  | .forEach x name inside stop => fun _ hE =>
    forEach_acts (performAll_in lends hf stop inside) hE x name
  | .rounds n inside => fun _ hE =>
    (rounds_acts (performAll_in lends hf false inside) hE n []).bind fun _ => done
  | .panic => fun _ _ => Acts.throw fun _ => id
  | .malformed => fun _ _ => bad_acts

theorem performAll_in (lends : ∀ p h, D.Lends D p h)
    (hf : ∀ p, NeutralStepIn U D (f p) (g p)) (stop : Bool) :
    ∀ steps : List (Step P), NeutralIn U D (performAll f stop steps) (performAll g stop steps)
  | [] => fun _ _ => Alike.still
  | step :: rest => by
    intro E hE
    refine Alike.bind (q := fun _ => Holds U E) ?_ fun outcome => ?_
    · exact (Step.perform_in lends hf step E hE).run
    · match outcome with
      | .error .panicked => exact Alike.still
      | .error (.failed t) =>
        refine (snapshot_keeps E hE).bind fun _ => ?_
        cases stop with
        | true => exact Alike.still
        | false => exact (performAll_in lends hf false rest E hE).bind fun _ => Alike.still
      | .ok a =>
        refine (snapshot_keeps E hE).bind fun _ => ?_
        exact (performAll_in lends hf stop rest E hE).bind fun _ => Alike.still

end

theorem Step.perform_neutral (hf : ∀ p, NeutralStep U (f p) (g p)) (step : Step P) :
    NeutralStep U (step.perform f) (step.perform g) := step.perform_in Scope.all_lends hf

theorem performAll_neutral (hf : ∀ p, NeutralStep U (f p) (g p)) (stop : Bool)
    (steps : List (Step P)) : Neutral U (performAll f stop steps) (performAll g stop steps) :=
  performAll_in Scope.all_lends hf stop steps

/-- The steps of a venue, and the work of reapers that are not prompt. -/
inductive Attended (P : Type) where
  | own (p : P)
  | reap (pool n : Nat)

def Attended.perform (f : P → StepM V Answer) : Attended P → StepM V Answer
  | own p => f p
  | reap p n => do
    onPool p (Pool.attend n)
    return .nothing

theorem onPool_attend (p n : Nat) :
    Acts (Holds U E) (Holds U E) (onPool p (Pool.attend n)) (onPool p (Pool.attend n))
      fun _ => Holds U E := by
  refine Acts.bind (Q := fun s' s => s' = s ∧ Holds U E s) (Alike.keeps fun s hs => ⟨rfl, hs⟩)
    fun s => ?_
  cases hp : s.pools[p]? with
  | none => exact Acts.throw fun _ => And.right
  | some pool =>
    refine Acts.bind (Q := fun _ => Holds U E) (Alike.keeps ?_) fun _ => Acts.still
    rintro _ ⟨rfl, hs⟩
    have attended := (settled s.prompt (attend_keeps n)).post (hs.held.desk hp)
    exact ⟨hs.held.put hp attended (fun _ _ => rfl) rfl, hs.ordered⟩

theorem Attended.perform_neutral (hf : ∀ p, NeutralStep U (f p) (f p)) (p : Attended P) :
    NeutralStep U (p.perform f) (p.perform f) := by
  cases p with
  | own p => exact hf p
  | reap p n => exact fun _ _ => (onPool_attend p n).bind fun _ => done

def watched (look : StepM V Answer) (f : P → StepM V Answer) : Option P → StepM V Answer
  | some p => f p
  | none => look

/-- `I` holds in every state between the steps of any run from `s`, and between those that are run
inside others: a step that does nothing where `I` holds does nothing wherever it stands. -/
def Always (f : P → StepM V Answer) (I : Session V → Prop) (s : Session V) : Prop :=
  ∀ look : StepM V Answer, (∀ s, I s → look.run.run s = (.ok .nothing, s)) → ∀ stop steps,
    (performAll (watched look f) stop steps).run s =
      (performAll (watched (pure .nothing) f) stop steps).run s

theorem watched_in {I : Session V → Prop} (hf : ∀ p, NeutralStepIn U D (f p) (f p))
    (hI : ∀ E s, D.mem E → Holds U E s → I s) {look : StepM V Answer}
    (hl : ∀ s, I s → look.run.run s = (.ok .nothing, s)) (p : Option P) :
    NeutralStepIn U D (watched look f p) (watched (pure .nothing) f p) := by
  cases p with
  | some p => exact hf p
  | none =>
    intro E hE s hs
    have quiet : (watched look f none).run.run s = (.ok .nothing, s) := hl s (hI E s hE hs)
    refine ⟨quiet, ?_⟩
    rw [quiet]
    exact hs

theorem always_of_holds {I : Session V → Prop} (hf : ∀ p, NeutralStep U (f p) (f p))
    (hI : ∀ E s, Backed E → Holds U E s → I s) (hs : Holds U 0 s) : Always f I s :=
  fun _ hl stop steps => (performAll_neutral (watched_in hf hI hl) stop steps 0 Backed.zero s hs).1

theorem holds_nothing (engine : V.source.State) (prompt : Bool) (pools : U.Pools 0)
    (good : U.Good 0 engine) : Holds U 0 ({ engine, prompt } : Session V) where
  held :=
    { sound := fun p pool hp => absurd hp (by simp)
      absent := fun p _ => rfl
      pools := pools
      good := good }
  ordered := List.Pairwise.nil

variable {K : Kept V} {name : String} {x : Object V}

theorem onPool_kept {α : Type} (p : Nat) (act : PoolM V.source α) :
    Acts (fun s => s.kept = K) (fun s => s.kept = K) (onPool p act) (onPool p act)
      fun _ s => s.kept = K := by
  refine Acts.bind (Q := fun s' s => s' = s ∧ s.kept = K) (Alike.keeps fun s hs => ⟨rfl, hs⟩)
    fun s => ?_
  cases s.pools[p]? with
  | none => exact Acts.throw fun _ => And.right
  | some pool =>
    refine Acts.bind (Q := fun _ s => s.kept = K) (Alike.keeps ?_) fun _ => Acts.still
    rintro _ ⟨rfl, hs⟩
    exact hs

theorem Object.drop_kept (x : Object V) :
    Acts (fun s => s.kept = K) (fun s => s.kept = K) x.drop x.drop fun _ s => s.kept = K := by
  cases x with
  | connection p => exact onPool_kept p Pool.leave
  | result p h => exact onPool_kept p (Pool.drop h)
  | handle p h => exact onPool_kept p (Pool.drop h)
  | cursor p c => exact onPool_kept p c.drop
  | row p r => exact onPool_kept p r.drop
  | guard p h => exact onPool_kept p do Pool.endRead h; Pool.drop h
  | rawRow token => exact Acts.still
  | base b => exact Alike.keeps fun _ => id

theorem forget_kept (hx : K.lookup name = some x) :
    Acts (fun s => s.kept = K.filter (·.1 != name)) (fun s => s.kept = K) (forget name)
      (forget name) fun _ s => s.kept = K.filter (·.1 != name) := by
  refine Acts.bind (Q := fun _ s => s.kept = K) (Alike.keeps ?_) fun y => ?_
  · rintro s rfl
    rw [find_run, hx]
    rfl
  · refine Acts.bind (Q := fun _ s => s.kept = K.filter (·.1 != name)) (Alike.keeps ?_)
      fun _ => y.drop_kept
    rintro s rfl
    rfl

theorem dropAll_keeps (hE : Backed E) :
    Keeps (Holds U E) dropAll fun _ s => Holds U E s ∧ s.kept = [] := by
  have all (K : Kept V) : Keeps (fun s => Holds U E s ∧ s.kept = K)
      (K.forM fun e => discard (forget (V := V) e.1).run) fun _ s => Holds U E s ∧ s.kept = [] := by
    induction K with
    | nil => exact Alike.still
    | cons e K ih =>
      refine Alike.bind (q := fun _ s => Holds U E s ∧ s.kept = K) (Alike.discard ?_) fun _ => ih
      intro s ⟨hs, hK⟩
      obtain ⟨filtered, found⟩ := (hK ▸ hs.ordered).uncons
      have kept := (forget_kept found).run.post hK
      rw [filtered] at kept
      exact ⟨rfl, (forget_acts hE e.1).run.post hs, kept⟩
  apply Alike.get_bind
  intro s hs
  refine (all s.kept).weaken ?_ fun _ _ => id
  rintro _ rfl
  exact ⟨hs, rfl⟩

end QueryLease.Session

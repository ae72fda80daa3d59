import Mathlib.Data.String.Basic
import Mathlib.Tactic.Abel
import QueryLease.Proofs.Session.Holding

namespace QueryLease.Session

open Pool

variable {V : Venue} {α β : Type}

def Ordered (K : Kept V) : Prop := K.Pairwise fun e e' => e.1 < e'.1

/-- What is held is what is kept, and `E`. -/
structure Holds (U : Venue.Upkeep V) (E : Holding V) (s : Session V) : Prop where
  held : Held U (Session.held s.kept + E) s
  ordered : Ordered s.kept

structure KeptWith (U : Venue.Upkeep V) (K : Kept V) (E : Holding V) (s : Session V) : Prop where
  kept : s.kept = K
  holds : Holds U E s

def Found (U : Venue.Upkeep V) (E : Holding V) (C : Kept V → Prop) (s : Session V) : Prop :=
  Holds U E s ∧ C s.kept

/-- The two steps are alike, and end in `Q`, or in `F` if they are cut short. -/
def Acts (F P : Session V → Prop) (x y : StepM V α) (Q : α → Session V → Prop) : Prop :=
  Alike P x.run y.run fun outcome s => match outcome with
    | .ok a => Q a s
    | .error _ => F s

variable {U : Venue.Upkeep V} {F P : Session V → Prop} {x y : StepM V α} {f g : α → StepM V β}
  {Q : α → Session V → Prop} {R : β → Session V → Prop} {E : Holding V} {K : Kept V} {p : Nat}
  {s : Session V}

namespace Acts

theorem bind (hx : Acts F P x y Q) (hf : ∀ a, Acts F (Q a) (f a) (g a) R) :
    Acts F P (x >>= f) (y >>= g) R := by
  show Alike P (x.run >>= ExceptT.bindCont f) (y.run >>= ExceptT.bindCont g) _
  refine Alike.bind hx fun outcome => ?_
  cases outcome with
  | ok a => exact hf a
  | error e => exact Alike.still

theorem still {a : α} : Acts F P (pure a) (pure a) fun _ => P := Alike.still

theorem pure {a : α} (h : ∀ s, P s → Q a s) : Acts F P (pure a) (pure a) Q := Alike.of_pure h

theorem throw {e : Interrupt Trouble} (h : ∀ s, P s → F s) : Acts F P (throw e) (throw e) Q :=
  Alike.of_pure h

theorem weaken {F' P' : Session V → Prop} {Q' : α → Session V → Prop} (h : Acts F P x y Q)
    (hP : ∀ s, P' s → P s) (hF : ∀ s, F s → F' s) (hQ : ∀ a s, Q a s → Q' a s) :
    Acts F' P' x y Q' := by
  refine Alike.weaken h hP fun outcome s hs => ?_
  cases outcome with
  | ok a => exact hQ a s hs
  | error e => exact hF s hs

theorem run {R : Session V → Prop} (h : Acts R P x y fun _ => R) :
    Alike P x.run y.run fun _ => R := by
  refine Alike.weaken h (fun _ => id) fun outcome s hs => ?_
  cases outcome with
  | ok a => exact hs
  | error e => exact hs

theorem assume {p : Prop} (h : p → Acts F P x y Q) : Acts F (fun s => p ∧ P s) x y Q :=
  fun s hs => h hs.1 s hs.2

theorem pre {P' : Session V → Prop} (h : Acts F P x y Q) (hP : ∀ s, P' s → P s) :
    Acts F P' x y Q := h.weaken hP (fun _ => id) fun _ _ => id

theorem at_kept {C : Kept V → Prop}
    (h : ∀ K, Ordered K → C K → Acts F (KeptWith U K E) x y Q) :
    Acts F (Found U E C) x y Q :=
  fun s hs => h s.kept hs.1.ordered hs.2 s ⟨rfl, hs.1⟩

end Acts

theorem onPool_acts {x y : PoolM V.source α} {pre : Stake} {post : α → Stake}
    (h : Trades U.toUpkeep pre x y post) (hp : pre ≠ 0) (hE : Pool.Backed (E.1 p)) :
    Acts F (Holds U (E + inPool p pre)) (onPool p x) (onPool p y)
      fun a => Holds U (E + inPool p (post a)) := by
  intro s ⟨hs, ordered⟩
  rw [← add_assoc] at hs
  obtain ⟨same, a, s', run, kept, hs'⟩ := onPool_run h hp ((Backed.held s.kept p).add hE) hs
  refine ⟨same, ?_⟩
  rw [run]
  rw [add_assoc, ← kept] at hs'
  exact ⟨hs', kept ▸ ordered⟩

def Lent (K : Kept V) (p : Nat) (X : Stake) : Prop := ∃ e ∈ K, e.2.holding = inPool p X

theorem Lent.exists_rest {X : Stake} (h : Lent K p X) :
    ∃ Y, Backed Y ∧ held K = Y + inPool p X := by
  obtain ⟨e, he, hX⟩ := h
  obtain ⟨K₁, K₂, rfl⟩ := List.append_of_mem he
  refine ⟨held K₁ + held K₂, (Backed.held K₁).add (Backed.held K₂), ?_⟩
  rw [← hX]
  simp only [held, List.map_append, List.map_cons, List.sum_append, List.sum_cons]
  abel

theorem onPool_lent {x y : PoolM V.source α} {X Z : Stake} {post : α → Stake}
    (hX : Lent K p X) (h : Trades U.toUpkeep (X + Z) x y fun a => X + post a) (h0 : X ≠ 0)
    (hE : Pool.Backed (E.1 p)) :
    Acts F (KeptWith U K (E + inPool p Z)) (onPool p x) (onPool p y)
      fun a => KeptWith U K (E + inPool p (post a)) := by
  obtain ⟨Y, hY, e⟩ := hX.exists_rest
  rintro s ⟨rfl, hs, ordered⟩
  have split (Z : Stake) : held s.kept + (E + inPool p Z) = Y + E + inPool p (X + Z) := by
    rw [e, inPool_add]
    abel
  rw [split] at hs
  obtain ⟨same, a, s', run, kept, hs'⟩ := onPool_run h (add_ne_zero h0 Z) ((hY p).add hE) hs
  refine ⟨same, ?_⟩
  rw [run]
  rw [← split, ← kept] at hs'
  exact ⟨kept, hs', kept ▸ ordered⟩

theorem onPool_borrow {x y : PoolM V.source α} {X : Stake} {post : α → Stake}
    (hX : Lent K p X) (h : Trades U.toUpkeep X x y fun a => X + post a) (h0 : X ≠ 0)
    (hE : Pool.Backed (E.1 p)) :
    Acts F (KeptWith U K E) (onPool p x) (onPool p y)
      fun a => KeptWith U K (E + inPool p (post a)) := by
  have := onPool_lent (F := F) (Z := 0) (E := E) (K := K) hX (by rwa [add_zero]) h0 hE
  rwa [inPool_zero, add_zero] at this

theorem onPool_use {x y : PoolM V.source α} {X : Stake} (hX : Lent K p X)
    (h : Trades U.toUpkeep X x y fun _ => X) (h0 : X ≠ 0) (hE : Pool.Backed (E.1 p)) :
    Acts F (KeptWith U K E) (onPool p x) (onPool p y) fun _ => KeptWith U K E := by
  have gains : Trades U.toUpkeep X x y fun a => X + (fun _ => 0) a := by
    simpa only [add_zero] using h
  have := onPool_borrow (F := F) (E := E) (K := K) hX gains h0 hE
  simpa only [inPool_zero, add_zero] using this

variable {name : String} {x₀ : Object V}

def holding? : Option (Object V) → Holding V
  | none => 0
  | some x => x.holding

theorem held_cons (e : String × Object V) (K : Kept V) : held (e :: K) = e.2.holding + held K := rfl

theorem held_insert (name : String) (x : Object V) (K : Kept V) :
    held (insert name x K).1 + holding? (insert name x K).2 = held K + x.holding := by
  induction K with
  | nil =>
    show x.holding + 0 + 0 = 0 + x.holding
    abel
  | cons e K ih =>
    unfold insert
    split_ifs with hlt heq
    · rw [held_cons, add_comm (held _)]
      exact add_zero _
    · show x.holding + held K + e.2.holding = e.2.holding + held K + x.holding
      abel
    · show e.2.holding + held (insert name x K).1 + _ = e.2.holding + held K + x.holding
      rw [add_assoc, ih, add_assoc]

theorem fst_of_mem_insert {e : String × Object V} {x : Object V} (he : e ∈ (insert name x K).1) :
    e.1 = name ∨ e ∈ K := by
  induction K with
  | nil => exact .inl (by rw [List.mem_singleton.1 he])
  | cons e' K ih =>
    unfold insert at he
    split_ifs at he with hlt heq
    · rcases List.mem_cons.1 he with rfl | he
      · exact .inl rfl
      · exact .inr he
    · rcases List.mem_cons.1 he with rfl | he
      · exact .inl rfl
      · exact .inr (List.mem_cons_of_mem _ he)
    · rcases List.mem_cons.1 he with rfl | he
      · exact .inr List.mem_cons_self
      · exact (ih he).imp_right (List.mem_cons_of_mem _)

theorem Ordered.insert (hK : Ordered K) (name : String) (x : Object V) :
    Ordered (insert name x K).1 := by
  induction K with
  | nil => exact List.pairwise_singleton ..
  | cons e K ih =>
    obtain ⟨he, hK⟩ := List.pairwise_cons.1 hK
    unfold Session.insert
    split_ifs with hlt heq
    · refine List.pairwise_cons.2 ⟨fun e' he' => ?_, List.pairwise_cons.2 ⟨he, hK⟩⟩
      rcases List.mem_cons.1 he' with rfl | he'
      · exact hlt
      · exact hlt.trans (he e' he')
    · exact List.pairwise_cons.2 ⟨fun e' he' => heq ▸ he e' he', hK⟩
    · refine List.pairwise_cons.2 ⟨fun e' he' => ?_, ih hK⟩
      rcases fst_of_mem_insert he' with h | h
      · rw [h]
        exact lt_of_le_of_ne (not_lt.1 hlt) (Ne.symm heq)
      · exact he e' h

theorem lookup_cons (e : String × Object V) (K : Kept V) : (e :: K).lookup name =
    if name = e.1 then some e.2 else K.lookup name := by
  rw [List.lookup_cons]
  by_cases h : name = e.1
  · rw [beq_iff_eq.2 h, if_pos h]
  · rw [beq_eq_false_iff_ne.2 h, if_neg h]

theorem mem_of_lookup {γ : Type} {x : γ} {K : List (String × γ)} (h : K.lookup name = some x) :
    (name, x) ∈ K := by
  obtain ⟨K₁, K₂, rfl, -⟩ := List.lookup_eq_some_iff.1 h
  exact List.mem_append_right K₁ List.mem_cons_self

theorem insert_of_lookup {x : Object V} (hK : Ordered K) (h : K.lookup name = some x₀) :
    (insert name x K).2 = some x₀ := by
  induction K with
  | nil => cases h
  | cons e K ih =>
    obtain ⟨he, hK⟩ := List.pairwise_cons.1 hK
    rw [lookup_cons] at h
    unfold insert
    split_ifs at h with heq
    · rw [if_neg (by rw [heq]; exact lt_irrefl _), if_pos heq]
      exact h
    · have hlt := he _ (mem_of_lookup h)
      rw [if_neg (not_lt_of_gt hlt), if_neg heq]
      exact ih hK h

theorem Ordered.uncons {e : String × Object V} (hK : Ordered (e :: K)) :
    (e :: K).filter (·.1 != e.1) = K ∧ (e :: K).lookup e.1 = some e.2 := by
  obtain ⟨he, hK⟩ := List.pairwise_cons.1 hK
  rw [List.filter_cons_of_neg (by simp), lookup_cons, if_pos rfl]
  exact ⟨List.filter_eq_self.2 fun e' he' => bne_iff_ne.2 (he e' he').ne', rfl⟩

theorem held_filter (hK : Ordered K) (h : K.lookup name = some x₀) :
    held (K.filter (·.1 != name)) + x₀.holding = held K := by
  induction K with
  | nil => cases h
  | cons e K ih =>
    rw [lookup_cons] at h
    split_ifs at h with heq
    · obtain rfl := Option.some.inj h
      rw [heq, hK.uncons.1, held_cons, add_comm]
    · rw [List.filter_cons_of_pos (by simpa using Ne.symm heq), held_cons, held_cons, add_assoc,
        ih hK.of_cons h]

theorem find_eq (name : String) :
    find (V := V) name = get >>= fun s => (s.kept.lookup name).elim bad pure := by
  refine bind_congr fun s => ?_
  cases s.kept.lookup name <;> rfl

theorem find_run (name : String) (s : Session V) :
    (find name).run.run s = ((s.kept.lookup name).elim bad pure : StepM V _).run.run s := by
  rw [find_eq]
  rfl

theorem find_acts (name : String) : Acts (Holds U E) (Holds U E) (find name) (find name)
    fun x => Found U E fun K => K.lookup name = some x := by
  apply Alike.keeps
  intro s hs
  rw [find_run]
  cases h : s.kept.lookup name with
  | none => exact hs
  | some x => exact ⟨hs, h⟩

theorem bad_acts : Acts (Holds U E) (Holds U E) (bad : StepM V α) bad Q :=
  Acts.throw fun _ => id

theorem lent_of_lookup {x : Object V} {X : Stake} (h : K.lookup name = some x)
    (hX : x.holding = inPool p X) : Lent K p X := ⟨_, mem_of_lookup h, hX⟩

theorem connection_acts (name : String) :
    Acts (Holds U E) (Holds U E) (connection name) (connection name)
      fun p => Found U E fun K => Lent K p (one .connection) := by
  refine (find_acts name).bind fun x => ?_
  split
  · exact Acts.pure fun s hs => ⟨hs.1, lent_of_lookup hs.2 rfl⟩
  · exact bad_acts.pre fun _ => And.left

theorem result_acts (name : String) :
    Acts (Holds U E) (Holds U E) (result name) (result name)
      fun x => Found U E fun K => Lent K x.1 (one (.owner x.2)) := by
  refine (find_acts name).bind fun x => ?_
  split
  · exact Acts.pure fun s hs => ⟨hs.1, lent_of_lookup hs.2 rfl⟩
  · exact bad_acts.pre fun _ => And.left

theorem cursor_acts (name : String) :
    Acts (Holds U E) (Holds U E) (cursor name) (cursor name)
      fun x => Found U E fun K => K.lookup name = some (.cursor x.1 x.2) := by
  refine (find_acts name).bind fun x => ?_
  split
  · exact Acts.pure fun s hs => hs
  · exact bad_acts.pre fun _ => And.left

theorem row_acts (name : String) : Acts (Holds U E) (Holds U E) (row name) (row name)
    fun x => Found U E fun K => Lent K x.1 (one (.owner x.2.handle)) := by
  refine (find_acts name).bind fun x => ?_
  split
  · exact Acts.pure fun s hs => ⟨hs.1, lent_of_lookup hs.2 rfl⟩
  · exact bad_acts.pre fun _ => And.left

theorem guard_acts (name : String) : Acts (Holds U E) (Holds U E) (guard name) (guard name)
    fun x => Found U E fun K => Lent K x.1 (one (.owner x.2) + one (.read x.2)) := by
  refine (find_acts name).bind fun x => ?_
  split
  · exact Acts.pure fun s hs => ⟨hs.1, lent_of_lookup hs.2 rfl⟩
  · exact bad_acts.pre fun _ => And.left

theorem owned_acts (name : String) : Acts (Holds U E) (Holds U E) (owned name) (owned name)
    fun x => Found U E fun K => ∃ X : Stake, X (.owner x.2) ≠ 0 ∧ Lent K x.1 X := by
  have reading (h : Nat) : (one (.owner h) + one (.read h)) (.owner h) ≠ 0 :=
    fun h0 => one_self _ (Nat.add_eq_zero_iff.1 h0).1
  refine (find_acts name).bind fun x => ?_
  split
  · exact Acts.pure fun s hs => ⟨hs.1, _, one_self _, lent_of_lookup hs.2 rfl⟩
  · exact Acts.pure fun s hs => ⟨hs.1, _, one_self _, lent_of_lookup hs.2 rfl⟩
  · exact Acts.pure fun s hs => ⟨hs.1, _, reading _, lent_of_lookup hs.2 rfl⟩
  · exact bad_acts.pre fun _ => And.left

theorem base_acts (name : String) : Acts (Holds U E) (Holds U E) (base name) (base name)
    fun b => Found U E fun K => (name, .base b) ∈ K := by
  refine (find_acts name).bind fun x => ?_
  split
  · exact Acts.pure fun s hs => ⟨hs.1, mem_of_lookup hs.2⟩
  · exact bad_acts.pre fun _ => And.left

theorem mem_held_base {b : V.Base} (h : (name, .base b) ∈ K) : b ∈ (held K).2 := by
  induction K with
  | nil => exact absurd h List.not_mem_nil
  | cons e K ih =>
    refine Multiset.mem_add.2 ?_
    rcases List.mem_cons.1 h with rfl | h
    · exact .inl (Multiset.mem_singleton_self b)
    · exact .inr (ih h)

theorem mem_assets_base {b : V.Base} (h : (name, .base b) ∈ K) :
    .base b ∈ s.assets (held K + E) :=
  have here : b ∈ (held K + E).2 := Multiset.mem_add.2 (.inl (mem_held_base h))
  Multiset.mem_add.2 (.inr (Multiset.mem_map_of_mem _ here))

theorem assets_add_base (s : Session V) (X : Holding V) (b : V.Base) :
    s.assets (X + (0, {b})) = .base b ::ₘ s.assets X := by
  show _ + Multiset.map _ (X.2 + {b}) = _
  rw [Multiset.map_add, Multiset.map_singleton, ← add_assoc, add_comm, Multiset.singleton_add]
  rfl

theorem Held.of_fst {X Y : Holding V} {engine : V.source.State} (hs : Held U X s) (h : Y.1 = X.1)
    (good : U.Good (s.assets Y) engine) : Held U Y { s with engine } :=
  ⟨fun p pool hp => h ▸ hs.sound p pool hp, fun p hp => h ▸ hs.absent p hp, hs.pools, good⟩

theorem Holds.gain_base {b : V.Base} {engine : V.source.State} (hs : Holds U E s)
    (good : U.Good (.base b ::ₘ s.assets (Session.held s.kept + E)) engine) :
    Holds U (E + (0, {b})) { s with engine } := by
  refine ⟨?_, hs.ordered⟩
  rw [← assets_add_base, add_assoc] at good
  exact hs.held.of_fst (congrArg ((Session.held s.kept).1 + ·) (add_zero E.1)) good

theorem onEngine_dropBase (b : V.Base) :
    Acts F (Holds U (E + (0, {b}))) (onEngine fun s => ((), V.dropBase b s))
      (onEngine fun s => ((), V.dropBase b s)) fun _ => Holds U E := by
  apply Alike.keeps
  rintro s ⟨hs, ordered⟩
  rw [← add_assoc] at hs
  have good := hs.good
  rw [assets_add_base] at good
  exact ⟨hs.of_fst (add_zero _).symm (U.dropBase good), ordered⟩

theorem onPool_spend {X : Stake} (act : PoolM V.source α) (h0 : X ≠ 0) (hE : Backed E)
    (h : Trades U.toUpkeep X act act fun _ => 0) :
    Acts F (Holds U (E + inPool p X)) (onPool p act) (onPool p act) fun _ => Holds U E := by
  have := onPool_acts (F := F) h h0 (hE p)
  simpa only [inPool_zero, add_zero] using this

theorem Object.drop_acts (hE : Backed E) (x : Object V) :
    Acts F (Holds U (E + x.holding)) x.drop x.drop fun _ => Holds U E := by
  cases x with
  | connection p => exact onPool_spend Pool.leave (one_ne_zero _) hE leave_trades
  | result p h => exact onPool_spend (Pool.drop h) (one_ne_zero _) hE (drop_trades h)
  | handle p h => exact onPool_spend (Pool.drop h) (one_ne_zero _) hE (drop_trades h)
  | cursor p c => exact onPool_spend c.drop (one_ne_zero _) hE (drop_trades c.handle)
  | row p r => exact onPool_spend r.drop (one_ne_zero _) hE (drop_trades r.handle)
  | guard p h =>
    exact onPool_spend (do Pool.endRead h; Pool.drop h) (add_ne_zero (one_ne_zero _) _) hE
      ((endRead_trades h).bind fun _ => drop_trades h)
  | rawRow token => exact Acts.pure fun s hs => by rwa [Object.holding, add_zero] at hs
  | base b => exact onEngine_dropBase b

theorem holding?_acts (hE : Backed E) (old : Option (Object V)) :
    Acts F (Holds U (E + holding? old))
      (do if let some old := old then old.drop) (do if let some old := old then old.drop)
      fun _ => Holds U E := by
  cases old with
  | none => exact Acts.pure fun s hs => by rwa [holding?, add_zero] at hs
  | some old => exact old.drop_acts hE

theorem Held.of_kept {X : Holding V} {K : Kept V} (hs : Held U X s) :
    Held U X { s with kept := K } := ⟨hs.sound, hs.absent, hs.pools, hs.good⟩

theorem Holds.insert {x : Object V} (hs : Holds U (E + x.holding) s) (name : String) :
    Holds U (E + holding? (insert name x s.kept).2)
      { s with kept := (insert name x s.kept).1 } := by
  refine ⟨?_, hs.ordered.insert name x⟩
  have same := held_insert name x s.kept
  have hs := hs.held
  rw [add_left_comm, ← same, add_left_comm] at hs
  exact hs.of_kept

theorem keep_acts (hE : Backed E) (name : String) (x : Object V) :
    Acts F (Holds U (E + x.holding)) (keep name x) (keep name x) fun _ => Holds U E :=
  Alike.keeps fun s hs =>
    (holding?_acts hE (insert name x s.kept).2).post (s := { s with kept := _ }) (hs.insert name)

theorem connect_acts (hE : Backed E) (link : V.source.Link) (mode : Mode) (name : String) :
    Acts F (fun s => Linking U link (Session.held s.kept + E) s ∧ Ordered s.kept)
      (connect link mode name) (connect link mode name) fun _ => Holds U E := by
  refine Acts.bind (Q := fun s' s => s' = s ∧ Linking U link (Session.held s.kept + E) s ∧
    Ordered s.kept) (Alike.keeps fun s hs => ⟨rfl, hs⟩) fun s => ?_
  refine Acts.bind (Q := fun _ => Holds U (E + inPool s.pools.size (one .connection)))
    (Alike.keeps ?_) fun _ => keep_acts hE name (.connection _)
  rintro _ ⟨rfl, hs, ordered⟩
  have pushed := hs.push mode
  rw [add_assoc] at pushed
  exact ⟨pushed, ordered⟩

/-- The object kept under that name has been taken in hand, and will be put back. -/
structure Aside (U : Venue.Upkeep V) (K : Kept V) (name : String) (E : Holding V)
    (s : Session V) : Prop where
  kept : s.kept = K
  held : Held U (Session.held (K.filter (·.1 != name)) + E) s

theorem onPool_move {x y : PoolM V.source α} {x₀ : Object V} {X : Stake} {post : α → Stake}
    (hK : Ordered K) (hx : K.lookup name = some x₀) (hX : x₀.holding = inPool p X)
    (h : Trades U.toUpkeep X x y post) (h0 : X ≠ 0) (hE : Pool.Backed (E.1 p)) :
    Acts F (KeptWith U K E) (onPool p x) (onPool p y)
      fun a => Aside U K name (E + inPool p (post a)) := by
  rintro s ⟨rfl, hs, -⟩
  rw [← held_filter hK hx, hX, add_right_comm] at hs
  obtain ⟨same, a, s', run, kept, hs'⟩ :=
    onPool_run h h0 ((Backed.held (s.kept.filter (·.1 != name)) p).add hE) hs
  refine ⟨same, ?_⟩
  rw [run]
  exact ⟨kept, add_assoc _ E _ ▸ hs'⟩

theorem replace_acts {x x₀ : Object V} (hK : Ordered K) (hx : K.lookup name = some x₀) :
    Acts F (Aside U K name (E + x.holding)) (replace name x) (replace name x)
      fun _ => Holds U E := by
  apply Alike.keeps
  rintro s ⟨rfl, hs⟩
  refine ⟨?_, hK.insert name x⟩
  have same := held_insert name x s.kept
  rw [insert_of_lookup hK hx, holding?, ← held_filter hK hx, add_right_comm] at same
  have same : held (insert name x s.kept).1 = held (s.kept.filter (·.1 != name)) + x.holding :=
    add_right_cancel same
  rw [add_comm E, ← add_assoc, ← same] at hs
  exact hs.of_kept

theorem forget_acts (hE : Backed E) (name : String) :
    Acts (Holds U E) (Holds U E) (forget name) (forget name) fun _ => Holds U E := by
  refine (find_acts name).bind fun x => ?_
  refine Acts.bind (Q := fun _ => Holds U (E + x.holding)) (Alike.keeps ?_) fun _ => x.drop_acts hE
  rintro s ⟨⟨hs, ordered⟩, hx⟩
  refine ⟨?_, ordered.filter _⟩
  rw [← held_filter ordered hx, add_right_comm, add_assoc] at hs
  exact hs.of_kept

end QueryLease.Session

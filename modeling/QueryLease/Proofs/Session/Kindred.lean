import Mathlib.Data.List.Forall2
import QueryLease.Proofs.Pool.KinshipWalks
import QueryLease.Proofs.Session.Acts
import QueryLease.Session.Tables

namespace QueryLease.Session

open Pool

variable {O W α β γ δ : Type} [Preorder W]

inductive Object.Kin (K : Kinship Venue.tables.source O W) (w : W) :
    Object .tables → Object .tables → Prop
  | connection (p : Nat) : Kin K w (.connection p) (.connection p)
  | result (p : Nat) {h k : Nat} : K.twin w h k → Kin K w (.result p h) (.result p k)
  | cursor (p : Nat) {c c' : Cursor Venue.tables.source} : c.Kin K w c' →
    Kin K w (.cursor p c) (.cursor p c')
  | row (p : Nat) {r r' : Row Venue.tables.source} : r.Kin K w r' → Kin K w (.row p r) (.row p r')
  | guard (p : Nat) {h k : Nat} : K.twin w h k → Kin K w (.guard p h) (.guard p k)
  | handle (p : Nat) {h k : Nat} : K.twin w h k → Kin K w (.handle p h) (.handle p k)
  | rawRow (token : Venue.tables.source.Row) : Kin K w (.rawRow token) (.rawRow token)

def Named (K : Kinship Venue.tables.source O W) (w : W) (a b : String × Object .tables) : Prop :=
  a.1 = b.1 ∧ a.2.Kin K w b.2

/-- Sessions with one pool each, which are kin, and with objects to match. -/
structure Kin (K : Kinship Venue.tables.source O W) (o : O) (w : W) (s t : Session .tables) :
    Prop where
  pools : ∃ p q, s.pools = #[p] ∧ t.pools = #[q] ∧ K.rel o w ⟨p, s.engine⟩ ⟨q, t.engine⟩
  kept : List.Forall₂ (Named K w) s.kept t.kept

/-- Steps that are akin. They fail alike, or both answer as said. -/
def Kindred (K : Kinship Venue.tables.source O W) (w : W) (x : StepM .tables α)
    (y : StepM .tables β) (A : W → α → β → Prop) : Prop := Akin (Kin K) w x.run y.run (Both A)

variable {K : Kinship Venue.tables.source O W} {v w : W} {x : StepM .tables α} {y : StepM .tables β}
  {A : W → α → β → Prop} {B : W → γ → δ → Prop}

theorem Object.Kin.mono {a b : Object .tables} (h : a.Kin K v b) (hv : v ≤ w) : a.Kin K w b := by
  cases h with
  | connection p => exact .connection p
  | result p ht => exact .result p (K.twin_mono hv ht)
  | cursor p hc => exact .cursor p (hc.mono hv)
  | row p hr => exact .row p (hr.mono hv)
  | guard p ht => exact .guard p (K.twin_mono hv ht)
  | handle p ht => exact .handle p (K.twin_mono hv ht)
  | rawRow token => exact .rawRow token

theorem Named.mono {a b : String × Object .tables} (h : Named K v a b) (hv : v ≤ w) :
    Named K w a b := ⟨h.1, h.2.mono hv⟩

theorem kept_mono {as bs : List (String × Object .tables)} (h : List.Forall₂ (Named K v) as bs)
    (hv : v ≤ w) : List.Forall₂ (Named K w) as bs := h.imp fun _ _ h => h.mono hv

theorem onPool_none {V : Venue} {s : Session V} {p : Nat} (hp : s.pools[p]? = none)
    (x : PoolM V.source α) : (onPool p x).run.run s = (.error (.failed .badStep), s) := by
  rw [onPool_eq]
  show StateT.run (ExceptT.run (s.pools[p]?.elim bad _)) s = _
  rw [hp]
  rfl

namespace Kindred

theorem pure {a : α} {b : β} (h : A w a b) : Kindred K w (Pure.pure a) (Pure.pure b) A :=
  Akin.pure (A := Both A) h

theorem throw {i : Interrupt Trouble} :
    Kindred K w (throw i : StepM .tables α) (throw i : StepM .tables β) A :=
  Akin.pure (A := Both A) rfl

theorem bind {f : α → StepM .tables γ} {g : β → StepM .tables δ} (hx : Kindred K w x y A)
    (hf : ∀ v a b, w ≤ v → A v a b → Kindred K v (f a) (g b) B) :
    Kindred K w (x >>= f) (y >>= g) B := by
  refine (Akin.bind hx ?_ : Akin (Kin K) w (x.run >>= ExceptT.bindCont f)
    (y.run >>= ExceptT.bindCont g) (Both B))
  intro v a b hv both
  match a, b, both with
  | .ok a, .ok b, ha => exact hf v a b hv ha
  | .error e, .error _, rfl => exact Akin.pure (A := Both B) rfl

theorem mono {A' : W → α → β → Prop} (hx : Kindred K w x y A)
    (h : ∀ v a b, w ≤ v → A v a b → A' v a b) : Kindred K w x y A' := by
  refine Akin.mono hx fun v a b hv both => ?_
  match a, b, both with
  | .ok a, .ok b, ha => exact h v a b hv ha
  | .error e, .error _, rfl => exact rfl

theorem ignore (hx : Kindred K w x y A) : Kindred K w x y fun _ _ _ => True :=
  hx.mono fun _ _ _ _ _ => trivial

theorem get_bind {f : Session .tables → StepM .tables α} {g : Session .tables → StepM .tables β}
    (h : ∀ o s t, Kin K o w s t → Kindred K w (f s) (g t) A) :
    Kindred K w (get >>= f) (get >>= g) A := fun o s t r => h o s t r o s t r

theorem onPool (p : Nat) {x : PoolM Venue.tables.source α} {y : PoolM Venue.tables.source β}
    (hx : Akin K.rel w x y A) :
    Kindred K w (Session.onPool p x) (Session.onPool p y) A := by
  rintro o s t ⟨⟨q, q', hs, ht, related⟩, kept⟩
  cases p with
  | zero =>
    have left : s.pools[0]? = some q := by rw [hs]; rfl
    have right : t.pools[0]? = some q' := by rw [ht]; rfl
    rw [onPool_some left, onPool_some right]
    obtain ⟨v, hv, r, ha⟩ := hx o _ _ related
    refine ⟨v, hv, ⟨⟨_, _, by rw [hs]; rfl, by rw [ht]; rfl, ?_⟩, kept_mono kept hv⟩, ha⟩
    exact K.settle_left _ (K.settle_right _ r)
  | succ p =>
    have left : s.pools[p + 1]? = none := by rw [hs]; rfl
    have right : t.pools[p + 1]? = none := by rw [ht]; rfl
    rw [onPool_none left, onPool_none right]
    exact ⟨w, le_rfl, ⟨⟨q, q', hs, ht, related⟩, kept⟩, rfl⟩

end Kindred

variable {as bs : List (String × Object .tables)} {a b : Object .tables} {name : String}

theorem lookup_kin (h : List.Forall₂ (Named K w) as bs) (name : String) :
    Option.Rel (Object.Kin K w) (as.lookup name) (bs.lookup name) := by
  induction h with
  | nil => exact .none
  | cons hab _ ih =>
    rw [lookup_cons, lookup_cons, ← hab.1]
    split_ifs
    · exact .some hab.2
    · exact ih

theorem insert_kin (h : List.Forall₂ (Named K w) as bs) (name : String) (hx : a.Kin K w b) :
    List.Forall₂ (Named K w) (insert name a as).1 (insert name b bs).1 ∧
      Option.Rel (Object.Kin K w) (insert name a as).2 (insert name b bs).2 := by
  induction h with
  | nil => exact ⟨.cons ⟨rfl, hx⟩ .nil, .none⟩
  | @cons e e' as bs hab rest ih =>
    obtain ⟨n, x⟩ := e
    obtain ⟨_, y⟩ := e'
    obtain ⟨rfl, hxy⟩ : n = _ ∧ x.Kin K w y := hab
    unfold insert
    split_ifs with hlt heq
    · exact ⟨.cons ⟨rfl, hx⟩ (.cons ⟨rfl, hxy⟩ rest), .none⟩
    · exact ⟨.cons ⟨rfl, hx⟩ rest, .some hxy⟩
    · exact ⟨.cons ⟨rfl, hxy⟩ ih.1, ih.2⟩

theorem filter_kin (h : List.Forall₂ (Named K w) as bs) (name : String) :
    List.Forall₂ (Named K w) (as.filter (·.1 != name)) (bs.filter (·.1 != name)) := by
  induction h with
  | nil => exact .nil
  | cons hab _ ih =>
    rw [List.filter_cons, List.filter_cons, ← hab.1]
    split_ifs
    · exact .cons hab ih
    · exact ih

def Twins (K : Kinship Venue.tables.source O W) (w : W) (x y : Nat × Nat) : Prop :=
  x.1 = y.1 ∧ K.twin w x.2 y.2

def Looked (K : Kinship Venue.tables.source O W) (w : W) (p q : Pool Venue.tables.source) : Prop :=
  ∃ o d e, K.rel o w d e ∧ d.pool = p ∧ e.pool = q

theorem keep_run {V : Venue} (name : String) (x : Object V) (s : Session V) :
    (keep name x).run.run s = ((insert name x s.kept).2.elim (pure ()) Object.drop).run.run
      { s with kept := (insert name x s.kept).1 } := by
  have got (f : Session V → StepM V Unit) : (get >>= f).run.run s = (f s).run.run s := rfl
  have put (s' : Session V) (y : StepM V Unit) :
      (set s' >>= fun _ => y).run.run s = y.run.run s' := rfl
  rw [keep, got, put]
  cases (insert name x s.kept).2 <;> rfl

namespace Kindred

theorem bad : Kindred K w (Session.bad : StepM .tables α) (Session.bad : StepM .tables β) A := throw

theorem fail (e : Error) :
    Kindred K w (Session.fail e : StepM .tables α) (Session.fail e : StepM .tables β) A := throw

theorem ofExcept {x : Except Error α} {y : Except Error β} (h : Both A w x y) :
    Kindred K w (Session.ofExcept x) (Session.ofExcept y) A := by
  match x, y, h with
  | .ok a, .ok b, h => exact pure h
  | .error e, .error _, rfl => exact fail e

theorem ofExcept_same (x : Except Error α) :
    Kindred K w (Session.ofExcept x) (Session.ofExcept x) Same := by
  cases x with
  | ok a => exact pure rfl
  | error e => exact fail e

theorem find (name : String) :
    Kindred K w (Session.find name) (Session.find name) (Object.Kin K) := by
  rw [find_eq]
  refine get_bind fun o s t r => ?_
  match s.kept.lookup name, t.kept.lookup name, lookup_kin r.kept name with
  | none, none, _ => exact bad
  | some x, some y, .some h => exact pure h

theorem drop (h : a.Kin K w b) : Kindred K w a.drop b.drop fun _ _ _ => True := by
  cases h with
  | connection p => exact (onPool p K.leave).ignore
  | result p ht => exact (onPool p (K.drop ht)).ignore
  | cursor p hc => exact (onPool p (K.drop hc.handle)).ignore
  | row p hr => exact (onPool p (K.drop hr.handle)).ignore
  | guard p ht =>
    exact (onPool p ((K.endRead ht).bind fun _ _ _ hv _ => K.drop (K.twin_mono hv ht))).ignore
  | handle p ht => exact (onPool p (K.drop ht)).ignore
  | rawRow token => exact pure trivial

theorem drop? {x y : Option (Object .tables)} (h : Option.Rel (Object.Kin K w) x y) :
    Kindred K w (x.elim (Pure.pure ()) Object.drop) (y.elim (Pure.pure ()) Object.drop)
      fun _ _ _ => True := by
  match x, y, h with
  | none, none, _ => exact pure trivial
  | some x, some y, .some h => exact drop h

theorem keep (name : String) (h : a.Kin K w b) :
    Kindred K w (Session.keep name a) (Session.keep name b) fun _ _ _ => True := by
  intro o s t r
  obtain ⟨kept, old⟩ := insert_kin r.kept name h
  have dropped := drop? old o { s with kept := (insert name a s.kept).1 }
    { t with kept := (insert name b t.kept).1 } ⟨r.pools, kept⟩
  rw [keep_run, keep_run]
  exact dropped

theorem replace (name : String) (h : a.Kin K w b) :
    Kindred K w (Session.replace name a) (Session.replace name b) fun _ _ _ => True :=
  Akin.still fun _ _ _ r => ⟨⟨r.pools, (insert_kin r.kept name h).1⟩, trivial⟩

theorem forget (name : String) :
    Kindred K w (Session.forget name) (Session.forget name) fun _ _ _ => True := by
  refine (find name).bind fun v x y _ h => ?_
  refine bind (A := fun _ _ _ => True) (Akin.still fun _ _ _ r => ?_) fun v _ _ hv _ => ?_
  · exact ⟨⟨r.pools, filter_kin r.kept name⟩, trivial⟩
  · exact drop (h.mono hv)

theorem connection (name : String) :
    Kindred K w (Session.connection name) (Session.connection name) Same := by
  refine (find name).bind fun v x y _ h => ?_
  cases h with
  | connection p => exact pure rfl
  | _ => exact bad

theorem result (name : String) :
    Kindred K w (Session.result name) (Session.result name) (Twins K) := by
  refine (find name).bind fun v x y _ h => ?_
  cases h with
  | result p ht => exact pure ⟨rfl, ht⟩
  | _ => exact bad

theorem cursor (name : String) : Kindred K w (Session.cursor name) (Session.cursor name)
    fun w x y => x.1 = y.1 ∧ x.2.Kin K w y.2 := by
  refine (find name).bind fun v x y _ h => ?_
  cases h with
  | cursor p hc => exact pure ⟨rfl, hc⟩
  | _ => exact bad

theorem row (name : String) : Kindred K w (Session.row name) (Session.row name)
    fun w x y => x.1 = y.1 ∧ x.2.Kin K w y.2 := by
  refine (find name).bind fun v x y _ h => ?_
  cases h with
  | row p hr => exact pure ⟨rfl, hr⟩
  | _ => exact bad

theorem guard (name : String) :
    Kindred K w (Session.guard name) (Session.guard name) (Twins K) := by
  refine (find name).bind fun v x y _ h => ?_
  cases h with
  | guard p ht => exact pure ⟨rfl, ht⟩
  | _ => exact bad

theorem owned (name : String) :
    Kindred K w (Session.owned name) (Session.owned name) (Twins K) := by
  refine (find name).bind fun v x y _ h => ?_
  cases h with
  | result p ht => exact pure ⟨rfl, ht⟩
  | guard p ht => exact pure ⟨rfl, ht⟩
  | handle p ht => exact pure ⟨rfl, ht⟩
  | _ => exact bad

theorem rawRow (r : RawRow) :
    Kindred K w (Session.rawRow (V := .tables) r) (Session.rawRow r) Same := by
  cases r with
  | numbered n => exact pure rfl
  | kept name =>
    refine (find name).bind fun v x y _ h => ?_
    cases h with
    | rawRow token => exact pure rfl
    | _ => exact bad

theorem pool (p : Nat) : Kindred K w (Session.pool p) (Session.pool p) (Looked K) :=
  onPool p (Akin.still fun o d e r => ⟨r, o, d, e, r, rfl, rfl⟩)

end Kindred

end QueryLease.Session

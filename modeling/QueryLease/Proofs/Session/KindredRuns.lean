import QueryLease.Proofs.Session.Agreement
import QueryLease.Proofs.Session.KindredMoves
import QueryLease.Proofs.Session.Weave

namespace QueryLease.Session

open Pool

variable {O W α β γ δ : Type} [Preorder W] {K : Kinship Venue.tables.source O W} {v w : W}
  {A : W → α → β → Prop} {B : W → γ → δ → Prop}

def Woven (K : Kinship Venue.tables.source O W) (w : W) (x : Weave .tables α)
    (y : Weave .tables β) (A : W → α → β → Prop) : Prop :=
  Strand.Akin (Kin K) (Both A) x.run w y.run

namespace Woven

variable {x : Weave .tables α} {y : Weave .tables β}

theorem pure {a : α} {b : β} (h : A w a b) : Woven K w (Pure.pure a) (Pure.pure b) A := h

theorem throw {i : Interrupt Trouble} :
    Woven K w (throw i : Weave .tables α) (throw i : Weave .tables β) A := rfl

theorem bind {f : α → Weave .tables γ} {g : β → Weave .tables δ} (hx : Woven K w x y A)
    (hf : ∀ v a b, w ≤ v → A v a b → Woven K v (f a) (g b) B) :
    Woven K w (x >>= f) (y >>= g) B := by
  refine Strand.Akin.bind (x := x.run) hx fun v a b hv both => ?_
  match a, b, both with
  | .ok a, .ok b, ha => exact hf v a b hv ha
  | .error e, .error _, rfl => exact rfl

theorem piece {x : StepM .tables α} {y : StepM .tables β} (h : Kindred K w x y A) :
    Woven K w (Weave.piece x) (Weave.piece y) A := Strand.Akin.whole h

theorem onPool (p : Nat) {x : PoolM Venue.tables.source α} {y : PoolM Venue.tables.source β}
    (hx : Akin K.rel w x y A) : Woven K w (Weave.onPool p x) (Weave.onPool p y) A :=
  piece (Kindred.onPool p hx)

theorem lift {x : Strand (Session .tables) α} {y : Strand (Session .tables) β}
    (h : x.Akin (Kin K) A w y) : Woven K w (liftM x) (liftM y) A :=
  Strand.Akin.bind h fun _ _ _ _ ha => ha

def lifted (K : Kinship Venue.tables.source O W) (p : Nat) :
    K.Lifted (Weave .tables) (Weave .tables) (Weave.onPool p) (Weave.onPool p) where
  rel := Woven K
  pure := pure
  bind := bind
  lift := onPool p

end Woven

variable {P : Type} {L : W → Likeness P} {steps : List (Step P)}

def Ran (L : W → Likeness P) (steps : List (Step P)) (w : W)
    (a b : List (Record Answer) × Except (Interrupt Trouble) Unit) : Prop :=
  Agree (L w) steps a.1 b.1 ∧ a.2 = b.2

omit [Preorder W] in
theorem Ran.mono {a b : List (Record Answer) × Except (Interrupt Trouble) Unit}
    (h : Ran L steps v a b) (hL : (L v).Le (L w)) : Ran L steps w a b :=
  ⟨Agree.mono hL steps h.1, h.2⟩

def RanAt (L : W → Likeness P) (steps : List (Step P)) (w : W)
    (a b : Cell × List (Record Answer) × Except (Interrupt Trouble) Unit) : Prop :=
  a.1 = b.1 ∧ Ran L steps w a.2 b.2

section Inside

variable (mono : ∀ {v w}, v ≤ w → (L v).Le (L w)) {inside : Weaving .tables}
  (hi : ∀ v, inside.Akin (Kin K) (Ran L steps) v inside)

include mono hi

theorem lookAt_woven (p : Nat) {r r' : Row Venue.tables.source} (hr : r.Kin K w r') (column : Nat) :
    Woven K w (Weave.lookAt p r column inside) (Weave.lookAt p r' column inside)
      (Both (RanAt L steps)) := by
  refine (Woven.onPool p (Row.checkColumn_akin hr column)).bind fun v checked _ hv same => ?_
  obtain rfl := same
  cases checked with
  | error e => exact Woven.pure rfl
  | ok =>
    refine Row.withCell_akin (Woven.lifted K p) (hr.mono hv) column ?_ fun u cell hu => ?_
    · exact fun v u a b hv h => ⟨h.1, h.2.mono (mono hv)⟩
    · exact (Woven.lift (hi u)).bind fun _ _ _ _ ran => Woven.pure ⟨rfl, ran⟩

theorem withRaw_woven (name : String) (column : Nat) :
    Woven K w (Weave.withRaw name column inside) (Weave.withRaw name column inside)
      fun w => (Step.withRaw name column steps).Agree (L w) := by
  refine (Woven.piece (Kindred.row name)).bind ?_
  rintro v ⟨p, r⟩ ⟨_, r'⟩ hv ⟨rfl, hr⟩
  refine (Woven.onPool p (Row.clone_akin hr)).bind fun v₂ r r' hv₂ hr => ?_
  refine (lookAt_woven mono hi p hr column).bind
    fun v₃ looked looked' hv₃ both => ?_
  refine (Woven.onPool p (K.drop (hr.mono hv₃).handle)).bind fun v₄ _ _ hv₄ _ => ?_
  have both : Both (RanAt L steps) v₄ looked looked' :=
    both.imp fun _ _ ran => ⟨ran.1, ran.2.mono (mono hv₄)⟩
  refine (Woven.piece (Kindred.ofExcept both)).bind ?_
  rintro v₅ ⟨cell, records, ended⟩ ⟨_, records', _⟩ - ⟨rfl, agree, rfl⟩
  match ended with
  | .error .panicked => exact Woven.pure ⟨true, cell, records, records', rfl, rfl, agree⟩
  | .error (.failed t) => exact Woven.pure ⟨false, cell, records, records', rfl, rfl, agree⟩
  | .ok () => exact Woven.pure ⟨false, cell, records, records', rfl, rfl, agree⟩

theorem forEach_woven (x name : String) (stop : Bool) :
    Woven K w (Weave.forEach x name inside) (Weave.forEach x name inside)
      fun w => (Step.forEach x name steps stop).Agree (L w) := by
  refine (Woven.piece (Kindred.result x)).bind ?_
  rintro v ⟨p, h⟩ ⟨_, k⟩ hv ⟨rfl, ht⟩
  refine (Woven.onPool p (K.retain ht)).bind fun v₂ _ _ hv₂ _ => ?_
  have ht := K.twin_mono hv₂ ht
  refine Woven.bind (fold_akin (Woven.lifted K p) _ (A := fun w => List.Forall₂ (Agree (L w) steps))
    (fun v u a b hu visits => visits.imp fun _ _ => Agree.mono (mono hu) steps) ?_ ht .nil) ?_
  · intro v visits visits' r r' agree hr
    refine (Woven.onPool p (Row.clone_akin hr)).bind fun v₁ r r' hv₁ hr => ?_
    refine (Woven.piece (Kindred.keep name (.row p hr))).bind fun v₂ _ _ hv₂ _ => ?_
    refine (Woven.lift (hi v₂)).bind ?_
    rintro v₃ ⟨records, ended⟩ ⟨records', _⟩ hv₃ ⟨now, rfl⟩
    have agree := agree.imp fun _ _ => Agree.mono (mono (hv₁.trans (hv₂.trans hv₃))) steps
    exact Woven.pure ⟨.cons now agree, rfl⟩
  · rintro v₃ ⟨visits, ended⟩ ⟨visits', _⟩ hv₃ ⟨agree, rfl⟩
    refine (Woven.onPool p (K.drop (K.twin_mono hv₃ ht))).bind fun v₄ _ _ hv₄ _ => ?_
    have agree := agree.imp fun _ _ => Agree.mono (mono hv₄) steps
    exact Woven.pure ⟨_, _, _, rfl, rfl, List.forall₂_reverse_iff.2 agree⟩

omit mono in
theorem rounds_woven (n : Nat) {last last' : List (Record Answer)}
    (hl : Agree (L w) steps last last') :
    Woven K w (Weave.rounds inside n last) (Weave.rounds inside n last')
      fun w => Agree (L w) steps := by
  induction n generalizing w last last' with
  | zero => exact Woven.pure hl
  | succ n ih =>
    refine (Woven.lift (hi w)).bind ?_
    rintro v ⟨records, ended⟩ ⟨records', _⟩ _ ⟨agree, rfl⟩
    match ended with
    | .ok () => exact ih agree
    | .error i => exact Woven.throw

end Inside

/-- In sessions that are kin, the allowed steps and the snapshots are alike. -/
structure Likened (K : Kinship Venue.tables.source O W) (L : W → Likeness P)
    (f : P → StepM .tables Answer) (allowed : Move → Bool) (allowed' : P → Bool) : Prop where
  mono {v w : W} : v ≤ w → (L v).Le (L w)
  move (m : Move) : allowed m → ∀ w,
    Kindred K w (m.perform (V := .tables)) m.perform fun w => (L w).move m
  peculiar (p : P) : allowed' p → ∀ w, Kindred K w (f p) (f p) fun w => (L w).peculiar p
  seen (w : W) : Akin (Kin K) w (snapshot (V := .tables)) snapshot fun w => (L w).seen

variable {f : P → StepM .tables Answer} {allowed : Move → Bool} {allowed' : P → Bool}

mutual

theorem Step.weave_woven (likened : Likened K L f allowed allowed') :
    ∀ (step : Step P), step.within allowed allowed' → ∀ w,
      Woven K w (step.weave f) (step.weave f) fun w => step.Agree (L w)
  | .move m => fun h w => Woven.piece (likened.move m h w)
  | .peculiar p => fun h w => Woven.piece (likened.peculiar p h w)
  | .withRaw name column inside => fun h _ =>
    withRaw_woven likened.mono (weaveAll_woven likened false inside h) name column
  | .forEach x name inside stop => fun h _ =>
    forEach_woven likened.mono (weaveAll_woven likened stop inside h) x name stop
  | .rounds n inside => fun h _ =>
    (rounds_woven (weaveAll_woven likened false inside h) n (Agree.nil inside)).bind
      fun _ _ _ _ agree => Woven.pure ⟨_, _, rfl, rfl, agree⟩
  | .panic => fun _ _ => Woven.throw
  | .malformed => fun _ _ => Woven.piece Kindred.bad

theorem weaveAll_woven (likened : Likened K L f allowed allowed') (stop : Bool) :
    ∀ (steps : List (Step P)), allWithin allowed allowed' steps → ∀ w,
      (weaveAll f stop steps).Akin (Kin K) (Ran L steps) w (weaveAll f stop steps)
  | [] => fun _ _ => ⟨trivial, rfl⟩
  | step :: rest => fun h w => by
    obtain ⟨first, later⟩ := Bool.and_eq_true_iff.1 h
    refine Strand.Akin.bind (Step.weave_woven likened step first w) fun v x y _ both => ?_
    match x, y, both with
    | .error .panicked, .error _, rfl => exact ⟨Agree.nil _, rfl⟩
    | .error (.failed t), .error _, rfl =>
      refine Strand.Akin.bind (Strand.Akin.whole (likened.seen v)) fun v₂ s s' _ seen => ?_
      cases stop with
      | true => exact ⟨⟨rfl, seen, Agree.nil rest⟩, rfl⟩
      | false =>
        refine Strand.Akin.bind (weaveAll_woven likened false rest later v₂) ?_
        rintro v₃ ⟨records, ended⟩ ⟨records', _⟩ hv₃ ⟨agree, rfl⟩
        exact ⟨⟨rfl, (likened.mono hv₃).seen seen, agree⟩, rfl⟩
    | .ok a, .ok b, ha =>
      refine Strand.Akin.bind (Strand.Akin.whole (likened.seen v)) fun v₂ s s' hv₂ seen => ?_
      refine Strand.Akin.bind (weaveAll_woven likened stop rest later v₂) ?_
      rintro v₃ ⟨records, ended⟩ ⟨records', _⟩ hv₃ ⟨agree, rfl⟩
      have answered := Step.Agree.mono (likened.mono (hv₂.trans hv₃)) step ha
      exact ⟨⟨answered, (likened.mono hv₃).seen seen, agree⟩, rfl⟩

end

theorem dropAll_akin : Akin (Kin K) w dropAll dropAll fun _ _ _ => True := by
  have all {w : W} {as bs : List (String × Object .tables)} (h : List.Forall₂ (Named K w) as bs) :
      Akin (Kin K) w (as.forM fun e => discard (forget (V := .tables) e.1).run)
        (bs.forM fun e => discard (forget (V := .tables) e.1).run) fun _ _ _ => True := by
    induction as generalizing w bs with
    | nil =>
      cases h
      exact Akin.pure trivial
    | cons a as ih =>
      obtain ⟨b, bs, hab, rest, rfl⟩ := List.forall₂_cons_left_iff.1 h
      have first : Akin (Kin K) w (discard (forget (V := .tables) a.1).run)
          (discard (forget (V := .tables) b.1).run) fun _ _ _ => True := by
        rw [← hab.1]
        exact Akin.discard (Kindred.forget a.1)
      exact Akin.bind first fun v _ _ hv _ => ih (kept_mono rest hv)
  exact Akin.get_bind fun o s t r => all r.kept

theorem weaveRun_akin (likened : Likened K L f allowed allowed') {steps : List (Step P)}
    (h : allWithin allowed allowed' steps) (w : W) :
    (weaveRun f steps).Akin (Kin K)
      (fun w a b => Agree (L w) steps a.1 b.1 ∧ (L w).seen a.2 b.2) w (weaveRun f steps) := by
  refine Strand.Akin.bind (weaveAll_woven likened false steps h w) ?_
  rintro v₁ ⟨records, ended⟩ ⟨records', _⟩ _ ⟨agree, rfl⟩
  refine Strand.Akin.bind (Strand.Akin.whole dropAll_akin) fun v₂ _ _ hv₂ _ => ?_
  refine Strand.Akin.bind (Strand.Akin.whole (likened.seen v₂)) fun v₃ _ _ hv₃ seen => ?_
  exact ⟨agree.mono (likened.mono (hv₂.trans hv₃)) steps, seen⟩

end QueryLease.Session

import Mathlib.Order.Basic
import QueryLease.Proofs.Strand

/-! Two runs side by side. The states of both are related in a world, which only grows: it is what
has come to light so far about how the two belong together. Others have a share in the states that
an action leaves as it is. Actions that are akin keep the states related, whatever the others'
share, and their answers are as said in the world that they have come to. -/

namespace QueryLease

variable {O W σ τ α β γ δ ε : Type}

def Same (_ : W) (a b : α) : Prop := a = b

def Outcomes (A : α → β → Prop) : Except ε α → Except ε β → Prop
  | .ok a, .ok b => A a b
  | .error e, .error e' => e = e'
  | _, _ => False

theorem Outcomes.imp {A B : α → β → Prop} {x : Except ε α} {y : Except ε β} (h : Outcomes A x y)
    (hAB : ∀ a b, A a b → B a b) : Outcomes B x y := by
  cases x with
  | error e =>
    cases y with
    | error e' => exact h
    | ok b => exact h.elim
  | ok a =>
    cases y with
    | error e' => exact h.elim
    | ok b => exact hAB a b h

theorem Outcomes.refl {A : α → α → Prop} (h : ∀ a, A a a) (x : Except ε α) : Outcomes A x x := by
  cases x with
  | error e => exact rfl
  | ok a => exact h a

def Both (A : W → α → β → Prop) (w : W) : Except ε α → Except ε β → Prop := Outcomes (A w)

variable [Preorder W]

def Akin (R : O → W → σ → τ → Prop) (w : W) (x : StateM σ α) (y : StateM τ β)
    (A : W → α → β → Prop) : Prop :=
  ∀ o s t, R o w s t → ∃ v, w ≤ v ∧ R o v (x.run s).2 (y.run t).2 ∧ A v (x.run s).1 (y.run t).1

namespace Akin

variable {R : O → W → σ → τ → Prop} {w : W} {x : StateM σ α} {y : StateM τ β}
  {A : W → α → β → Prop} {B : W → γ → δ → Prop}

theorem still
    (h : ∀ o s t, R o w s t → R o w (x.run s).2 (y.run t).2 ∧ A w (x.run s).1 (y.run t).1) :
    Akin R w x y A := fun o s t r => ⟨w, le_rfl, h o s t r⟩

theorem pure {a : α} {b : β} (h : A w a b) : Akin R w (Pure.pure a) (Pure.pure b) A :=
  still fun _ _ _ r => ⟨r, h⟩

theorem bind {f : α → StateM σ γ} {g : β → StateM τ δ} (hx : Akin R w x y A)
    (hf : ∀ v a b, w ≤ v → A v a b → Akin R v (f a) (g b) B) :
    Akin R w (x >>= f) (y >>= g) B := by
  intro o s t r
  obtain ⟨v, hv, r', ha⟩ := hx o s t r
  obtain ⟨u, hu, r'', hb⟩ := hf v _ _ hv ha o _ _ r'
  exact ⟨u, hv.trans hu, r'', hb⟩

theorem mono {A' : W → α → β → Prop} (hx : Akin R w x y A)
    (h : ∀ v a b, w ≤ v → A v a b → A' v a b) :
    Akin R w x y A' := by
  intro o s t r
  obtain ⟨v, hv, r', ha⟩ := hx o s t r
  exact ⟨v, hv, r', h v _ _ hv ha⟩

theorem discard (hx : Akin R w x y A) : Akin R w (discard x) (discard y) fun _ _ _ => True := by
  intro o s t r
  obtain ⟨v, hv, r', -⟩ := hx o s t r
  exact ⟨v, hv, r', trivial⟩

theorem get_bind {f : σ → StateM σ α} {g : τ → StateM τ β}
    (h : ∀ o s t, R o w s t → Akin R w (f s) (g t) A) : Akin R w (get >>= f) (get >>= g) A :=
  fun o s t r => h o s t r o s t r

end Akin

namespace Strand

/-- Two strands whose pieces are akin one by one, whatever the others' share is before each. -/
def Akin (R : O → W → σ → τ → Prop) (A : W → α → β → Prop) : Strand σ α → W → Strand τ β → Prop
  | done a, w, done b => A w a b
  | act next rest, w, act next' rest' => ∀ o s t, R o w s t →
    ∃ v, w ≤ v ∧ R o v (next s) (next' t) ∧ (rest s).Akin R A v (rest' t)
  | _, _, _ => False

variable {R : O → W → σ → τ → Prop} {A : W → α → β → Prop} {B : W → γ → δ → Prop} {w : W}
  {x : Strand σ α} {y : Strand τ β}

theorem Akin.whole {x : StateM σ α} {y : StateM τ β} (h : QueryLease.Akin R w x y A) :
    (Strand.whole x).Akin R A w (Strand.whole y) := h

theorem Akin.bind {f : α → Strand σ γ} {g : β → Strand τ δ} (hx : x.Akin R A w y)
    (hf : ∀ v a b, w ≤ v → A v a b → (f a).Akin R B v (g b)) :
    (x >>= f).Akin R B w (y >>= g) := by
  induction x generalizing w y with
  | done a =>
    cases y with
    | done b => exact hf w a b le_rfl hx
    | act next' rest' => exact hx.elim
  | act next rest ih =>
    cases y with
    | done b => exact hx.elim
    | act next' rest' =>
      intro o s t r
      obtain ⟨v, hv, r', akin⟩ := hx o s t r
      exact ⟨v, hv, r', ih s akin fun u a b hu => hf u a b (hv.trans hu)⟩

theorem Akin.step (h : x.Akin R A w y) {o : O} {s : σ} {t : τ} (r : R o w s t) :
    ∃ v, w ≤ v ∧ R o v (Strand.step (x, s)).2 (Strand.step (y, t)).2 ∧
      (Strand.step (x, s)).1.Akin R A v (Strand.step (y, t)).1 := by
  match x, y, h with
  | done a, done b, h => exact ⟨w, le_rfl, r, h⟩
  | act next rest, act next' rest', h => exact h o s t r

theorem Akin.done_iff (h : x.Akin R A w y) : (∃ a, x = done a) ↔ ∃ b, y = done b := by
  match x, y, h with
  | done a, done b, _ => exact ⟨fun _ => ⟨b, rfl⟩, fun _ => ⟨a, rfl⟩⟩
  | act _ _, act _ _, _ => exact ⟨nofun, nofun⟩

theorem Akin.amid (h : x.Akin R A w y) {others : List (τ → τ)}
    (ho : ∀ other ∈ others, ∀ o w s t, R o w s t → R o w s (other t)) {o : O} {s : σ} {t : τ}
    (r : R o w s t) : ∃ v, w ≤ v ∧ R o v (x.run s).2 (y.amid others t).2 ∧
      A v (x.run s).1 (y.amid others t).1 := by
  induction x generalizing w y others s t with
  | done a =>
    cases y with
    | done b => exact ⟨w, le_rfl, r, h⟩
    | act next' rest' => exact h.elim
  | act next rest ih =>
    cases y with
    | done b => exact h.elim
    | act next' rest' =>
      have kept : R o w s (others.headD id t) := by
        cases others with
        | nil => exact r
        | cons other others => exact ho other List.mem_cons_self o w s t r
      obtain ⟨v, hv, r', akin⟩ := h o s _ kept
      obtain ⟨u, hu, done⟩ := ih s akin (fun other h => ho other (List.mem_of_mem_tail h)) r'
      exact ⟨u, hv.trans hu, done⟩

end Strand

end QueryLease

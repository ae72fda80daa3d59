import Mathlib.Logic.Function.Iterate
import QueryLease.Proofs.Alike

/-! Stateful actions in pieces. A strand is a chain of pieces, each of which acts at once, and
others may act before every one of them. Left alone it is an action like any other. -/

namespace QueryLease

inductive Strand (σ α : Type) where
  | done (a : α)
  | act (next : σ → σ) (rest : σ → Strand σ α)

namespace Strand

variable {σ α β : Type}

def bind : Strand σ α → (α → Strand σ β) → Strand σ β
  | done a, f => f a
  | act next rest, f => act next fun s => (rest s).bind f

instance : Monad (Strand σ) where
  pure := done
  bind := bind

def whole (x : StateM σ α) : Strand σ α := act (fun s => (x.run s).2) fun s => done (x.run s).1

/-- What comes of it when others act before each piece, as long as they have something to do. -/
def amid : Strand σ α → List (σ → σ) → σ → α × σ
  | done a, _, s => (a, s)
  | act next rest, others, s =>
    let s := others.headD id s
    (rest s).amid others.tail (next s)

def run (x : Strand σ α) : StateM σ α := x.amid []

@[simp] theorem run_whole (x : StateM σ α) : (whole x).run = x := rfl

theorem run_bind (x : Strand σ α) (f : α → Strand σ β) :
    (x >>= f).run = x.run >>= fun a => (f a).run := by
  induction x with
  | done a => rfl
  | act next rest ih =>
    funext s
    exact congrFun (ih s) (next s)

def step : Strand σ α × σ → Strand σ α × σ
  | (done a, s) => (done a, s)
  | (act next rest, s) => (rest s, next s)

def pieces : Strand σ α → σ → Nat
  | done _, _ => 0
  | act next rest, s => (rest s).pieces (next s) + 1

theorem run_step (x : Strand σ α) (s : σ) : (step (x, s)).1.run (step (x, s)).2 = x.run s := by
  cases x <;> rfl

theorem iterate_step_done {x : Strand σ α} {s : σ} {n : Nat} {a : α}
    (h : (step^[n] (x, s)).1 = done a) : x.run s = (a, (step^[n] (x, s)).2) := by
  have same : (step^[n] (x, s)).1.run (step^[n] (x, s)).2 = x.run s := by
    clear h
    induction n with
    | zero => rfl
    | succ n ih => rw [Function.iterate_succ_apply', ← ih, run_step]
  rw [← same, h]
  rfl

theorem done_of_pieces {x : Strand σ α} {s : σ} {n : Nat} (h : x.pieces s ≤ n) :
    ∃ a, (step^[n] (x, s)).1 = done a := by
  induction n generalizing x s with
  | zero =>
    cases x with
    | done a => exact ⟨a, rfl⟩
    | act next rest => exact absurd h (Nat.not_succ_le_zero _)
  | succ n ih =>
    cases x with
    | done a => exact ih (Nat.zero_le n)
    | act next rest => exact ih (Nat.le_of_succ_le_succ h)

/-- Whatever others do that keeps `P`, every piece keeps it too, and the answer is as said. -/
def Safe (P : σ → Prop) (Q : α → Prop) : Strand σ α → Prop
  | done a => Q a
  | act next rest => ∀ s, P s → P (next s) ∧ (rest s).Safe P Q

variable {P : σ → Prop} {Q : α → Prop} {R : β → Prop} {x : Strand σ α} {f : α → Strand σ β}

theorem Safe.whole {y : StateM σ α} (h : ∀ s, P s → P (y.run s).2 ∧ Q (y.run s).1) :
    Safe P Q (Strand.whole y) := h

theorem Safe.bind (hx : Safe P Q x) (hf : ∀ a, Q a → Safe P R (f a)) : Safe P R (x >>= f) := by
  induction x with
  | done a => exact hf a hx
  | act next rest ih => exact fun s hs => ⟨(hx s hs).1, ih s (hx s hs).2⟩

theorem Safe.amid (hx : Safe P Q x) {others : List (σ → σ)}
    (ho : ∀ other ∈ others, ∀ s, P s → P (other s)) {s : σ} (hs : P s) :
    Q (x.amid others s).1 := by
  induction x generalizing others s with
  | done a => exact hx
  | act next rest ih =>
    have kept : P (others.headD id s) := by
      cases others with
      | nil => exact hs
      | cons other others => exact ho other List.mem_cons_self s hs
    exact ih _ (hx _ kept).2 (fun other h => ho other (List.mem_of_mem_tail h)) (hx _ kept).1

/-- Whatever others do before each piece, of what they may do, this is how it comes out. -/
def Ends (may : (σ → σ) → Prop) (Q : α → σ → Prop) : Strand σ α → σ → Prop
  | done a, s => Q a s
  | act next rest, s => ∀ other, may other → (rest (other s)).Ends may Q (next (other s))

def Meets (may : (σ → σ) → Prop) (P : σ → Prop) (x : Strand σ α) (Q : α → σ → Prop) : Prop :=
  ∀ s, P s → x.Ends may Q s

section

variable {may : (σ → σ) → Prop} {Q : α → σ → Prop} {R : β → σ → Prop} {s : σ}

theorem Ends.imp {Q' : α → σ → Prop} (h : x.Ends may Q s) (imp : ∀ a s, Q a s → Q' a s) :
    x.Ends may Q' s := by
  induction x generalizing s with
  | done a => exact imp a s h
  | act next rest ih => exact fun other ho => ih _ (h other ho)

theorem Ends.bind (h : x.Ends may (fun a => (f a).Ends may R) s) : (x >>= f).Ends may R s := by
  induction x generalizing s with
  | done a => exact h
  | act next rest ih => exact fun other ho => ih _ (h other ho)

theorem Ends.amid (h : x.Ends may Q s) (idle : may id) {others : List (σ → σ)}
    (ho : ∀ other ∈ others, may other) : Q (x.amid others s).1 (x.amid others s).2 := by
  induction x generalizing others s with
  | done a => exact h
  | act next rest ih =>
    have first : may (others.headD id) := by
      cases others with
      | nil => exact idle
      | cons other others => exact ho other List.mem_cons_self
    exact ih _ (h _ first) fun other h => ho other (List.mem_of_mem_tail h)

namespace Meets

theorem pure {a : α} (h : ∀ s, P s → Q a s) : Meets may P (Pure.pure a) Q := h

theorem bind (hx : Meets may P x Q) (hf : ∀ a, Meets may (Q a) (f a) R) :
    Meets may P (x >>= f) R := fun s hs => ((hx s hs).imp hf).bind

theorem whole {y : StateM σ α} (kept : ∀ other, may other → ∀ s, P s → P (other s))
    (hy : Keeps P y Q) : Meets may P (Strand.whole y) Q :=
  fun s hs other ho => hy.post (kept other ho s hs)

theorem assume {p : Prop} (h : p → Meets may P x Q) : Meets may (fun s => p ∧ P s) x Q :=
  fun s hs => h hs.1 s hs.2

theorem lift {ρ : Type} {g : α → StateT ρ (Strand σ) β} {kept : ρ} {T : β × ρ → σ → Prop}
    (hx : Meets may P x Q) (hg : ∀ a, Meets may (Q a) ((g a).run kept) T) :
    Meets may P ((StateT.lift x >>= g).run kept) T := by
  have lifted : Meets may P ((StateT.lift x : StateT ρ (Strand σ) α).run kept)
      fun p s => p.2 = kept ∧ Q p.1 s := hx.bind fun a => .pure fun s hs => ⟨rfl, hs⟩
  refine lifted.bind fun p => .assume ?_
  rintro rfl
  exact hg p.1

end Meets

end

end Strand

end QueryLease

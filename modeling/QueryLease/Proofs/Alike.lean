import QueryLease.Error

/-! Stateful actions that act alike wherever a condition holds, and what holds once they have acted.
An action that is alike itself keeps what it is said to keep. -/

namespace QueryLease

variable {σ α β : Type} {P Q : σ → Prop}

def Alike (P : σ → Prop) (x y : StateM σ α) (Q : α → σ → Prop) : Prop :=
  ∀ s, P s → x.run s = y.run s ∧ Q (x.run s).1 (x.run s).2

abbrev Keeps (P : σ → Prop) (x : StateM σ α) (Q : α → σ → Prop) : Prop := Alike P x x Q

namespace Alike

variable {x y : StateM σ α} {f g : α → StateM σ β} {q : α → σ → Prop} {r : β → σ → Prop}

theorem keeps (h : ∀ s, P s → q (x.run s).1 (x.run s).2) : Keeps P x q := fun s hs => ⟨rfl, h s hs⟩

theorem post (h : Alike P x y q) {s : σ} (hs : P s) : q (x.run s).1 (x.run s).2 := (h s hs).2

theorem weaken {P' : σ → Prop} {q' : α → σ → Prop} (h : Alike P x y q) (hP : ∀ s, P' s → P s)
    (hq : ∀ a s, q a s → q' a s) : Alike P' x y q' :=
  fun s hs => ⟨(h s (hP s hs)).1, hq _ _ (h s (hP s hs)).2⟩

theorem assume {p : Prop} (h : p → Alike P x y q) : Alike (fun s => p ∧ P s) x y q :=
  fun s hs => h hs.1 s hs.2

theorem bind (hx : Alike P x y q) (hf : ∀ a, Alike (q a) (f a) (g a) r) :
    Alike P (x >>= f) (y >>= g) r := by
  intro s hs
  obtain ⟨same, hq⟩ := hx s hs
  obtain ⟨same', hr⟩ := hf _ _ hq
  refine ⟨?_, hr⟩
  rw [StateT.run_bind, StateT.run_bind, ← same]
  exact same'

theorem discard {r : σ → Prop} (h : Alike P x y fun _ => r) :
    Alike P (discard x) (discard y) fun _ => r := by
  intro s hs
  obtain ⟨same, hr⟩ := h s hs
  refine ⟨?_, hr⟩
  show (PUnit.unit, (x.run s).2) = (PUnit.unit, (y.run s).2)
  rw [same]

theorem get_bind {f g : σ → StateM σ β} (h : ∀ s, P s → Alike (· = s) (f s) (g s) r) :
    Alike P (get >>= f) (get >>= g) r := fun s hs => h s hs s rfl

theorem of_eq {s : σ} (same : x.run s = y.run s) (h : q (x.run s).1 (x.run s).2) :
    Alike (· = s) x y q := by
  rintro _ rfl
  exact ⟨same, h⟩

theorem of_pure {a : α} (h : ∀ s, P s → q a s) : Keeps P (pure a) q := keeps h

theorem still {a : α} : Keeps P (pure a) fun _ => P := of_pure fun _ => id

theorem of_modify {f : σ → σ} {r : Unit → σ → Prop} (h : ∀ s, P s → r () (f s)) :
    Keeps P (modify f) r := keeps h

end Alike

end QueryLease

import Mathlib.Algebra.Group.Defs
import Mathlib.Data.List.Forall2
import QueryLease.Proofs.Akin
import QueryLease.Session.Run

namespace QueryLease.Session

/-- When answers and snapshots are alike. -/
structure Likeness (P : Type) where
  move : Move → Answer → Answer → Prop
  peculiar : P → Answer → Answer → Prop
  seen : Snapshot → Snapshot → Prop

variable {P : Type} {L L' : Likeness P}

structure Likeness.Le (L L' : Likeness P) : Prop where
  move {m : Move} {a b : Answer} : L.move m a b → L'.move m a b
  peculiar {p : P} {a b : Answer} : L.peculiar p a b → L'.peculiar p a b
  seen {s t : Snapshot} : L.seen s t → L'.seen s t

mutual

def Step.Agree (L : Likeness P) : Step P → Answer → Answer → Prop
  | .move m => L.move m
  | .peculiar p => L.peculiar p
  | .withRaw _ _ inside => fun a b => ∃ panicked cell rs rs', a = .looked panicked cell rs ∧
    b = .looked panicked cell rs' ∧ Agree L inside rs rs'
  | .forEach _ _ inside _ => fun a b => ∃ visits visits' ending, a = .visited visits ending ∧
    b = .visited visits' ending ∧ List.Forall₂ (Agree L inside) visits visits'
  | .rounds _ inside => fun a b => ∃ rs rs', a = .records rs ∧ b = .records rs' ∧
    Agree L inside rs rs'
  | .panic | .malformed => fun _ _ => False

/-- Runs that were cut short have no records of the steps that were left. -/
def Agree (L : Likeness P) : List (Step P) → List (Record Answer) → List (Record Answer) → Prop
  | _, [], [] => True
  | step :: rest, r :: rs, r' :: rs' =>
    Outcomes (step.Agree L) r.outcome r'.outcome ∧ L.seen r.snapshot r'.snapshot ∧
      Agree L rest rs rs'
  | _, _, _ => False

end

theorem Agree.nil (steps : List (Step P)) : Agree L steps [] [] := by
  cases steps <;> exact trivial

mutual

theorem Step.Agree.mono (h : L.Le L') :
    ∀ (step : Step P) {a b : Answer}, step.Agree L a b → step.Agree L' a b
  | .move _, _, _, hab => h.move hab
  | .peculiar _, _, _, hab => h.peculiar hab
  | .withRaw _ _ inside, _, _, ⟨panicked, cell, rs, rs', ha, hb, records⟩ =>
    ⟨panicked, cell, rs, rs', ha, hb, Agree.mono h inside records⟩
  | .forEach _ _ inside _, _, _, ⟨visits, visits', ending, ha, hb, records⟩ =>
    ⟨visits, visits', ending, ha, hb, records.imp fun _ _ => Agree.mono h inside⟩
  | .rounds _ inside, _, _, ⟨rs, rs', ha, hb, records⟩ =>
    ⟨rs, rs', ha, hb, Agree.mono h inside records⟩

theorem Agree.mono (h : L.Le L') : ∀ (steps : List (Step P)) {rs rs' : List (Record Answer)},
    Agree L steps rs rs' → Agree L' steps rs rs'
  | [], [], [], _ => trivial
  | _ :: _, [], [], _ => trivial
  | step :: rest, _ :: _, _ :: _, ⟨outcome, snapshot, later⟩ =>
    ⟨outcome.imp fun _ _ => Step.Agree.mono h step, h.seen snapshot, Agree.mono h rest later⟩

end

section Tally

variable {M : Type} [AddZeroClass M]

mutual

def Step.tally (tell : Except Trouble Answer → M) : Step P → Answer → M
  | .withRaw _ _ inside, .looked _ _ rs => tally tell inside rs
  | .forEach _ _ inside _, .visited visits _ => (visits.map (tally tell inside)).sum
  | .rounds _ inside, .records rs => tally tell inside rs
  | _, _ => 0

def tally (tell : Except Trouble Answer → M) : List (Step P) → List (Record Answer) → M
  | step :: rest, r :: rs =>
    tell r.outcome + r.outcome.toOption.elim 0 (step.tally tell) + tally tell rest rs
  | _, _ => 0

end

def Impartial (L : Likeness P) (tell : Except Trouble Answer → M) : Prop :=
  ∀ (step : Step P) {a b : Answer}, step.Agree L a b → tell (.ok a) = tell (.ok b)

variable {tell : Except Trouble Answer → M}

mutual

theorem Step.tally_eq (hc : Impartial L tell) : ∀ (step : Step P) {a b : Answer},
    step.Agree L a b → step.tally tell a = step.tally tell b
  | .move _, _, _, _ => by simp only [Step.tally]
  | .peculiar _, _, _, _ => by simp only [Step.tally]
  | .withRaw _ _ inside, _, _, ⟨_, _, rs, rs', rfl, rfl, records⟩ => by
    rw [Step.tally, Step.tally, tally_eq hc inside records]
  | .forEach _ _ inside _, _, _, ⟨visits, visits', _, rfl, rfl, records⟩ => by
    have same : visits.map (tally tell inside) = visits'.map (tally tell inside) := by
      induction records with
      | nil => rfl
      | cons agree _ ih => exact congrArg₂ List.cons (tally_eq hc inside agree) ih
    rw [Step.tally, Step.tally, same]
  | .rounds _ inside, _, _, ⟨rs, rs', rfl, rfl, records⟩ => by
    rw [Step.tally, Step.tally, tally_eq hc inside records]

theorem tally_eq (hc : Impartial L tell) :
    ∀ (steps : List (Step P)) {rs rs' : List (Record Answer)},
      Agree L steps rs rs' → tally tell steps rs = tally tell steps rs'
  | [], [], [], _ => rfl
  | _ :: _, [], [], _ => rfl
  | step :: rest, ⟨outcome, _⟩ :: _, ⟨outcome', _⟩ :: _, ⟨same, _, later⟩ => by
    rw [tally, tally, tally_eq hc rest later]
    match outcome, outcome', same with
    | .error e, .error _, rfl => rfl
    | .ok a, .ok b, agree =>
      show _ + step.tally tell a + _ = _ + step.tally tell b + _
      rw [hc step agree, Step.tally_eq hc step agree]

end

end Tally

mutual

def Step.within (move : Move → Bool) (peculiar : P → Bool) : Step P → Bool
  | .move m => move m
  | .peculiar p => peculiar p
  | .withRaw _ _ inside | .forEach _ _ inside _ | .rounds _ inside => allWithin move peculiar inside
  | .panic | .malformed => true

def allWithin (move : Move → Bool) (peculiar : P → Bool) : List (Step P) → Bool
  | [] => true
  | step :: rest => step.within move peculiar && allWithin move peculiar rest

end

mutual

theorem Step.within_all : ∀ step : Step P, step.within (fun _ => true) fun _ => true
  | .move _ | .peculiar _ | .panic | .malformed => rfl
  | .withRaw _ _ inside | .forEach _ _ inside _ | .rounds _ inside => allWithin_all inside

theorem allWithin_all : ∀ steps : List (Step P), allWithin (fun _ => true) (fun _ => true) steps
  | [] => rfl
  | step :: rest => Bool.and_eq_true_iff.2 ⟨Step.within_all step, allWithin_all rest⟩

end

end QueryLease.Session

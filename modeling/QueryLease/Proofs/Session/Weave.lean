import Mathlib.Logic.Basic
import QueryLease.Proofs.Pool.Echo
import QueryLease.Proofs.Strand
import QueryLease.Session.Run

/-! Runs in pieces, for others to act in between. A move is one piece, and so is a snapshot; a step
that runs others has pieces of its own before, between and after them. Left alone, a run in pieces
is a run. -/

namespace QueryLease

variable {V : Session.Venue} {P α β σ ε : Type}

abbrev Weave (V : Session.Venue) := ExceptT (Interrupt Session.Trouble) (Strand (Session V))

namespace Session

abbrev Weaving (V : Venue) :=
  Strand (Session V) (List (Record Answer) × Except (Interrupt Trouble) Unit)

end Session

namespace Weave

open Session

def alone (x : Weave V α) : StepM V α := ExceptT.mk (Strand.run x.run)

def piece (x : StepM V α) : Weave V α := ExceptT.mk (Strand.whole x.run)

def onPool (p : Nat) {α : Type} (act : PoolM V.source α) : Weave V α := piece (Session.onPool p act)

theorem alone_bind (x : Weave V α) (f : α → Weave V β) :
    (x >>= f).alone = x.alone >>= fun a => (f a).alone := by
  have cont (outcome : Except (Interrupt Trouble) α) :
      (ExceptT.bindCont f outcome).run = ExceptT.bindCont (fun a => (f a).alone) outcome := by
    cases outcome <;> rfl
  show (x.run >>= ExceptT.bindCont f).run = x.run.run >>= ExceptT.bindCont fun a => (f a).alone
  rw [Strand.run_bind, funext cont]

theorem alone_lift (x : Strand (Session V) α) : (liftM x : Weave V α).alone = liftM x.run :=
  Strand.run_bind x fun a => (pure (Except.ok a) : Strand _ (Except (Interrupt Trouble) α))

def lookAt (p : Nat) (r : Row V.source) (column : Nat) (inside : Weaving V) :
    Weave V (Except Error (Cell × List (Record Answer) × Except (Interrupt Trouble) Unit)) := do
  match ← onPool p (r.checkColumn column) with
  | .error e => return .error e
  | .ok () => r.withCell (onPool p) column fun cell => return (cell, ← inside)

def withRaw (w : String) (column : Nat) (inside : Weaving V) : Weave V Answer := do
  let (p, r) ← piece (row w)
  let r ← onPool p r.clone
  let looked ← lookAt p r column inside
  onPool p r.drop
  let (cell, records, ended) ← piece (ofExcept looked)
  match ended with
  | .error .panicked => return .looked true cell records
  | _ => return .looked false cell records

def forEach (x name : String) (inside : Weaving V) : Weave V Answer := do
  let (p, h) ← piece (result x)
  onPool p (Pool.retain h)
  let (visits, ended) ← Pool.fold (onPool p) (fun e => .failed (.failed e)) h [] fun visits r => do
    piece (keep name (.row p (← onPool p r.clone)))
    let (records, ended) ← inside
    return (records :: visits, ended)
  onPool p (Pool.drop h)
  return .visited visits.reverse (.ofExcept ended)

def rounds (inside : Weaving V) : Nat → List (Record Answer) → Weave V (List (Record Answer))
  | 0, last => return last
  | n + 1, _ => do
    let (records, ended) ← inside
    match ended with
    | .ok () => rounds inside n records
    | .error i => throw i

end Weave

namespace Session

mutual

def Step.weave (peculiar : P → StepM V Answer) : Step P → Weave V Answer
  | .move m => Weave.piece m.perform
  | .peculiar p => Weave.piece (peculiar p)
  | .withRaw w column inside => Weave.withRaw w column (weaveAll peculiar false inside)
  | .forEach x name inside stop => Weave.forEach x name (weaveAll peculiar stop inside)
  | .rounds n inside => .records <$> Weave.rounds (weaveAll peculiar false inside) n []
  | .panic => throw .panicked
  | .malformed => Weave.piece bad

def weaveAll (peculiar : P → StepM V Answer) (stop : Bool) : List (Step P) → Weaving V
  | [] => return ([], .ok ())
  | step :: rest => do
    match ← (step.weave peculiar).run with
    | .error .panicked => return ([], .error .panicked)
    | .error (.failed t) =>
      let record := { outcome := .error t, snapshot := ← Strand.whole snapshot }
      if stop then return ([record], .error (.failed t))
      let (records, ended) ← weaveAll peculiar stop rest
      return (record :: records, ended)
    | .ok a =>
      let record := { outcome := .ok a, snapshot := ← Strand.whole snapshot }
      let (records, ended) ← weaveAll peculiar stop rest
      return (record :: records, ended)

end

end Session

namespace Weave

open Session

variable {inside : Weaving V}

def echo (p : Nat) : Pool.Echo (S := V.source) (onPool p) (Session.onPool p) where
  rel x y := x.alone = y
  pure _ := rfl
  bind hx hf := (alone_bind _ _).trans (congrArg₂ _ hx (funext hf))
  lift _ := rfl

theorem alone_lookAt (p : Nat) (r : Row V.source) (column : Nat) :
    (lookAt p r column inside).alone = Session.lookAt p r column inside.run := by
  refine (alone_bind _ _).trans (bind_congr fun checked => ?_)
  cases checked with
  | error e => rfl
  | ok =>
    refine Row.withCell_echo (echo p) r column fun cell => ?_
    refine (alone_bind _ _).trans ?_
    rw [alone_lift]
    rfl

theorem alone_withRaw (w : String) (column : Nat) :
    (withRaw w column inside).alone = Session.withRaw w column inside.run := by
  refine (alone_bind _ _).trans (bind_congr fun found => ?_)
  refine (alone_bind _ _).trans (bind_congr fun r => ?_)
  refine (alone_bind _ _).trans ?_
  rw [alone_lookAt]
  refine bind_congr fun looked => (alone_bind _ _).trans (bind_congr fun _ => ?_)
  refine (alone_bind _ _).trans (bind_congr fun ended => ?_)
  obtain ⟨cell, records, ended⟩ := ended
  match ended with
  | .error .panicked => rfl
  | .error (.failed t) => rfl
  | .ok () => rfl

theorem alone_forEach (x name : String) :
    (forEach x name inside).alone = Session.forEach x name inside.run := by
  refine (alone_bind _ _).trans (bind_congr fun found => ?_)
  refine (alone_bind _ _).trans (bind_congr fun _ => ?_)
  refine (alone_bind _ _).trans ?_
  refine congrArg₂ (· >>= ·) ?_ (funext fun walked => alone_bind _ _)
  refine Pool.fold_echo (echo found.1) _ (fun visits r => ?_) found.2 []
  refine (alone_bind _ _).trans (bind_congr fun r => ?_)
  refine (alone_bind _ _).trans (bind_congr fun _ => ?_)
  refine (alone_bind _ _).trans ?_
  rw [alone_lift]
  rfl

theorem alone_rounds (n : Nat) (last : List (Record Answer)) :
    (rounds inside n last).alone = Session.rounds inside.run n last := by
  induction n generalizing last with
  | zero => rfl
  | succ n ih =>
    refine (alone_bind _ _).trans ?_
    rw [alone_lift]
    refine bind_congr fun ran => ?_
    obtain ⟨records, ended⟩ := ran
    match ended with
    | .ok () => exact ih records
    | .error i => rfl

end Weave

namespace Session

mutual

theorem Step.alone_weave (f : P → StepM V Answer) :
    ∀ step : Step P, (step.weave f).alone = step.perform f
  | .move m => rfl
  | .peculiar p => rfl
  | .withRaw w column inside => by
    rw [Step.weave, Weave.alone_withRaw, run_weaveAll f false inside, Step.perform]
  | .forEach x name inside stop => by
    rw [Step.weave, Weave.alone_forEach, run_weaveAll f stop inside, Step.perform]
  | .rounds n inside => by
    rw [Step.weave, Step.perform, ← run_weaveAll f false inside, ← Weave.alone_rounds]
    exact Weave.alone_bind _ _
  | .panic => rfl
  | .malformed => rfl

theorem run_weaveAll (f : P → StepM V Answer) (stop : Bool) :
    ∀ steps : List (Step P), (weaveAll f stop steps).run = performAll f stop steps
  | [] => rfl
  | step :: rest => by
    have later := run_weaveAll f stop rest
    have first : (step.weave f).run.run = (step.perform f).run := Step.alone_weave f step
    rw [weaveAll, performAll, Strand.run_bind, first]
    refine bind_congr fun outcome => ?_
    match outcome with
    | .error .panicked => rfl
    | .error (.failed t) =>
      refine (Strand.run_bind _ _).trans (bind_congr fun snapshot => ?_)
      cases stop with
      | true => rfl
      | false => exact (Strand.run_bind _ _).trans (by rw [later]; rfl)
    | .ok a =>
      refine (Strand.run_bind _ _).trans (bind_congr fun snapshot => ?_)
      exact (Strand.run_bind _ _).trans (by rw [later]; rfl)

end

def weaveRun (peculiar : P → StepM V Answer) (steps : List (Step P)) :
    Strand (Session V) (List (Record Answer) × Snapshot) := do
  let (records, _) ← weaveAll peculiar false steps
  Strand.whole dropAll
  return (records, ← Strand.whole snapshot)

theorem run_weaveRun (f : P → StepM V Answer) (steps : List (Step P)) (s : Session V) :
    (weaveRun f steps).run s = (run f steps s,
      (snapshot.run (dropAll.run ((performAll f false steps).run s).2).2).2) := by
  rw [weaveRun, Strand.run_bind, run_weaveAll]
  rfl

end Session

end QueryLease

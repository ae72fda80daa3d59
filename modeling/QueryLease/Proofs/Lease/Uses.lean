import QueryLease.Proofs.Lease.Packing

namespace QueryLease.Lease

inductive Use where
  | acquire
  | endRead
  | request
  deriving DecidableEq

def Stage.rank : Stage → Nat
  | opened => 0
  | closing => 1
  | closed => 2

def Use.apply : Use → Lease → Lease
  | acquire, l =>
    match l.acquire with
    | .ok l => l
    | .error _ => l
  | endRead, l => l.endRead
  | request, l => l.request.2

/-- Only a read that is in flight ends, and an open lease has room for the reads it counts. -/
def Use.Allowed : Use → Lease → Prop
  | acquire, l => l.stage = .opened → l.reads ≠ 2 ^ 62 - 1
  | endRead, l => l.reads ≠ 0
  | request, _ => True

def after (l : Lease) (uses : List Use) : Lease := uses.foldl (fun l use => use.apply l) l

def Allowed : Lease → List Use → Prop
  | _, [] => True
  | l, use :: uses => use.Allowed l ∧ (use.apply l).Allowed uses

instance (use : Use) (l : Lease) : Decidable (use.Allowed l) :=
  match use with
  | .acquire => inferInstanceAs (Decidable (l.stage = .opened → l.reads ≠ 2 ^ 62 - 1))
  | .endRead => inferInstanceAs (Decidable (l.reads ≠ 0))
  | .request => .isTrue trivial

instance decidableAllowed : (l : Lease) → (uses : List Use) → Decidable (l.Allowed uses)
  | _, [] => .isTrue trivial
  | l, use :: uses =>
    have := decidableAllowed (use.apply l) uses
    inferInstanceAs (Decidable (use.Allowed l ∧ (use.apply l).Allowed uses))

variable {l : Lease} {use : Use} {uses more : List Use}

theorem stage_eq_opened : l.stage = .opened ↔ l.requested = false := by
  unfold stage
  cases l.requested with
  | false => simp
  | true => by_cases h0 : l.reads = 0 <;> simp [h0]

theorem stage_eq_closing : l.stage = .closing ↔ l.requested = true ∧ 0 < l.reads := by
  unfold stage
  cases l.requested with
  | false => simp
  | true => by_cases h0 : l.reads = 0 <;> simp [h0, Nat.pos_iff_ne_zero]

theorem stage_eq_closed : l.stage = .closed ↔ l.requested = true ∧ l.reads = 0 := by
  unfold stage
  cases l.requested <;> simp

theorem ne_closed (opened : l.requested = false) : l.stage ≠ .closed := by
  rw [stage_eq_opened.2 opened]
  nofun

theorem acquire_opened (opened : l.requested = false) :
    l.acquire = .ok { l with reads := l.reads + 1 } := by
  rw [acquire, stage_eq_opened.2 opened]

theorem acquire_requested (requested : l.requested = true) :
    l.acquire = .error (if l.reads = 0 then .released else .closing) := by
  unfold acquire stage
  rw [requested]
  by_cases h0 : l.reads = 0 <;> simp [h0]

theorem apply_acquire (l : Lease) :
    Use.acquire.apply l = if l.requested then l else { l with reads := l.reads + 1 } := by
  cases requested : l.requested with
  | false => simp [Use.apply, acquire_opened requested, requested]
  | true => simp [Use.apply, acquire_requested requested]

theorem apply_request (l : Lease) : Use.request.apply l = { l with requested := true } := by
  obtain ⟨requested, reads⟩ := l
  cases requested <;> rfl

theorem requested_apply (use : Use) (l : Lease) :
    (use.apply l).requested = (l.requested || use == .request) := by
  cases use with
  | acquire =>
    rw [apply_acquire]
    cases requested : l.requested <;> simp [requested]
  | endRead => exact (Bool.or_false _).symm
  | request =>
    rw [apply_request]
    exact (Bool.or_true _).symm

theorem requested_after (l : Lease) (uses : List Use) :
    (l.after uses).requested = (l.requested || uses.contains .request) := by
  induction uses generalizing l with
  | nil => exact (Bool.or_false _).symm
  | cons use uses ih =>
    show ((use.apply l).after uses).requested = _
    rw [ih, requested_apply, Bool.or_assoc, List.contains_cons, Bool.beq_comm]

theorem after_append (l : Lease) (uses more : List Use) :
    l.after (uses ++ more) = (l.after uses).after more := List.foldl_append

theorem rank_apply (use : Use) (l : Lease) : l.stage.rank ≤ (use.apply l).stage.rank := by
  cases use with
  | acquire =>
    rw [apply_acquire]
    cases requested : l.requested with
    | false => simp [stage_eq_opened.2 requested, Stage.rank]
    | true => simp
  | endRead =>
    unfold Use.apply endRead stage
    cases l.requested with
    | false => simp
    | true =>
      by_cases h0 : l.reads = 0
      · simp [h0]
      · by_cases h1 : l.reads - 1 = 0 <;> simp [h0, h1, Stage.rank]
  | request =>
    rw [apply_request]
    unfold stage
    cases l.requested <;> simp [Stage.rank]

theorem rank_after (l : Lease) (uses : List Use) : l.stage.rank ≤ (l.after uses).stage.rank := by
  induction uses generalizing l with
  | nil => exact Nat.le_refl _
  | cons use uses ih => exact Nat.le_trans (rank_apply use l) (ih _)

end QueryLease.Lease

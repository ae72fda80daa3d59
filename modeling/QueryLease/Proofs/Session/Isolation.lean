import QueryLease.Proofs.Session.Conservation
import QueryLease.Proofs.Session.Crowd
import QueryLease.Proofs.Session.KindredRuns

namespace QueryLease.Session

open Pool

def Report.work : Report → ℕ × ℕ × ℕ
  | .counters c => c.work
  | .calls _ _ => 0

def Move.own : Move → Bool
  | releaseAll _ => false
  | _ => true

namespace Tables

def Move.own : Move → Bool
  | register .. => false
  | _ => true

def apart (w : Placement) : Likeness Move where
  move
    | .query .. => fun a b => ∃ h k columns, w.At h k ∧ a = .opened (number h) columns ∧
      b = .opened (number k) columns
    | .handleInfo _ => fun a b => ∃ i j, Informed w.At i j ∧ a = .handle i ∧ b = .handle j
    | .guardInfo _ => fun a b => ∃ i j, Informed w.At i j ∧ a = .guard i ∧ b = .guard j
    | .collect _ => fun a b => ∃ m n, a = .count m ∧ b = .count n
    | .outline _ => fun a b => ∃ s t, Outlined w.At (fun p q => p.mode = q.mode) s t ∧ a = .text s ∧
      b = .text t
    | _ => Eq
  peculiar
    | .counters _ => fun a b => ∃ c d, a = .counters c ∧ b = .counters d
    | _ => Eq
  seen s t := t.results = s.results

variable {mode : Mode} {bound : List (String × QueryLease.Tables.Bound)} {v w : Placement}

theorem apart_mono (h : v ≤ w) : (apart v).Le (apart w) where
  move {m a b} alike := by
    cases m with
    | query c text name =>
      obtain ⟨i, k, columns, ht, ha, hb⟩ := alike
      exact ⟨i, k, columns, ht.mono h, ha, hb⟩
    | handleInfo x | guardInfo x =>
      obtain ⟨i, j, informed, ha, hb⟩ := alike
      exact ⟨i, j, informed.imp fun ht => ht.mono h, ha, hb⟩
    | outline name =>
      obtain ⟨s, t, outlined, ha, hb⟩ := alike
      exact ⟨s, t, outlined.imp (fun ht => ht.mono h) id, ha, hb⟩
    | _ => exact alike
  peculiar alike := alike
  seen same := same

theorem apart_of_kin (m : Session.Move) {a b : Answer}
    (h : m.Kin (Kinship.apart mode bound) w a b) :
    (apart w).move m a b := by
  cases m with
  | mode c =>
    obtain ⟨_, _, rfl, rfl, rfl⟩ := h
    exact rfl
  | outline name =>
    obtain ⟨s, t, outlined, ha, hb⟩ := h
    refine ⟨s, t, outlined.imp id ?_, ha, hb⟩
    rintro _ _ ⟨o, d, e, r, rfl, rfl⟩
    exact r.mode.trans r.mode'.symm
  | _ => exact h

theorem perform_apart (m : Move) (hm : m.own) (w : Placement) :
    Kindred (Kinship.apart mode bound) w m.perform m.perform fun w => (apart w).peculiar m := by
  cases m with
  | register c text bound => cases hm
  | spin c => exact Kindred.spin c
  | counters c =>
    refine (Kindred.connection c).bind fun v _ _ _ _ => ?_
    exact Kindred.onEngine fun r => ⟨r, _, _, rfl, rfl⟩
  | parallel c text n => exact Kindred.parallel c text n

theorem likened_apart (mode : Mode) (bound : List (String × QueryLease.Tables.Bound)) :
    Likened (Kinship.apart mode bound) apart Move.perform Session.Move.own Move.own where
  mono := apart_mono
  move m hm _ := by
    refine (Kindred.move m ?_).mono fun _ _ _ _ => apart_of_kin m
    rintro c rfl
    cases hm
  peculiar := perform_apart
  seen _ := snapshot_akin fun _ _ => rfl

def told : Except Trouble Answer → ℕ × ℕ
  | .ok (.values _) => (1, 0)
  | .error _ | .ok (.visited _ (.failed _)) => (0, 1)
  | _ => (0, 0)

theorem impartial_told (w : Placement) : Impartial (apart w) told := by
  intro step a b h
  cases step with
  | move m =>
    cases m with
    | query c text name =>
      obtain ⟨_, _, _, _, rfl, rfl⟩ := h
      rfl
    | handleInfo x | guardInfo x | outline name =>
      obtain ⟨_, _, _, rfl, rfl⟩ := h
      rfl
    | collect c =>
      obtain ⟨_, _, rfl, rfl⟩ := h
      rfl
    | _ => exact congrArg (told <| .ok ·) h
  | peculiar p =>
    cases p with
    | counters c =>
      obtain ⟨_, _, rfl, rfl⟩ := h
      rfl
    | _ => exact congrArg (told <| .ok ·) h
  | withRaw row column inside =>
    obtain ⟨_, _, _, _, rfl, rfl, _⟩ := h
    rfl
  | forEach result keep inside stop =>
    obtain ⟨_, _, ending, rfl, rfl, _⟩ := h
    cases ending <;> rfl
  | rounds n inside =>
    obtain ⟨_, _, rfl, rfl, _⟩ := h
    rfl
  | panic | malformed => exact h.elim

variable {ι : Type} [DecidableEq ι] [Fintype ι]

def gathered (mode : Mode) (tables : List (String × QueryLease.Tables.Bound)) (prompt : Bool)
    (more : Nat) (programs : ι → List (Step Move)) : Crowd ι (List (Record Answer) × Snapshot) where
  shared :=
    { pools := #[{ link := (), mode, owners := Fintype.card ι + more }]
      engine := (opened mode tables).engine
      prompt }
  kept _ := (opened mode tables).kept
  doing i := weaveRun Move.perform (programs i)

def Got (steps : List (Step Move)) (w : Placement) (a b : List (Record Answer) × Snapshot) : Prop :=
  Agree (apart w) steps a.1 b.1 ∧ (apart w).seen a.2 b.2

omit [DecidableEq ι] in
theorem together_gathered (mode : Mode) (tables : List (String × QueryLease.Tables.Bound))
    (prompt : Bool) (more : Nat) {programs : ι → List (Step Move)}
    (own : ∀ i, allWithin Session.Move.own Move.own (programs i)) :
    Together mode (opened mode tables).engine.queries (fun i => Got (programs i))
      (fun i => (weaveRun Move.perform (programs i), { opened mode tables with prompt }))
      (fun _ => ⟨[]⟩) (gathered mode tables prompt more programs) where
  kin i := by
    have counters := counters_opened mode tables
    refine ⟨⟨fun _ => none, 0⟩, ⟨_, _, rfl, rfl, ?_⟩, .cons ⟨rfl, .connection 0⟩ .nil⟩
    exact ⟨rfl, rfl, rfl, rfl, rfl, List.nodup_nil, nofun, fun _ => rfl, nofun,
      (add_zero _).symm⟩
  doing i := weaveRun_akin (likened_apart mode _) (own i) _
  disjoint _ := List.disjoint_nil_left _
  total := by
    have none (prompt : Bool) : ({ opened mode tables with prompt } : Session .tables).work = 0 :=
      congrArg QueryLease.Tables.Counters.work (counters_opened mode tables)
    exact (none prompt).trans (Finset.sum_eq_zero fun i _ => none prompt).symm

omit [DecidableEq ι] in
theorem got_of_done {programs : ι → List (Step Move)} {start : Session .tables} {n : ι → Nat}
    {w : ι → Placement} {c : Crowd ι (List (Record Answer) × Snapshot)}
    (h : Together mode bound (fun i => Got (programs i))
      (fun i => Strand.step^[n i] (weaveRun Move.perform (programs i), start)) w c)
    {i : ι} {got : List (Record Answer) × Snapshot} (hg : c.doing i = .done got) :
    Got (programs i) (w i) (run Move.perform (programs i) start) got ∧
      (Strand.step^[n i] (weaveRun Move.perform (programs i), start)).2.work =
        (run Move.perform (programs i) start).2.report.work := by
  have akin := h.doing i
  obtain ⟨a, ha⟩ := akin.done_iff.2 ⟨got, hg⟩
  have ran := Strand.iterate_step_done ha
  rw [run_weaveRun] at ran
  obtain ⟨rfl, last⟩ := Prod.mk.inj ran
  rw [hg, ha] at akin
  refine ⟨akin, ?_⟩
  rw [← last]
  rfl

/-- What a client gets does not depend on what the others do and when. It is done after as many
turns as it has pieces to do alone. When all are done, the work of all is the sum of what each of
them would have caused alone, and if they have done the same, so is what they have been told. -/
theorem clients_apart (mode : Mode) (tables : List (String × QueryLease.Tables.Bound))
    (prompt : Bool) (more : Nat) (programs : ι → List (Step Move))
    (own : ∀ i, allWithin Session.Move.own Move.own (programs i)) (turns : List (Turn ι)) :
    let start : Session .tables := { opened mode tables with prompt }
    let alone i := run Move.perform (programs i) start
    let crowd := (gathered mode tables prompt more programs).after turns
    ∃ w : ι → Placement, (∀ i, (w i).places.Nodup) ∧
      (∀ i j, i ≠ j → (w i).places.Disjoint (w j).places) ∧
      (∀ i, (weaveRun Move.perform (programs i)).pieces start ≤ turns.count (.client i) →
        ∃ got, crowd.doing i = .done got) ∧
      (∀ i got, crowd.doing i = .done got →
        Agree (apart (w i)) (programs i) (alone i).1 got.1 ∧
          tally told (programs i) got.1 = tally told (programs i) (alone i).1) ∧
      ∀ got : ι → List (Record Answer) × Snapshot, (∀ i, crowd.doing i = .done (got i)) →
        crowd.shared.work = ∑ i, (alone i).2.report.work ∧
          ∀ steps, (∀ i, programs i = steps) → ∑ i, tally told steps (got i).1 =
            Fintype.card ι • tally told steps (run Move.perform steps start).1 := by
  intro start alone crowd
  obtain ⟨w, h⟩ := (together_gathered mode tables prompt more own).after turns
  -- Each client's run is its solo run, seen through its places.
  have agreed i got (hg : crowd.doing i = .done got) :
      Agree (apart (w i)) (programs i) (alone i).1 got.1 ∧
        tally told (programs i) got.1 = tally told (programs i) (alone i).1 := by
    have agree := (got_of_done h hg).1.1
    exact ⟨agree, (tally_eq (impartial_told _) _ agree).symm⟩
  refine ⟨w, h.nodup, fun i j => h.disjoint, fun i enough => ?_, agreed, fun got hgot => ⟨?_, ?_⟩⟩
  · obtain ⟨a, ha⟩ := Strand.done_of_pieces enough
    exact (h.doing i).done_iff.1 ⟨a, ha⟩
  · rw [show crowd.shared.work = _ from h.total]
    exact Finset.sum_congr rfl fun i _ => (got_of_done h (hgot i)).2
  · intro steps same
    have each i : tally told steps (got i).1 = tally told steps (run Move.perform steps start).1 :=
      same i ▸ (agreed i _ (hgot i)).2
    rw [Finset.sum_congr rfl fun i _ => each i, Finset.sum_const, Finset.card_univ]

def walk : List (Step Move) :=
  [.move (.query "c" "q" "r"), .forEach "r" "w" [.move (.values "w")] true]

def numbers : List (String × QueryLease.Tables.Bound) :=
  [("q", { table := { columns := ["n"], rows := [[.integer 7], [.integer 8]] } })]

def walkers : Crowd Bool (List (Record Answer) × Snapshot) :=
  (gathered .deferred numbers false 0 fun _ => walk).after
    (List.replicate 24 [.client true, .reap 1, .client false]).flatten

theorem clients_apart_walkers : allWithin Session.Move.own Move.own walk ∧
    ∃ got : Bool → List (Record Answer) × Snapshot, (∀ i, walkers.doing i = .done (got i)) ∧
      ∑ i, tally told walk (got i).1 = (4, 0) := by
  have own : allWithin Session.Move.own Move.own walk := by decide
  obtain ⟨w, -, -, done, -, all⟩ := clients_apart .deferred numbers false 0 (fun _ => walk)
    (fun _ => own) (List.replicate 24 [.client true, .reap 1, .client false]).flatten
  -- alone, a walk has twenty-four pieces
  choose got hgot using fun i => done i (by cases i <;> decide +kernel)
  unfold walkers
  refine ⟨own, got, hgot, ?_⟩
  have alone : tally told walk (run Move.perform walk
      { opened .deferred numbers with prompt := false }).1 = (2, 0) := by decide +kernel
  rw [(all got hgot).2 walk fun _ => rfl, alone]
  rfl

end Tables

end QueryLease.Session

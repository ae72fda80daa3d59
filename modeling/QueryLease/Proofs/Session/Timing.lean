import QueryLease.Proofs.Pool.Timing
import QueryLease.Proofs.Session.Conservation
import QueryLease.Proofs.Session.KindredRuns
import QueryLease.Proofs.Session.KindredTables

namespace QueryLease.Session.Tables

open Pool
open QueryLease.Tables (Counters)

structure Waits (p q : Stats) : Prop where
  released : q.released = p.released
  live : q.live = p.live
  pending : p.pending = 0
  disposed : p.disposed = q.disposed + q.pending

/-- The same, with what is counted by the tables behind them. -/
structure Behind (p q : Stats) (c d : Counters) : Prop extends Waits p q where
  executions : d.executions = c.executions
  fetches : d.fetches = c.fetches
  reads : d.reads = c.reads
  disposals : c.disposals = d.disposals + q.pending
  buffers : d.live = c.live + q.pending

/-- What snapshots tell, which is all the same when the pool is gone. -/
inductive Trails : Snapshot → Snapshot → Prop
  | opened {p q : Stats} {c d : Counters} (results : List (String × Lease.Stage × Nat)) :
    Behind p q c d → Trails { pools := [some p], results, report := .counters c }
      { pools := [some q], results, report := .counters d }
  | ended (results : List (String × Lease.Stage × Nat)) (c : Counters) :
    Trails { pools := [none], results, report := .counters c }
      { pools := [none], results, report := .counters c }

theorem Trails.eq_of_gone {s t : Snapshot} (h : Trails s t) (gone : s.pools = [none]) : s = t := by
  cases h with
  | opened results behind => cases gone
  | ended results c => rfl

def Asked (c d : Counters) : Prop :=
  d.executions = c.executions ∧ d.fetches = c.fetches ∧ d.reads = c.reads ∧
    ∃ pending, c.disposals = d.disposals + pending ∧ d.live = c.live + pending

/-- A session whose pool disposes of buffers at once, and one whose pool is in another mode. All
answers are the same but the mode itself, how many buffers a collection pass found, what the tables
count, and the outline of a connection. -/
def timing (mode : Mode) : Likeness Move where
  move
    | .collect _ => fun a b => ∃ m n, a = .count m ∧ b = .count n
    | .mode _ => fun a b => a = .mode .inline ∧ b = .mode mode
    | .outline _ => fun a b => a = b ∨ ∃ p q : Pool .tables, p.mode = .inline ∧ q.mode = mode ∧
      Waits p.stats q.stats ∧ a = .text p.outline ∧ b = .text q.outline
    | _ => Eq
  peculiar
    | .counters _ => fun a b => ∃ c d, Asked c d ∧ a = .counters c ∧ b = .counters d
    | _ => Eq
  seen := Trails

def timingIn (mode : Mode) (irregular : Bool) : Likeness Move where
  move := (timing mode).move
  peculiar p a b := irregular = false → (timing mode).peculiar p a b
  seen s t := irregular = false → Trails s t

variable {mode : Mode} {w : Bool} {d e : Desk .tables}

theorem timingIn_mono {v w : Bool} (h : v ≤ w) : (timingIn mode v).Le (timingIn mode w) := by
  have earlier (hw : w = false) : v = false := Bool.eq_false_of_le_false (hw ▸ h)
  exact ⟨id, fun alike hw => alike (earlier hw), fun seen hw => seen (earlier hw)⟩

theorem timingIn_le : (timingIn mode false).Le (timing mode) :=
  ⟨id, fun alike => alike rfl, fun seen => seen rfl⟩

theorem waits_of_lagging (r : Lagging mode w d e) : Waits d.pool.stats e.pool.stats where
  released := r.lags.released
  live := by
    show e.pool.tracked.countP e.pool.owned = d.pool.tracked.countP d.pool.owned
    rw [r.lags.tracked, owned_congr r.lags.handles]
  pending := congrArg List.length r.lags.empty
  disposed := r.lags.disposed

theorem behind_of_lagging (r : Lagging mode false d e) :
    Behind d.pool.stats e.pool.stats d.engine.counters e.engine.counters where
  toWaits := waits_of_lagging r
  executions := r.lags.executions
  fetches := r.lags.fetches
  reads := r.lags.reads
  disposals := r.lags.disposals
  buffers := (r.regular rfl).live

theorem counters_eq_of_lagging (r : Lagging mode false d e) (h0 : d.pool.owners = 0) :
    e.engine.counters = d.engine.counters := by
  have queue := (r.regular rfl).closed (r.ended h0)
  have disposals : e.engine.counters.disposals = d.engine.counters.disposals := by
    rw [r.lags.disposals, queue, List.length_nil, add_zero]
  have violations : e.engine.counters.violations = d.engine.counters.violations := by
    rw [r.lags.violations, queue]
    rfl
  have live : e.engine.counters.live = d.engine.counters.live := by
    rw [(r.regular rfl).live, queue, List.length_nil, add_zero]
  show Counters.mk _ _ _ _ _ _ = Counters.mk _ _ _ _ _ _
  rw [r.lags.executions, r.lags.fetches, r.lags.reads, disposals, violations, live]

theorem trails_of_lagging (r : Lagging mode false d e)
    (results : List (String × Lease.Stage × Nat)) : Trails
      { pools := [poolSeen d.pool], results, report := .counters d.engine.counters }
      { pools := [poolSeen e.pool], results, report := .counters e.engine.counters } := by
  by_cases h0 : d.pool.owners = 0
  · have first : poolSeen d.pool = none := if_pos h0
    have second : poolSeen e.pool = none := if_pos (r.lags.owners.trans h0)
    rw [first, second, counters_eq_of_lagging r h0]
    exact .ended _ _
  · have first : poolSeen d.pool = some d.pool.stats := if_neg h0
    have second : poolSeen e.pool = some e.pool.stats := if_neg (r.lags.owners ▸ h0)
    rw [first, second]
    exact .opened _ (behind_of_lagging r)

theorem asked_of_lagging (r : Lagging mode false d e) :
    Asked d.engine.counters e.engine.counters :=
  have behind := behind_of_lagging r
  ⟨behind.executions, behind.fetches, behind.reads, _, behind.disposals, behind.buffers⟩

theorem timing_of_kin (m : Session.Move) {a b : Answer} (h : m.Kin (Kinship.timing mode) w a b) :
    (timing mode).move m a b := by
  cases m with
  | query c text name =>
    obtain ⟨h, _, columns, rfl, rfl, rfl⟩ := h
    exact rfl
  | handleInfo x =>
    obtain ⟨_, _, ⟨word, columns, rfl⟩, rfl, rfl⟩ := h
    exact rfl
  | guardInfo g =>
    obtain ⟨_, _, ⟨word, columns, rfl⟩, rfl, rfl⟩ := h
    exact rfl
  | mode c =>
    obtain ⟨_, _, ⟨rfl, rfl⟩, rfl, rfl⟩ := h
    exact ⟨rfl, rfl⟩
  | outline name =>
    obtain ⟨_, _, outlined, rfl, rfl⟩ := h
    cases outlined with
    | pool looked =>
      obtain ⟨o, d, e, r, rfl, rfl⟩ := looked
      exact .inr ⟨_, _, r.lags.inline, r.lags.mode, waits_of_lagging r, rfl, rfl⟩
    | result same columns word | handle same columns word =>
      obtain rfl := same
      left
      simp only [resultOutline, handleOutline, columns, word]
    | cursor _ _ same | row _ _ same =>
      obtain rfl := same
      exact .inl rfl
  | _ => exact h

theorem register_lagging (text : String) (bound : QueryLease.Tables.Bound)
    (r : Lagging mode w d e) :
    Lagging mode w { d with engine := QueryLease.Tables.State.register d.engine text bound }
      { e with engine := QueryLease.Tables.State.register e.engine text bound } := by
  refine ⟨r.calm ⟨rfl, rfl, rfl, id, id⟩ { r.lags with queries := ?_ } rfl rfl, r.ended⟩
  show _ :: e.engine.queries.filter _ = _ :: d.engine.queries.filter _
  rw [r.lags.queries]

theorem perform_timing (m : Move) (w : Bool) :
    Kindred (Kinship.timing mode) w m.perform m.perform
      fun w => (timingIn mode w).peculiar m := by
  cases m with
  | register c text bound =>
    refine (Kindred.connection c).bind fun v _ _ _ _ => ?_
    exact Kindred.onEngine fun r => ⟨register_lagging text bound r, fun _ => rfl⟩
  | spin c => exact (Kindred.spin c).mono fun _ _ _ _ same _ => same
  | counters c =>
    refine (Kindred.connection c).bind fun v _ _ _ _ => ?_
    refine Kindred.onEngine fun r => ⟨r, fun hw => ⟨_, _, ?_, rfl, rfl⟩⟩
    subst hw
    exact asked_of_lagging r
  | parallel c text n => exact (Kindred.parallel c text n).mono fun _ _ _ _ same _ => same

theorem likened_timing (mode : Mode) :
    Likened (Kinship.timing mode) (timingIn mode) Move.perform (fun _ => true) fun _ => true where
  mono := timingIn_mono
  move m _ _ :=
    (Kindred.move m fun _ _ => releaseAll_timing mode).mono fun _ _ _ _ => timing_of_kin m
  peculiar p _ := perform_timing p
  seen _ := snapshot_akin fun r results hw => trails_of_lagging (hw ▸ r) results

theorem kin_opened (mode : Mode) (prompt : Bool)
    (tables : List (String × QueryLease.Tables.Bound)) :
    Kin (Kinship.timing mode) () false (opened .inline tables)
      { opened mode tables with prompt } := by
  refine ⟨⟨_, _, rfl, rfl, ?_⟩, .cons ⟨rfl, .connection 0⟩ .nil⟩
  have counters := counters_opened .inline tables
  refine ⟨⟨?_, fun _ => ?_, nofun⟩, nofun⟩
  · exact ⟨rfl, rfl, rfl, rfl, rfl, rfl, rfl, rfl, rfl, rfl, rfl, rfl, rfl, rfl⟩
  · refine ⟨?_, rfl, fun _ => rfl⟩
    show (opened .inline tables).engine.counters.live + _ = _
    rw [counters]
    rfl

theorem regular_of_holds {E : Holding .tables} {s : Session .tables} (hs : Holds upkeep E s)
    {p : Pool .tables} (hp : s.pools = #[p]) : ¬ Irregular ⟨p, s.engine⟩ := by
  obtain ⟨q, hq, conserved⟩ := balanced_of_holds hs
  obtain ⟨pool, hpool⟩ : ∃ pool, s.pools[0]? = some pool ∧ pool = p := ⟨p, by rw [hp]; rfl, rfl⟩
  rintro (more | unlawful)
  · exact absurd more (conserved.live ▸ lt_irrefl _)
  · obtain ⟨hpool, rfl⟩ := hpool
    exact unlawful (hs.held.sound 0 pool hpool).leased.lawful

theorem gone_of_holds {s : Session .tables} (hs : Holds upkeep 0 s) (hk : s.kept = [])
    {p : Pool .tables} (hp : s.pools = #[p]) : p.owners = 0 := by
  have sound := hs.held.sound 0 p (by rw [hp]; rfl)
  rw [hk] at sound
  exact sound.owners_eq_zero rfl fun _ => rfl

/-- A session whose pool disposes of buffers at once is told apart from one in any mode by nothing
but what still waits there, whatever reapers and collection passes do between the steps and inside
them; and nothing waits when all objects have been dropped. -/
theorem modes_agree (mode : Mode) (prompt : Bool)
    (tables : List (String × QueryLease.Tables.Bound)) (steps : List (Step Move))
    (reaps : List Nat) :
    let inline := run Move.perform steps (opened .inline tables)
    let other := ((weaveRun Move.perform steps).amid (reaps.map reaping)
      { opened mode tables with prompt }).1
    Agree (timing mode) steps inline.1 other.1 ∧ inline.2 = other.2 ∧ inline.2.pools = [none] := by
  have akin := weaveRun_akin (likened_timing mode) (allWithin_all steps) false
  have harmless : ∀ other ∈ reaps.map reaping, ∀ o w s t, Kin (Kinship.timing mode) o w s t →
      Kin (Kinship.timing mode) o w s (other t) := by
    intro other mem _ _ _ _ r
    obtain ⟨n, -, rfl⟩ := List.mem_map.1 mem
    exact r.reaping n
  obtain ⟨v, -, kin, agree, seen⟩ := akin.amid harmless (kin_opened mode prompt tables)
  rw [run_weaveRun] at kin agree seen
  have after := (performAll_neutral Move.perform_neutral false steps 0 Backed.zero).post
    (holds_opened .inline tables true)
  obtain ⟨last, empty⟩ := (dropAll_keeps Backed.zero).post after
  obtain ⟨⟨p, q, hp, hq, related⟩, -⟩ := kin
  have regular : v = false := by
    cases v with
    | false => rfl
    | true => exact absurd (related.irregular rfl) (regular_of_holds last hp)
  subst regular
  have gone : (run Move.perform steps (opened .inline tables)).2.pools = [none] := by
    have none : poolSeen p = none := if_pos (gone_of_holds last empty hp)
    rw [← none]
    exact congrArg (fun pools => pools.toList.map poolSeen) hp
  refine ⟨agree.mono timingIn_le steps, ?_, gone⟩
  exact (seen rfl).eq_of_gone gone

end QueryLease.Session.Tables

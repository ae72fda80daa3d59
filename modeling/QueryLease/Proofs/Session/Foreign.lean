import QueryLease.Engine.Script
import QueryLease.Proofs.Engine.Hosts
import QueryLease.Proofs.Session.Runs
import QueryLease.Session.Foreign

namespace QueryLease

open Engine

namespace Engine

variable {E : Engine} {A : Multiset (Given E)} {s : Host E} {ε β : Type} {got : β → Given E}
  {outcome : Except ε β}

theorem After.ok {b : β} (h : After A got outcome s) (ho : outcome = .ok b) :
    Accounts (got b ::ₘ A) s := by
  rwa [ho] at h

theorem After.error {e : ε} (h : After A got outcome s) (ho : outcome = .error e) :
    Accounts A s := by
  rwa [ho] at h

theorem Accounts.tell (h : Accounts A s) : Accounts A { s with ledger := s.ledger.tell.2 } :=
  ⟨h.books, h.stands.disciplined, h.stands.standing, h.stands.issued⟩

theorem Accounts.nothing (h : Accounts A s) (ha : ∀ a ∈ A, a = .receipt) :
    standing s.ledger.calls = [] := by
  have unowned (d : Database) (hd : d ∈ s.databases) : d.owners = 0 := by
    obtain ⟨n, hn⟩ := Array.getElem?_of_mem hd
    have owners := h.books.owners n
    rw [hn, Option.elim_some] at owners
    rw [← owners]
    refine Multiset.count_eq_zero.2 fun hm => ?_
    obtain ⟨a, hA, hm⟩ := Multiset.mem_map.1 hm
    rw [ha a hA] at hm
    cases hm
  rw [← Multiset.coe_eq_zero, h.stands.standing]
  refine Multiset.eq_zero_of_forall_notMem fun e he => ?_
  rcases Multiset.mem_add.1 he with he | he
  · obtain ⟨a, hA, he⟩ := Multiset.mem_bind.1 he
    rw [ha a hA] at he
    exact Multiset.notMem_zero e he
  · obtain ⟨d, hd, he⟩ := Pool.mem_sum_map.1 he
    rw [Database.stands, if_pos (unowned d ⟨hd⟩)] at he
    exact Multiset.notMem_zero e he

theorem Accounts.none (loader : Loader) (named : Option String) (engine : E.State) :
    Accounts (0 : Multiset (Given E)) { loader, named, engine } where
  books :=
    { sound := fun _ h => absurd h (Multiset.notMem_zero _)
      kinds := fun _ h => by cases h.val
      owners := fun _ => rfl }
  stands := ⟨trivial, rfl, fun _ h => absurd h List.not_mem_nil⟩

end Engine

namespace Session.Foreign

variable {E : Engine} {F : Session (.foreign E) → Prop} {X : Holding (.foreign E)} {α β : Type}
  {s : Session (.foreign E)} {n : Nat}

def upkeep (honest : E.Honest) : Venue.Upkeep (.foreign E) where
  Good := Accounts
  Pools _ := True
  execute_ok {_ l text _ b _} h he := by
    rw [Multiset.cons_swap]
    exact ((execute_keeps honest text).post h).ok he
  execute_error {_ l text _ _} h he := ((execute_keeps honest text).post h).error he
  fetch h := Accounts.fetch h
  read h := Accounts.read h _ _
  dispose h := Accounts.dispose h
  close h linked := (disconnect_keeps linked).post h
  dropBase h := dropDatabase_keeps.post h
  report h := h.tell

theorem onHost_acts {act : HostM E α} {P : Session (.foreign E) → Prop}
    {Q : α → Session (.foreign E) → Prop} (h : ∀ s, P s →
      Q (act.run s.engine).1 { s with engine := (act.run s.engine).2 }) :
    Acts F P (onHost act) (onHost act) Q := Alike.keeps h

theorem Move.perform_neutral (honest : E.Honest) (m : Move) :
    NeutralStep (upkeep honest) m.perform m.perform := by
  intro X hX
  cases m with
  | plainConfig => exact done
  | engineConfig =>
    refine Acts.bind (Q := fun _ => Holds (upkeep honest) X) (onHost_acts fun s hs => ?_)
      fun found => (ofExcept_acts (fun _ => id) found).bind fun _ => done
    exact ⟨hs.held.of_fst rfl (engineDefault_keeps.post hs.held.good), hs.ordered⟩
  | openDatabase path config name =>
    refine Acts.bind (onHost_acts fun s hs => ?_) fun found => (ofExcept_outcome found).bind
      fun n => (keep_acts hX name (.base n)).bind fun _ => done
    have after := (openDatabase_keeps honest path config).post hs.held.good
    split
    · next n found => exact hs.gain_base (after.ok found)
    · next e found => exact ⟨hs.held.of_fst rfl (after.error found), hs.ordered⟩
  | cloneDatabase d name =>
    refine (base_acts d).bind fun n => ?_
    refine Acts.bind (Q := fun _ => Holds (upkeep honest) (X + (0, {n})))
      (onHost_acts fun s hs => ?_) fun _ => (keep_acts hX name (.base n)).bind fun _ => done
    exact hs.1.gain_base ((retainDatabase_keeps (mem_assets_base hs.2)).post hs.1.held.good)
  | connect d mode name =>
    refine (base_acts d).bind fun n => ?_
    refine Acts.bind (onHost_acts fun s hs => ?_) fun found => (ofExcept_outcome found).bind
      fun link => (connect_acts hX link mode name).bind fun _ => done
    have after := (connect_keeps honest (mem_assets_base hs.2)).post hs.1.held.good
    split
    · next link found =>
      exact ⟨⟨hs.1.held.sound, hs.1.held.absent, trivial, after.ok found⟩, hs.1.ordered⟩
    · next e found => exact ⟨hs.1.held.of_fst rfl (after.error found), hs.1.ordered⟩

variable {honest : E.Honest}

theorem receipts_of_nothing (hs : Holds (upkeep honest) 0 s) (empty : s.kept = []) :
    ∀ a ∈ s.assets 0, a = .receipt := by
  intro a ha
  rw [assets, show (0 : Holding (.foreign E)).2.map Asset.base = 0 from rfl, add_zero] at ha
  obtain ⟨pool, hpool, ha⟩ := Pool.mem_sum_map.1 ha
  obtain ⟨p, hp⟩ := List.mem_iff_getElem?.1 hpool
  have sound := hs.held.sound p pool (by simpa using hp)
  rw [empty] at sound
  have ended := sound.assets_ended (B := Nat) (sound.owners_eq_zero rfl fun _ => rfl)
  exact Multiset.eq_of_mem_replicate (ended ▸ ha)

/-- The calls are disciplined, and nothing has been destroyed twice. -/
def Orderly (s : Session (.foreign E)) : Prop :=
  Disciplined s.engine.ledger.calls ∧ (destroyed s.engine.ledger.calls).Nodup

theorem orderly_of_holds (hs : Holds (upkeep honest) X s) : Orderly s :=
  ⟨hs.held.good.stands.disciplined, hs.held.good.stands.disciplined.destroyed_once⟩

/-- In every state of a run the calls have been orderly, and when nothing is kept any more, all that
was ever handed out has been destroyed once. -/
theorem calls_orderly (honest : E.Honest) (loader : Loader) (named : Option String)
    (engine : E.State) (prompt stop : Bool) (steps : List (Step (Attended Move))) :
    let act := Attended.perform Move.perform
    let start : Session (.foreign E) := { engine := { loader, named, engine }, prompt }
    Always act Orderly start ∧
      let s := ((performAll act stop steps).run start).2
      let last := (dropAll.run s).2
      Orderly s ∧ Orderly last ∧
        ∀ o ∈ handed last.engine.ledger.calls,
          (destroyed last.engine.ledger.calls).count o = 1 := by
  have neutral := Attended.perform_neutral (Move.perform_neutral honest)
  have start : Holds (upkeep honest) 0 { engine := { loader, named, engine }, prompt } :=
    holds_nothing _ prompt trivial (.none loader named engine)
  have after := (performAll_neutral neutral stop steps 0 Backed.zero).post start
  obtain ⟨last, empty⟩ := (dropAll_keeps Backed.zero).post after
  refine ⟨always_of_holds neutral (fun _ _ _ => orderly_of_holds) start, orderly_of_holds after,
    orderly_of_holds last, fun o ho => ?_⟩
  refine last.held.good.stands.disciplined.count_destroyed ?_ ho
  refine last.held.good.nothing fun a ha => ?_
  rw [empty] at ha
  exact receipts_of_nothing last empty a ha

end Session.Foreign

namespace Engine.Script

theorem row_honest {handing : Handing} {cells : List (Handing × Answers)} (hh : handing.Honest)
    (hc : ∀ e ∈ cells, e.1.Honest ∧ e.2.Honest) : (row handing cells).Honest := by
  refine ⟨hh, fun _ now n => ?_⟩
  dsimp only
  split_ifs
  · cases hn : cells[n]? with
    | none => exact ⟨nofun, nofun⟩
    | some e =>
      obtain ⟨handed, copied⟩ := hc e (List.mem_of_getElem? hn)
      exact ⟨handed, fun _ => copied⟩
  · exact ⟨nofun, nofun⟩

theorem honest (s : Script) (hd : s.database.Exact) (hc : s.connection.Exact)
    (hq : ∀ e ∈ s.queries, ∀ turn ∈ e.2.turns, turn.Honest) : s.engine.Honest where
  openDatabase _ _ _ := hd
  openConnection _ := hc
  query text _ := by
    intro turn ht
    dsimp only [engine] at ht
    cases hl : s.queries.lookup text with
    | none =>
      rw [hl] at ht
      exact absurd ht List.not_mem_nil
    | some answers =>
      rw [hl] at ht
      exact hq (text, answers) (Session.mem_of_lookup hl) turn ht

def single : Script where
  queries := [("q",
    { handing := {}, success := true, message := none, columns := [⟨.success, some [110]⟩]
      turns := [row {} [({}, .items 52 true [({}, .plain 23 true (.integer 7))])]] })]

theorem single_honest : single.engine.Honest := by
  refine honest single ⟨fun _ => rfl, fun _ => rfl⟩ ⟨fun _ => rfl, fun _ => rfl⟩ ?_
  refine List.forall_mem_singleton.2 (List.forall_mem_singleton.2 ?_)
  refine row_honest (fun _ => rfl) (List.forall_mem_singleton.2 ⟨fun _ => rfl, ?_⟩)
  exact .items 52 (List.forall_mem_singleton.2 fun _ => rfl)
    (List.forall_mem_singleton.2 fun _ => .plain 23 _)

end Engine.Script

namespace Session.Foreign

/-- A row and a cursor outlive the result, the connection and the database that they come from, and
the reaper is late. -/
def tour : List (Step (Attended Move)) :=
  [.peculiar (.own (.openDatabase none {} "d")), .peculiar (.own (.connect "d" .background "c")),
    .move (.drop "d"), .move (.query "c" "q" "r"), .move (.cursor "r" "k"),
    .move (.next "k" (some "w")), .move (.drop "c"), .move (.get "w" 0), .move (.close "r"),
    .move (.query "c" "q" "r"), .peculiar (.reap 0 1)]

theorem calls_orderly_tour :
    let loader : Loader := fun _ => .exporting fun _ => none
    let act := Attended.perform Move.perform
    let start : Session (.foreign Script.single.engine) :=
      { engine := { loader, named := none, engine := () }, prompt := false }
    Script.single.engine.Honest ∧ Always act Orderly start ∧
      let s := ((performAll act false tour).run start).2
      let last := (dropAll.run s).2
      Orderly s ∧ Orderly last ∧
        ∀ o ∈ handed last.engine.ledger.calls,
          (destroyed last.engine.ledger.calls).count o = 1 :=
  ⟨Script.single_honest, calls_orderly Script.single_honest _ none () false false tour⟩

end Session.Foreign

end QueryLease

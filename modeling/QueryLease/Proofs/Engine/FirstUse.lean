import Mathlib.Tactic.SplitIfs
import QueryLease.Engine.Host
import QueryLease.Proofs.Alike

namespace QueryLease.Engine

variable {E : Engine}

theorem Entry.mem_all (e : Entry) : e ∈ Entry.all := by cases e <;> decide

namespace Library

/-- What comes of looking for a library. -/
inductive Judged (loader : Loader) (path : String) : Except LoadError Library → Prop
  | refused {detail : String} (found : loader path = .refused detail) :
      Judged loader path (.error (.load path detail))
  /-- The first entry point, in look-up order, that is not exported. -/
  | lacking {refusal : String → Option String} {before later : List Entry} {e : Entry}
      {detail : String} (found : loader path = .exporting refusal)
      (order : Entry.all = before ++ e :: later)
      (earlier : ∀ e' ∈ before, refusal e'.symbol = none)
      (missing : refusal e.symbol = some detail) :
      Judged loader path (.error (.symbols path detail))
  | complete {refusal : String → Option String} (found : loader path = .exporting refusal)
      (exported : ∀ e : Entry, refusal e.symbol = none) : Judged loader path (.ok ⟨path⟩)

theorem load_judged (loader : Loader) (path : String) : Judged loader path (load loader path) := by
  unfold load
  cases found : loader path with
  | refused detail => exact .refused found
  | exporting refusal =>
    dsimp only
    cases first : Entry.all.findSome? fun e => refusal e.symbol with
    | none => exact .complete found fun e => List.findSome?_eq_none_iff.1 first e e.mem_all
    | some detail =>
      obtain ⟨before, e, later, order, missing, earlier⟩ := List.findSome?_eq_some_iff.1 first
      exact .lacking found order earlier missing

end Library

namespace Host

def found (p : Host E) : Except LoadError Library :=
  p.first.getD (p.load (p.named.getD Library.usual))

theorem library_run (p : Host E) : library.run p = (p.found, { p with first := some p.found }) := by
  obtain ⟨loader, named, first, engine, ledger, databases⟩ := p
  cases first <;> rfl

theorem engineDefault_run_error {p : Host E} {e : LoadError} (h : p.found = .error e) :
    engineDefault.run p = (.error (.runtime e), { p with first := some (.error e) }) := by
  unfold engineDefault
  rw [StateT.run_bind, library_run, h]
  rfl

theorem engineDefault_run_ok {p : Host E} {l : Library} (h : p.found = .ok l) :
    (engineDefault.run p).1 = .ok (E.defaults p.engine) := by
  unfold engineDefault
  rw [StateT.run_bind, library_run, h]
  rfl

theorem openDatabase_run_error {p : Host E} {e : LoadError} (h : p.found = .error e)
    (path : Option String) (config : Config) :
    (openDatabase path config).run p =
      (.error (.runtime e), { p with first := some (.error e) }) := by
  unfold openDatabase
  rw [StateT.run_bind, library_run, h]
  rfl

structure SameLoading (p s : Host E) : Prop where
  loader : s.loader = p.loader
  named : s.named = p.named
  first : s.first = p.first

variable {p : Host E}

theorem library_moves : Keeps (· = p) library
    fun found s => found = p.found ∧ ({ p with first := some p.found } : Host E).SameLoading s := by
  rintro _ rfl
  exact ⟨rfl, by rw [library_run]; exact ⟨rfl, rfl, rfl, rfl⟩⟩

theorem booked_still {α : Type} (act : LedgerM α) :
    Keeps p.SameLoading (liftM act : HostM E α) fun _ => p.SameLoading :=
  Alike.keeps fun _ hs => ⟨hs.loader, hs.named, hs.first⟩

theorem defaults_still : Keeps p.SameLoading defaults fun _ => p.SameLoading :=
  (booked_still _).bind fun _ => Alike.get_bind fun _ hs => Alike.of_eq rfl hs

theorem engine_still (engine : E.State) :
    Keeps p.SameLoading (modify fun s => { s with engine }) fun _ => p.SameLoading :=
  Alike.of_modify fun _ hs => ⟨hs.loader, hs.named, hs.first⟩

theorem editOwners_still (n : Nat) (f : Nat → Nat) :
    Keeps p.SameLoading (editOwners n f) fun _ => p.SameLoading :=
  Alike.of_modify fun _ hs => ⟨hs.loader, hs.named, hs.first⟩

theorem dropDatabase_still (n : Nat) :
    Keeps p.SameLoading (dropDatabase n) fun _ => p.SameLoading := by
  refine (editOwners_still n _).bind fun _ => Alike.get_bind fun s hs => ?_
  cases s.databases[n]? with
  | none => exact Alike.of_eq rfl hs
  | some d =>
    dsimp only
    split_ifs
    · exact (booked_still _).weaken (fun _ e => e ▸ hs) fun _ _ => id
    · exact Alike.of_eq rfl hs

theorem connect_still (n : Nat) : Keeps p.SameLoading (connect n) fun _ => p.SameLoading := by
  refine Alike.get_bind fun s hs => Alike.get_bind fun s' e => ?_
  have moved : Keeps (· = s') _ fun _ => p.SameLoading :=
    (engine_still (E.openConnection s'.engine).2).weaken (fun _ e' => e' ▸ e ▸ hs) fun _ _ => id
  refine moved.bind fun _ => ?_
  refine (booked_still _).bind fun given => ?_
  cases require (E.openConnection s'.engine).1.status given .connection with
  | error f => exact Alike.still
  | ok connection => exact (editOwners_still n _).bind fun _ => Alike.still

theorem execute_still (l : Link) (text : String) :
    Keeps p.SameLoading (execute l text) fun _ => p.SameLoading := by
  unfold execute
  split_ifs
  · exact Alike.still
  refine Alike.get_bind fun s hs => ?_
  refine Alike.bind ((engine_still _).weaken (fun _ e => e ▸ hs) fun _ _ => id) fun _ => ?_
  exact booked_still _

theorem disconnect_still (l : Link) :
    Keeps p.SameLoading (disconnect l) fun _ => p.SameLoading :=
  (booked_still _).bind fun _ => dropDatabase_still l.database

inductive OpenedBy (l : Library) : Except Error Nat → Host E → Prop
  | refused (f : Fault) (s : Host E) : OpenedBy l (.error (.engine f)) s
  | opened {s : Host E} {n : Nat} {d : Database} (found : s.databases[n]? = some d)
      (library : d.library = l) : OpenedBy l (.ok n) s

theorem openDatabase_moves (path : Option String) (config : Config) :
    Keeps (· = p) (openDatabase path config) fun opened s =>
      ({ p with first := some p.found } : Host E).SameLoading s ∧
        ∀ l, p.found = .ok l → OpenedBy l opened s := by
  refine library_moves.bind fun got => Alike.assume ?_
  rintro rfl
  cases p.found with
  | error e => exact Alike.of_pure fun _ hs => ⟨hs, by simp⟩
  | ok library =>
    dsimp only
    split_ifs
    · exact Alike.of_pure fun _ hs => ⟨hs, fun _ _ => .refused _ _⟩
    refine defaults_still.bind fun usual => Alike.get_bind fun s hs => ?_
    refine Alike.bind ((engine_still _).weaken (fun _ e => e ▸ hs) fun _ _ => id) fun _ => ?_
    refine (booked_still _).bind fun given => ?_
    cases require _ given .database with
    | error f => exact Alike.of_pure fun _ hs => ⟨hs, fun _ _ => .refused _ _⟩
    | ok object =>
      refine Alike.get_bind fun s hs => Alike.of_eq rfl ⟨⟨hs.loader, hs.named, hs.first⟩, ?_⟩
      rintro _ ⟨⟩
      exact .opened Array.getElem?_push_size rfl

theorem engineDefault_moves : Keeps (· = p) engineDefault
    fun _ => ({ p with first := some p.found } : Host E).SameLoading := by
  refine library_moves.bind fun got => Alike.assume fun _ => ?_
  cases got with
  | error e => exact Alike.still
  | ok library => exact defaults_still.bind fun _ => Alike.still

end Host

inductive Use where
  | library
  | engineDefault
  | openDatabase (path : Option String) (config : Config)
  | load (path : String)
  | setNamed (name : Option String)
  | retainDatabase (n : Nat)
  | dropDatabase (n : Nat)
  | connect (n : Nat)
  | disconnect (l : Link)
  | execute (l : Link) (text : String)
  | account (act : LedgerM Unit)

namespace Use

def perform : Use → HostM E (Option (Except LoadError Library))
  | library => return some (← Host.library)
  | load path => return some ((← get).load path)
  | engineDefault => do
    let _ ← Host.engineDefault
    return none
  | openDatabase path config => do
    let _ ← Host.openDatabase path config
    return none
  | setNamed name => do
    Host.setNamed name
    return none
  | retainDatabase n => do
    Host.retainDatabase n
    return none
  | dropDatabase n => do
    Host.dropDatabase n
    return none
  | connect n => do
    let _ ← Host.connect n
    return none
  | disconnect l => do
    Host.disconnect l
    return none
  | execute l text => do
    let _ ← Host.execute l text
    return none
  | account act => do
    act
    return none

def needs : Use → Bool
  | library | engineDefault | openDatabase .. => true
  | _ => false

def loads : Use → Bool
  | load _ => true
  | _ => false

def rename (named : Option String) : Use → Option String
  | setNamed name => name
  | _ => named

/-- What the environment names when the library is first needed, or in the end if it never is. -/
def nameAtNeed (named : Option String) : List Use → Option String
  | [] => named
  | u :: uses => if u.needs then named else nameAtNeed (u.rename named) uses

theorem perform_moves (u : Use) (p : Host E) :
    ({ p with
        named := u.rename p.named
        first := if u.needs then some p.found else p.first } : Host E).SameLoading
      (u.perform.run p).2 := by
  have still {α : Type} {act : HostM E α} (h : Keeps p.SameLoading act fun _ => p.SameLoading) :
      p.SameLoading ((do
        let _ ← act
        return (none : Option (Except LoadError Library)) : HostM E _).run p).2 :=
    (h.bind fun _ => Alike.still).post ⟨rfl, rfl, rfl⟩
  cases u with
  | library => exact (Host.library_moves.post rfl).2
  | engineDefault => exact Host.engineDefault_moves.post rfl
  | openDatabase path config => exact ((Host.openDatabase_moves path config).post rfl).1
  | load path => exact ⟨rfl, rfl, rfl⟩
  | setNamed name => exact ⟨rfl, rfl, rfl⟩
  | retainDatabase n => exact still (Host.editOwners_still n _)
  | dropDatabase n => exact still (Host.dropDatabase_still n)
  | connect n => exact still (Host.connect_still n)
  | disconnect l => exact still (Host.disconnect_still l)
  | execute l text => exact still (Host.execute_still l text)
  | account act => exact still (Host.booked_still act)

end Use

namespace Host

def after (uses : List Use) (p : Host E) : Host E := uses.foldl (fun p u => (u.perform.run p).2) p

@[simp] theorem after_nil (p : Host E) : p.after [] = p := rfl

@[simp] theorem after_cons (u : Use) (uses : List Use) (p : Host E) :
    p.after (u :: uses) = Host.after uses (u.perform.run p).2 := rfl

theorem loader_after (uses : List Use) (p : Host E) : (p.after uses).loader = p.loader := by
  induction uses generalizing p with
  | nil => rfl
  | cons u uses ih => exact (ih _).trans (u.perform_moves p).loader

theorem first_after {p : Host E} {r : Except LoadError Library} (h : p.first = some r)
    (uses : List Use) : (p.after uses).first = some r := by
  induction uses generalizing p with
  | nil => exact h
  | cons u uses ih =>
    refine ih ((u.perform_moves p).first.trans ?_)
    simp [found, h]

theorem first_after_none {p : Host E} (h : p.first = none) (uses : List Use) :
    (p.after uses).first =
      if uses.any Use.needs then
        some (Library.load p.loader ((Use.nameAtNeed p.named uses).getD Library.usual))
      else none := by
  induction uses generalizing p with
  | nil => exact h
  | cons u uses ih =>
    have moved := u.perform_moves p
    cases needs : u.needs with
    | true =>
      -- What comes after the first need is of no account, a change of the name included.
      rw [needs] at moved
      simpa [Use.nameAtNeed, needs, found, load, h] using first_after moved.first uses
    | false =>
      rw [needs] at moved
      have := ih (moved.first.trans h)
      simpa [Use.nameAtNeed, needs, moved.loader, moved.named] using this

theorem found_after {p : Host E} (h : p.first = none) (uses : List Use) :
    (p.after uses).found =
      Library.load p.loader ((Use.nameAtNeed p.named uses).getD Library.usual) := by
  induction uses generalizing p with
  | nil => simp [found, load, Use.nameAtNeed, h]
  | cons u uses ih =>
    have moved := u.perform_moves p
    cases needs : u.needs with
    | true =>
      rw [needs] at moved
      simp [found, first_after moved.first uses, Use.nameAtNeed, needs, load, h]
    | false =>
      rw [needs] at moved
      have := ih (moved.first.trans h)
      simpa [Use.nameAtNeed, needs, moved.loader, moved.named] using this

theorem perform_loads {u : Use} (h : u.loads) (p : Host E) : (u.perform.run p).2 = p := by
  cases u <;> first | rfl | cases h

theorem after_filter (uses : List Use) (p : Host E) :
    p.after (uses.filter fun u => !u.loads) = p.after uses := by
  induction uses generalizing p with
  | nil => rfl
  | cons u uses ih => cases loads : u.loads <;> simp [loads, perform_loads, ih]

/-- What every need of the library gets. A library that was not found fails them all alike, and
nothing else is looked at. -/
structure FixedTo (r : Except LoadError Library) (p : Host E) : Prop where
  library : library.run p = (r, { p with first := some r })
  failing : ∀ e, r = .error e →
    engineDefault.run p = (.error (.runtime e), { p with first := some r }) ∧
      ∀ path config,
        (openDatabase path config).run p = (.error (.runtime e), { p with first := some r })
  serving : ∀ l, r = .ok l →
    (engineDefault.run p).1 = .ok (E.defaults p.engine) ∧
      ∀ path config,
        OpenedBy l ((openDatabase path config).run p).1 ((openDatabase path config).run p).2

theorem fixedTo_found (p : Host E) : p.FixedTo p.found where
  library := library_run p
  failing e h := by
    rw [h]
    exact ⟨engineDefault_run_error h, openDatabase_run_error h⟩
  serving l h :=
    ⟨engineDefault_run_ok h, fun path config =>
      ((openDatabase_moves path config).post (s := p) rfl).2 l h⟩

end Host

theorem Use.nameAtNeed_append {u : Use} (h : u.needs) (before later : List Use)
    (named : Option String) :
    nameAtNeed named (before ++ u :: later) = nameAtNeed named before := by
  induction before generalizing named with
  | nil => simp [nameAtNeed, h]
  | cons v before ih => simp [nameAtNeed, ih]

namespace Host

/-- What is found under a name decides these uses of the process and the next one. -/
structure FixedBy (name : String) (uses : List Use) (p : Host E) : Prop where
  needs : ∀ before u later, uses = before ++ u :: later → u.needs →
    (p.after before).FixedTo (Library.load p.loader name)
  next : (p.after uses).FixedTo (Library.load p.loader name)
  first : (p.after uses).first =
    if uses.any Use.needs then some (Library.load p.loader name) else none
  loading : ∀ path, (p.after uses).load path = Library.load p.loader path ∧
    (Use.load path).perform.run (p.after uses) =
      (some (Library.load p.loader path), p.after uses)
  unloaded : p.after uses = p.after (uses.filter fun u => !u.loads)
  judged : ∀ path, Library.Judged p.loader path (Library.load p.loader path)

theorem fixed_by_first_use (loader : Loader) (named : Option String) (engine : E.State)
    (uses : List Use) :
    FixedBy ((Use.nameAtNeed named uses).getD Library.usual) uses
      ({ loader, named, engine } : Host E) where
  needs := by
    rintro before u later rfl needs
    rw [Use.nameAtNeed_append needs, ← found_after rfl before]
    exact fixedTo_found _
  next := by
    rw [← found_after rfl uses]
    exact fixedTo_found _
  first := first_after_none rfl uses
  loading path := by
    rw [← loader_after uses]
    exact ⟨rfl, rfl⟩
  unloaded := (after_filter uses _).symm
  judged := Library.load_judged loader

end Host

end QueryLease.Engine

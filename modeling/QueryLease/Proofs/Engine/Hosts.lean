import QueryLease.Proofs.Engine.Accounts

namespace QueryLease.Engine

open Ledger

variable {E : Engine} {α : Type} {D : Array Database} {P : Ledger → Prop} {Q : α → Ledger → Prop}
  {X : Multiset Stand} {A : Multiset (Given E)} {a b : Given E} {s : Host E} {n : Nat} {l : Link}
  {r : Result}

structure Accounts (A : Multiset (Given E)) (s : Host E) : Prop where
  books : Books s.databases A
  stands : s.ledger.Stands (allStands s.databases A)

def At (D : Array Database) (P : Ledger → Prop) (s : Host E) : Prop :=
  s.databases = D ∧ P s.ledger

namespace Accounts

theorem keeps {act : HostM E α} {q : α → Host E → Prop}
    (h : ∀ D, Books D A → Keeps (At D (Stands (allStands D A))) act q) : Keeps (Accounts A) act q :=
  fun s hs => h s.databases hs.books s ⟨rfl, hs.stands⟩

theorem of_at (h : Books D A) (hs : At D (Stands (allStands D A)) s) : Accounts A s := by
  obtain ⟨rfl, L⟩ := hs
  exact ⟨h, L⟩

theorem replace (hs : Accounts (a ::ₘ A) s) (same : b.database? = a.database?) (hb : b.Sound)
    {ledger : Ledger} (L : ledger.Stands (Given.stands s.databases b + allStands s.databases A)) :
    Accounts (b ::ₘ A) { s with ledger } :=
  ⟨hs.books.swap same hb, allStands_cons s.databases b A ▸ L⟩

end Accounts

theorem booked_keeps {act : LedgerM α} (h : Keeps P act Q) :
    Keeps (At D P) (liftM act : HostM E α) fun a => At D (Q a) :=
  Alike.keeps fun _ hs => ⟨hs.1, h.post hs.2⟩

theorem library_keeps : Keeps (At D P) (Host.library : HostM E _) fun _ => At D P := by
  apply Alike.get_bind
  intro s hs
  cases s.first with
  | some found => exact Alike.of_eq rfl hs
  | none => exact Alike.of_eq rfl hs

theorem defaults_keeps : Keeps (At D (Stands X)) (Host.defaults : HostM E _)
    fun _ => At D (Stands X) := by
  refine Alike.bind (booked_keeps (record_keeps rfl rfl trivial)) fun _ => ?_
  exact Alike.get_bind fun s hs => Alike.of_eq rfl hs

theorem engineDefault_keeps : Keeps (Accounts A) (Host.engineDefault : HostM E _)
    fun _ => Accounts A := by
  refine Accounts.keeps fun D books => ?_
  refine library_keeps.bind fun found => ?_
  cases found with
  | error e => exact Alike.of_pure fun _ => .of_at books
  | ok library => exact defaults_keeps.bind fun _ => Alike.of_pure fun _ => .of_at books

theorem require_cases {handing : Handing} {object : Option Object} (exact : handing.Exact)
    (given : object.isSome = handing.given) (kind : Ungiven) :
    (object = none ∧ ∃ f, Host.require handing.status object kind = .error f) ∨
      ∃ o, object = some o ∧ Host.require handing.status object kind = .ok o := by
  unfold Handing.Exact at exact
  rw [← given, Option.isSome_iff_exists] at exact
  cases hs : handing.status with
  | success =>
    obtain ⟨o, rfl⟩ := exact.2 hs
    exact .inr ⟨o, rfl, rfl⟩
  | failure =>
    refine .inl ⟨Option.eq_none_iff_forall_ne_some.2 fun o ho => ?_, _, rfl⟩
    cases hs.symm.trans (exact.1 ⟨o, ho⟩)

def After {ε β : Type} (A : Multiset (Given E)) (got : β → Given E) : Except ε β → Host E → Prop
  | .error _ => Accounts A
  | .ok b => Accounts (got b ::ₘ A)

theorem openDatabase_keeps (honest : E.Honest) (path : Option String) (config : Config) :
    Keeps (Accounts A) (Host.openDatabase path config) (After A .base) := by
  refine Accounts.keeps fun D books => ?_
  refine library_keeps.bind fun found => ?_
  cases found with
  | error e => exact Alike.of_pure fun _ => .of_at books
  | ok library =>
    dsimp only
    split_ifs
    · exact Alike.of_pure fun _ => .of_at books
    refine defaults_keeps.bind fun usual => Alike.get_bind fun s hs => ?_
    have exact := honest.openDatabase (path.getD ":memory:") (config.overlay usual) s.engine
    refine Alike.bind (q := fun _ => At D (Stands (allStands D A)))
      (Alike.of_modify fun _ e => e ▸ hs) fun _ => ?_
    refine Alike.bind (booked_keeps (handOut_keeps _ rfl
      (show Asked (allStands D A) none from trivial))) fun object => ?_
    rintro s ⟨rfl, given, got⟩
    rcases require_cases exact given .database with ⟨rfl, f, required⟩ | ⟨o, rfl, required⟩
    · rw [required]
      exact ⟨rfl, books, got⟩
    · rw [required]
      obtain ⟨⟨kind, -⟩, L⟩ := got
      have pushed := (allStands_base _ s.databases.size A).trans
        (allStands_push (d := { object := o, library }) books one_ne_zero)
      exact ⟨rfl, books.push rfl kind, pushed ▸ L⟩

theorem retainDatabase_keeps (h : .base n ∈ A) :
    Keeps (Accounts A) (Host.retainDatabase n) fun _ => Accounts (.base n ::ₘ A) := by
  refine Alike.of_modify fun s hs => ?_
  obtain ⟨d, hd, owned⟩ := hs.books.exists_database h rfl
  have same := (allStands_base _ n A).trans (allStands_retain hd owned A)
  exact ⟨hs.books.retain hd, same ▸ hs.stands⟩

theorem dropDatabase_keeps : Keeps (Accounts (.base n ::ₘ A)) (Host.dropDatabase n)
    fun _ => Accounts A := by
  refine Accounts.keeps fun D books => ?_
  rw [allStands_base]
  obtain ⟨d, hd, owned⟩ := books.exists_database (Multiset.mem_cons_self _ A) rfl
  have released := books.release
  have change := allStands_reowned hd (· - 1) A
  refine Alike.bind (q := fun _ => At (reowned D n (· - 1)) (Stands (allStands D A)))
    (Alike.of_modify fun s hs => ⟨congrArg (reowned · n (· - 1)) hs.1, hs.2⟩) fun _ => ?_
  apply Alike.get_bind
  rintro s ⟨hD, L⟩
  have found : s.databases[n]? = some { d with owners := d.owners - 1 } := by
    rw [hD, getElem?_reowned, if_pos rfl, hd]
    rfl
  rw [found]
  dsimp only
  rw [Database.stands, if_neg owned] at change
  -- A connection owns its database, so nothing stands on one that nobody owns.
  split_ifs with last
  · rw [Database.stands, if_pos last, add_zero, add_comm, Multiset.singleton_add] at change
    rw [← change] at L
    have kind := books.kinds d (Array.mem_of_getElem? hd)
    have childless := released.childless L.notMem (by rw [kind]; decide)
    have destroyed : Keeps (At (reowned D n (· - 1)) _) (liftM (destroy _ _) : HostM E Unit) _ :=
      booked_keeps (destroy_keeps .databaseDestroy rfl
        (childless.cons (Option.some_ne_none _).symm))
    exact destroyed.weaken (fun _ e => e ▸ ⟨hD, L⟩) fun _ s => .of_at released
  · rw [Database.stands, if_neg last] at change
    rw [← add_right_cancel change] at L
    exact Alike.of_eq rfl (.of_at released ⟨hD, L⟩)

theorem connect_keeps (honest : E.Honest) (h : .base n ∈ A) :
    Keeps (Accounts A) (Host.connect n) (After A fun link => .link link) := by
  refine Accounts.keeps fun D books => Alike.get_bind fun s hs => ?_
  obtain ⟨d, hd, owned⟩ := books.exists_database h rfl
  have exact := honest.openConnection s.engine
  have here : d.object ∈ (allStands D A).map Prod.fst :=
    Multiset.mem_map_of_mem Prod.fst (mem_of_owned hd owned)
  rw [hs.1, hd]
  refine Alike.get_bind fun s' hs' => ?_
  subst hs'
  refine Alike.bind (q := fun _ => At D (Stands (allStands D A)))
    (Alike.of_modify fun _ e => e ▸ hs) fun _ => ?_
  refine Alike.bind (booked_keeps (handOut_keeps _ rfl
    (show Asked (allStands D A) (some (some d.object)) from here))) fun object => ?_
  rintro s ⟨rfl, given, got⟩
  rcases require_cases exact given .connection with ⟨rfl, f, required⟩ | ⟨o, rfl, required⟩
  · rw [required]
    exact ⟨rfl, books, got⟩
  · rw [required]
    obtain ⟨⟨kind, -⟩, L⟩ := got
    have stands : allStands (reowned s.databases n (· + 1)) (.link ⟨o, n⟩ ::ₘ A) =
        (o, some d.object) ::ₘ allStands s.databases A := by
      rw [allStands_link, allStands_retain hd owned, objectOf_reowned, objectOf, hd]
      rfl
    exact ⟨rfl, (books.retain hd).swap rfl kind, stands ▸ L⟩

theorem disconnect_keeps (linked : Linked A) : Keeps (Accounts (.link l ::ₘ A)) (Host.disconnect l)
    fun _ => Accounts A := by
  refine Alike.bind (q := fun _ => Accounts (.base l.database ::ₘ A)) ?_ fun _ => dropDatabase_keeps
  refine Accounts.keeps fun D books => ?_
  have released : Books D (.base l.database ::ₘ A) := books.swap rfl trivial
  rw [allStands_link]
  rintro s ⟨rfl, L⟩
  have childless := released.childless_of_linked (linked.cons_base _) (o := l.connection)
  rw [allStands_base] at childless
  have other : objectOf s.databases l.database ≠ some l.connection := by
    intro h
    cases (books.kind_of_objectOf h).symm.trans books.head
  have kept := destroy_keeps .connectionDestroy rfl ((childless L.notMem).cons other)
  exact ⟨rfl, released, allStands_base s.databases _ A ▸ kept.post L⟩

theorem execute_keeps (honest : E.Honest) (text : String) :
    Keeps (Accounts (.link l ::ₘ A)) (Host.execute l text)
      (After (.link l ::ₘ A) fun found => .buffer l found.1) := by
  refine Accounts.keeps fun D books => ?_
  have here : l.connection ∈ (allStands D (.link l ::ₘ A)).map Prod.fst := by
    rw [allStands_link]
    exact mem_self
  unfold Host.execute
  split_ifs
  · exact Alike.of_pure fun s => .of_at books
  refine Alike.get_bind fun s hs => ?_
  refine Alike.bind (q := fun _ => At D (Stands (allStands D (.link l ::ₘ A))))
    (Alike.of_modify fun _ e => e ▸ hs) fun _ => ?_
  have done := booked_keeps (E := E) (D := D)
    (Result.ofAnswers_keeps (honest.query text s.engine) here)
  refine done.weaken (fun _ => id) fun outcome s hs => ?_
  match outcome with
  | .error f => exact .of_at books hs
  | .ok (r, columns) =>
    obtain ⟨rfl, honest, L⟩ := hs
    exact ⟨books.cons ⟨books.head, honest⟩ rfl, allStands_buffer s.databases l r _ ▸ L⟩

theorem Accounts.fetch (hs : Accounts (.buffer l r ::ₘ A) s) :
    Accounts (.buffer l (s.booked r.fetch).1.2 ::ₘ A) (s.booked r.fetch).2 := by
  obtain ⟨kind, honest⟩ := hs.books.head
  have stands := allStands_buffer s.databases l r A ▸ hs.stands
  obtain ⟨⟨honest', -⟩, L⟩ :=
    (Result.fetch_keeps honest kind (hs.books.of_cons rfl).untupled).post stands
  exact hs.replace (b := .buffer l (s.booked r.fetch).1.2) rfl ⟨kind, honest'⟩ L

theorem Accounts.read (hs : Accounts (.buffer l r ::ₘ A) s) (row column : Nat) :
    Accounts (.buffer l r ::ₘ A) (s.booked (r.read row column)).2 := by
  obtain ⟨kind, honest⟩ := hs.books.head
  have stands := allStands_buffer s.databases l r A ▸ hs.stands
  exact hs.replace rfl ⟨kind, honest⟩ ((Result.read_keeps honest row column).post stands)

theorem Accounts.dispose (hs : Accounts (.buffer l r ::ₘ A) s) :
    Accounts (.receipt ::ₘ A) (s.booked r.dispose).2 := by
  obtain ⟨kind, honest⟩ := hs.books.head
  have rest := hs.books.of_cons rfl
  have stands := allStands_buffer s.databases l r A ▸ hs.stands
  have childless : Childless r.object (allStands s.databases A) := by
    refine rest.childless (fun h => ?_) (by rw [honest.kind]; decide)
    rw [Result.stands, Multiset.cons_add] at stands
    exact stands.notMem (Multiset.map_add Prod.fst _ _ ▸ Multiset.mem_add.2 (.inr h))
  have L := (Result.dispose_keeps honest kind rest.untupled childless).post stands
  exact hs.replace (b := .receipt) rfl trivial ((zero_add (allStands s.databases A)).symm ▸ L)

end QueryLease.Engine

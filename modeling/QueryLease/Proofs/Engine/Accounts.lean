import QueryLease.Proofs.Engine.Results
import QueryLease.Proofs.Pool.Upkeep
import QueryLease.Source.Foreign

namespace QueryLease

open Engine

/-- Of an engine the driver takes for granted that success gives an object, and that a failure to
open a database or a connection gives none. -/
structure Engine.Honest (E : Engine) : Prop where
  openDatabase : ∀ path config s, (E.openDatabase path config s).1.Exact
  openConnection : ∀ s, (E.openConnection s).1.Exact
  query : ∀ text s, ∀ turn ∈ (E.query text s).1.turns, turn.Honest

namespace Engine

variable {E : Engine}

def objectOf (databases : Array Database) (n : Nat) : Option Object :=
  databases[n]?.map (·.object)

def Database.stands (d : Database) : Multiset Stand :=
  if d.owners = 0 then 0 else {(d.object, none)}

def Link.stands (databases : Array Database) (l : Link) : Multiset Stand :=
  {(l.connection, objectOf databases l.database)}

abbrev Given (E : Engine) := Asset (Source.foreign E) Nat

namespace Given

def stands (databases : Array Database) : Given E → Multiset Stand
  | .link l => Link.stands databases l
  | .buffer l r => Result.stands (Link.connection l) r
  | .receipt | .base _ => 0

def database? : Given E → Option Nat
  | .link l => some (Link.database l)
  | .base n => some n
  | .buffer _ _ | .receipt => none

def Sound : Given E → Prop
  | .link l => (Link.connection l).kind = .connection
  | .buffer l r => (Link.connection l).kind = .connection ∧ Result.Honest r
  | .receipt | .base _ => True

end Given

def allStands (databases : Array Database) (A : Multiset (Given E)) : Multiset Stand :=
  A.bind (Given.stands databases) + (databases.toList.map Database.stands).sum

structure Books (databases : Array Database) (A : Multiset (Given E)) : Prop where
  sound : ∀ a ∈ A, Given.Sound a
  kinds : ∀ d ∈ databases, d.object.kind = .database
  owners : ∀ n, (A.map Given.database?).count (some n) = databases[n]?.elim 0 (·.owners)

variable {databases : Array Database} {A : Multiset (Given E)} {a : Given E} {X : Multiset Stand}
  {e : Stand} {o : Object} {n : Nat} {d : Database}

theorem allStands_cons (databases : Array Database) (a : Given E) (A : Multiset (Given E)) :
    allStands databases (a ::ₘ A) = Given.stands databases a + allStands databases A := by
  rw [allStands, Multiset.cons_bind, add_assoc]
  rfl

theorem allStands_base (databases : Array Database) (n : Nat) (A : Multiset (Given E)) :
    allStands databases (.base n ::ₘ A) = allStands databases A :=
  (allStands_cons databases (.base n) A).trans (zero_add _)

theorem allStands_link (databases : Array Database) (l : Link) (A : Multiset (Given E)) :
    allStands databases (.link l ::ₘ A) =
      (l.connection, objectOf databases l.database) ::ₘ allStands databases A :=
  (allStands_cons databases (.link l) A).trans (Multiset.singleton_add _ _)

theorem allStands_buffer (databases : Array Database) (l : Link) (r : Result)
    (A : Multiset (Given E)) :
    allStands databases (.buffer l r ::ₘ A) = r.stands l.connection + allStands databases A :=
  allStands_cons databases (.buffer l r) A

theorem mem_of_given (ha : a ∈ A) (he : e ∈ Given.stands databases a) : e ∈ allStands databases A :=
  Multiset.mem_add.2 (.inl (Multiset.mem_bind.2 ⟨a, ha, he⟩))

theorem mem_of_owned (hd : databases[n]? = some d) (h : d.owners ≠ 0) :
    (d.object, none) ∈ allStands databases A := by
  refine Multiset.mem_add.2 (.inr (Pool.mem_sum_map.2 ⟨d, (Array.mem_of_getElem? hd).val, ?_⟩))
  rw [Database.stands, if_neg h]
  exact Multiset.mem_singleton_self _

theorem count_database (a : Given E) (A : Multiset (Given E)) (n : Nat) :
    ((a ::ₘ A).map Given.database?).count (some n) =
      (A.map Given.database?).count (some n) + if some n = a.database? then 1 else 0 := by
  rw [Multiset.map_cons, Multiset.count_cons]

theorem count_base (n : Nat) (A : Multiset (Given E)) (m : Nat) :
    ((.base n ::ₘ A).map Given.database?).count (some m) =
      (A.map Given.database?).count (some m) + if n = m then 1 else 0 := by
  simp only [count_database, Given.database?, Option.some.injEq, eq_comm]

namespace Books

theorem cons (h : Books databases A) (hs : a.Sound) (hn : a.database? = none) :
    Books databases (a ::ₘ A) where
  sound := Multiset.forall_mem_cons.2 ⟨hs, h.sound⟩
  kinds := h.kinds
  owners n := by
    rw [count_database, hn]
    exact h.owners n

theorem of_cons (h : Books databases (a ::ₘ A)) (hn : a.database? = none) : Books databases A where
  sound := (Multiset.forall_mem_cons.1 h.sound).2
  kinds := h.kinds
  owners n := by
    have := h.owners n
    rwa [count_database, hn] at this

theorem swap {b : Given E} (h : Books databases (a ::ₘ A)) (same : b.database? = a.database?)
    (hb : b.Sound) : Books databases (b ::ₘ A) where
  sound := Multiset.forall_mem_cons.2 ⟨hb, (Multiset.forall_mem_cons.1 h.sound).2⟩
  kinds := h.kinds
  owners n := by
    rw [count_database, same, ← count_database]
    exact h.owners n

theorem head (h : Books databases (a ::ₘ A)) : a.Sound := h.sound a (Multiset.mem_cons_self a A)

theorem kind_of_objectOf (h : Books databases A) (ho : objectOf databases n = some o) :
    o.kind = .database := by
  obtain ⟨d, hd, rfl⟩ := Option.map_eq_some_iff.1 ho
  exact h.kinds d (Array.mem_of_getElem? hd)

theorem exists_database (h : Books databases A) (ha : a ∈ A) (hn : a.database? = some n) :
    ∃ d, databases[n]? = some d ∧ d.owners ≠ 0 := by
  have owners := h.owners n
  have pos := Multiset.count_pos.2 (Multiset.mem_map.2 ⟨a, ha, hn⟩)
  cases hd : databases[n]? with
  | none =>
    rw [hd, Option.elim_none] at owners
    omega
  | some d =>
    rw [hd, Option.elim_some] at owners
    exact ⟨d, rfl, by omega⟩

theorem parent (h : Books databases A) (he : e ∈ allStands databases A) (ho : e.2 = some o) :
    ((o.kind = .database ∨ o.kind = .result) ∧ o ∈ (allStands databases A).map Prod.fst) ∨
      (o.kind = .connection ∧ ∃ (l : Link) (r : Result), .buffer l r ∈ A ∧ l.connection = o) := by
  rcases Multiset.mem_add.1 he with he | he
  · obtain ⟨a, ha, he⟩ := Multiset.mem_bind.1 he
    cases a with
    | link l =>
      obtain ⟨d, hd, owned⟩ := h.exists_database ha rfl
      obtain rfl := Multiset.mem_singleton.1 he
      rw [objectOf, hd] at ho
      obtain rfl := Option.some.inj ho
      exact .inl ⟨.inl (h.kinds d (Array.mem_of_getElem? hd)),
        Multiset.mem_map_of_mem Prod.fst (mem_of_owned hd owned)⟩
    | buffer l r =>
      obtain ⟨kind, honest⟩ := h.sound _ ha
      rcases Multiset.mem_cons.1 he with rfl | he
      · obtain rfl := Option.some.inj ho
        exact .inr ⟨kind, l, r, ha, rfl⟩
      · obtain rfl := Option.some.inj ((Result.parent_of_mem_onTuple he).symm.trans ho)
        exact .inl ⟨.inr honest.kind,
          Multiset.mem_map_of_mem Prod.fst (mem_of_given ha (Multiset.mem_cons_self _ _))⟩
    | receipt => exact absurd he (Multiset.notMem_zero _)
    | base n => exact absurd he (Multiset.notMem_zero _)
  · obtain ⟨d, -, he⟩ := Pool.mem_sum_map.1 he
    unfold Database.stands at he
    split_ifs at he
    · exact absurd he (Multiset.notMem_zero _)
    · obtain rfl := Multiset.mem_singleton.1 he
      cases ho

theorem untupled (h : Books databases A) : Result.Untupled (allStands databases A) := by
  intro e he o ho kind
  rcases h.parent he ho with ⟨k | k, -⟩ | ⟨k, -⟩
  · cases k.symm.trans kind
  · cases k.symm.trans kind
  · cases k.symm.trans kind

theorem childless (h : Books databases A) (ho : o ∉ (allStands databases A).map Prod.fst)
    (kind : o.kind ≠ .connection) : Childless o (allStands databases A) := by
  intro e he same
  rcases h.parent he same with ⟨-, ho'⟩ | ⟨kind', -⟩
  · exact ho ho'
  · exact kind kind'

theorem childless_of_linked (h : Books databases A) (linked : Linked A)
    (ho : o ∉ (allStands databases A).map Prod.fst) : Childless o (allStands databases A) := by
  intro e he same
  rcases h.parent he same with ⟨-, ho'⟩ | ⟨-, l, r, hb, rfl⟩
  · exact ho ho'
  · have standing : _ ∈ allStands databases A :=
      mem_of_given (linked l r hb) (Multiset.mem_singleton_self _)
    exact ho (Multiset.mem_map_of_mem Prod.fst standing)

end Books

def reowned (databases : Array Database) (n : Nat) (f : Nat → Nat) : Array Database :=
  databases.modify n fun d => { d with owners := f d.owners }

theorem getElem?_reowned (f : Nat → Nat) (m : Nat) : (reowned databases n f)[m]? =
    if n = m then databases[m]?.map fun d => { d with owners := f d.owners } else databases[m]? :=
  Array.getElem?_modify

theorem objectOf_reowned (databases : Array Database) (n : Nat) (f : Nat → Nat) (m : Nat) :
    objectOf (reowned databases n f) m = objectOf databases m := by
  rw [objectOf, objectOf, getElem?_reowned]
  split_ifs
  · rw [Option.map_map]
    rfl
  · rfl

theorem stands_congr {databases' : Array Database}
    (h : ∀ n, a.database? = some n → objectOf databases' n = objectOf databases n) :
    Given.stands databases' a = Given.stands databases a := by
  cases a with
  | link l => exact congrArg (fun p => {((Link.connection l), p)}) (h _ rfl)
  | buffer l r => rfl
  | receipt => rfl
  | base n => rfl

theorem allStands_reowned (hd : databases[n]? = some d) (f : Nat → Nat) (A : Multiset (Given E)) :
    allStands (reowned databases n f) A + d.stands =
      allStands databases A + Database.stands { d with owners := f d.owners } := by
  unfold allStands
  rw [add_assoc, add_assoc, reowned, Array.toList_modify,
    Pool.sum_map_modify Database.stands _ (by simpa using hd)]
  exact congrArg (· + _) (Multiset.bind_congr fun a _ =>
    stands_congr fun m _ => objectOf_reowned databases n f m)

theorem allStands_retain (hd : databases[n]? = some d) (owned : d.owners ≠ 0)
    (A : Multiset (Given E)) :
    allStands (reowned databases n (· + 1)) A = allStands databases A := by
  have := allStands_reowned hd (· + 1) A
  rw [Database.stands, Database.stands, if_neg owned, if_neg (Nat.succ_ne_zero _)] at this
  exact add_right_cancel this

theorem allStands_push (h : Books databases A) (hd : d.owners ≠ 0) :
    allStands (databases.push d) A = (d.object, none) ::ₘ allStands databases A := by
  unfold allStands
  rw [Array.toList_push, List.map_append, List.sum_append, List.map_singleton, List.sum_singleton,
    Database.stands, if_neg hd, ← add_assoc, add_comm, Multiset.singleton_add]
  refine congrArg _ (congrArg (· + _) (Multiset.bind_congr fun a ha => stands_congr fun m hm => ?_))
  obtain ⟨d', hd', -⟩ := h.exists_database ha hm
  have hlt := (Array.getElem?_eq_some_iff.1 hd').1
  rw [objectOf, objectOf, Array.getElem?_push, if_neg (by omega)]

namespace Books

theorem kinds_reowned (h : Books databases A) (f : Nat → Nat) :
    ∀ d ∈ reowned databases n f, d.object.kind = .database := by
  intro d hd
  obtain ⟨m, hm⟩ := Array.getElem?_of_mem hd
  have same := objectOf_reowned databases n f m
  rw [objectOf, hm] at same
  exact h.kind_of_objectOf same.symm

theorem retain (h : Books databases A) (hd : databases[n]? = some d) :
    Books (reowned databases n (· + 1)) (.base n ::ₘ A) where
  sound := Multiset.forall_mem_cons.2 ⟨trivial, h.sound⟩
  kinds := h.kinds_reowned _
  owners m := by
    rw [count_base, h.owners, getElem?_reowned]
    split_ifs with hm
    · rw [← hm, hd]
      rfl
    · rfl

theorem release (h : Books databases (.base n ::ₘ A)) : Books (reowned databases n (· - 1)) A where
  sound := (Multiset.forall_mem_cons.1 h.sound).2
  kinds := h.kinds_reowned _
  owners m := by
    have owners := h.owners m
    rw [count_base] at owners
    rw [getElem?_reowned]
    split_ifs at owners ⊢ with hm
    · subst hm
      obtain ⟨d, hd, -⟩ := h.exists_database (Multiset.mem_cons_self _ A) rfl
      rw [hd] at owners ⊢
      exact Nat.eq_sub_of_add_eq owners
    · exact owners

theorem push (h : Books databases A) (hd : d.owners = 1) (kind : d.object.kind = .database) :
    Books (databases.push d) (.base databases.size ::ₘ A) where
  sound := Multiset.forall_mem_cons.2 ⟨trivial, h.sound⟩
  kinds d' hd' := by
    rcases Array.mem_push.1 hd' with hd' | rfl
    · exact h.kinds d' hd'
    · exact kind
  owners m := by
    rw [count_base, h.owners, Array.getElem?_push]
    by_cases hm : databases.size = m
    · rw [if_pos hm, if_pos hm.symm, ← hm, Array.getElem?_size]
      exact hd.symm
    · rw [if_neg hm, if_neg (Ne.symm hm)]
      rfl

end Books

end Engine

end QueryLease

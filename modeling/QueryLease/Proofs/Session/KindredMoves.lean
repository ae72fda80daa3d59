import QueryLease.Proofs.Session.Kindred

namespace QueryLease.Session

open Pool

variable {O W : Type} [Preorder W] {K : Kinship Venue.tables.source O W} {v w : W}
  {p h k : Nat}

inductive Outlined (twin : Nat → Nat → Prop)
    (beside : Pool Venue.tables.source → Pool Venue.tables.source → Prop) : String → String → Prop
  | pool {p q : Pool Venue.tables.source} : beside p q → Outlined twin beside p.outline q.outline
  | result {p q : Pool Venue.tables.source} {h k : Nat} : twin h k → q.columns k = p.columns h →
    q.word k = p.word h → Outlined twin beside (p.resultOutline h) (q.resultOutline k)
  | handle {p q : Pool Venue.tables.source} {h k : Nat} : twin h k → q.columns k = p.columns h →
    q.word k = p.word h → Outlined twin beside (p.handleOutline h) (q.handleOutline k)
  | cursor (position : Position Venue.tables.source) (fetched : Nat) {h k : Nat} : twin h k →
    Outlined twin beside (Cursor.outline ⟨h, position, fetched⟩)
      (Cursor.outline ⟨k, position, fetched⟩)
  | row (token : Venue.tables.source.Row) (index : Nat) {h k : Nat} : twin h k →
    Outlined twin beside (Row.outline ⟨h, token, index⟩) (Row.outline ⟨k, token, index⟩)

inductive Informed (twin : Nat → Nat → Prop) : HandleInfo → HandleInfo → Prop
  | handle (word : Lease.Word) (columns : List String) {h k : Nat} : twin h k →
    Informed twin { number := number h, word, columns } { number := number k, word, columns }

def Move.Kin (K : Kinship Venue.tables.source O W) (w : W) : Move → Answer → Answer → Prop
  | query .. => fun a b => ∃ h k columns, K.twin w h k ∧ a = .opened (number h) columns ∧
    b = .opened (number k) columns
  | handleInfo _ => fun a b => ∃ i j, Informed (K.twin w) i j ∧ a = .handle i ∧ b = .handle j
  | guardInfo _ => fun a b => ∃ i j, Informed (K.twin w) i j ∧ a = .guard i ∧ b = .guard j
  | collect _ => fun a b => ∃ m n, a = .count m ∧ b = .count n
  | mode _ => fun a b => ∃ m n, K.modes m n ∧ a = .mode m ∧ b = .mode n
  | outline _ => fun a b => ∃ s t, Outlined (K.twin w) (Looked K w) s t ∧ a = .text s ∧ b = .text t
  | _ => Eq

theorem Outlined.imp {T T' : Nat → Nat → Prop}
    {B B' : Pool Venue.tables.source → Pool Venue.tables.source → Prop} {s t : String}
    (h : Outlined T B s t) (hT : ∀ {h k}, T h k → T' h k) (hB : ∀ {p q}, B p q → B' p q) :
    Outlined T' B' s t := by
  cases h with
  | pool beside => exact .pool (hB beside)
  | result ht columns word => exact .result (hT ht) columns word
  | handle ht columns word => exact .handle (hT ht) columns word
  | cursor position fetched ht => exact .cursor position fetched (hT ht)
  | row token index ht => exact .row token index (hT ht)

theorem Informed.imp {T T' : Nat → Nat → Prop} {i j : HandleInfo} (h : Informed T i j)
    (hT : ∀ {h k}, T h k → T' h k) : Informed T' i j := by
  obtain ⟨word, columns, ht⟩ := h
  exact .handle word columns (hT ht)

namespace Kindred

theorem columns {q q' : Pool Venue.tables.source} (looked : Looked K w q q') (ht : K.twin w h k) :
    q'.columns k = q.columns h := by
  obtain ⟨o, d, e, r, rfl, rfl⟩ := looked
  exact K.columns r ht

theorem word {q q' : Pool Venue.tables.source} (looked : Looked K w q q') (ht : K.twin w h k) :
    q'.word k = q.word h := by
  obtain ⟨o, d, e, r, rfl, rfl⟩ := looked
  exact K.word r ht

theorem handleInfo (p : Nat) (ht : K.twin w h k) :
    Kindred K w (Session.handleInfo p h) (Session.handleInfo p k) fun w => Informed (K.twin w) := by
  refine (pool p).bind fun v q q' hv looked => ?_
  have ht := K.twin_mono hv ht
  rw [columns looked ht, word looked ht]
  exact pure (.handle _ _ ht)

theorem outline {a b : Object .tables} (hab : a.Kin K w b) :
    Kindred K w (Session.outline a) (Session.outline b)
      fun w => Outlined (K.twin w) (Looked K w) := by
  cases hab with
  | connection p => exact (pool p).bind fun _ q q' _ looked => pure (.pool looked)
  | result p ht =>
    refine (pool p).bind fun v q q' hv looked => ?_
    have ht := K.twin_mono hv ht
    exact pure (.result ht (columns looked ht) (word looked ht))
  | handle p ht =>
    refine (pool p).bind fun v q q' hv looked => ?_
    have ht := K.twin_mono hv ht
    exact pure (.handle ht (columns looked ht) (word looked ht))
  | @cursor _ c c' hc =>
    obtain ⟨h, position, fetched⟩ := c
    obtain ⟨k, _, _⟩ := c'
    obtain ⟨ht, rfl, rfl⟩ := hc
    exact pure (.cursor position fetched ht)
  | @row _ r r' hr =>
    obtain ⟨h, token, index⟩ := r
    obtain ⟨k, _, _⟩ := r'
    obtain ⟨ht, rfl, rfl⟩ := hr
    exact pure (.row token index ht)
  | guard _ _ => exact bad
  | rawRow _ => exact bad

theorem keepRow {r r' : Row Venue.tables.source} (p : Nat) (hr : r.Kin K w r')
    (name : Option String) :
    Kindred K w (Session.keepRow p r name) (Session.keepRow p r' name) fun _ _ _ => True := by
  cases name with
  | some name => exact keep name (.row p hr)
  | none => exact (onPool p (K.drop hr.handle)).ignore

theorem view {r r' : Row Venue.tables.source} (p : Nat) (hr : r.Kin K w r') (column : Nat) :
    Kindred K w (Session.view p r column) (Session.view p r' column) Same := by
  refine (onPool p (Row.checkColumn_akin hr column)).bind fun v checked _ hv same => ?_
  obtain rfl := same
  have hr := hr.mono hv
  refine (ofExcept_same checked).bind fun v _ _ hv _ => ?_
  have hr := hr.mono hv
  refine (onPool p (Row.columns_akin hr)).bind fun v columns _ hv same => ?_
  obtain rfl := same
  have hr := hr.mono hv
  refine (onPool p (Row.read_akin hr column _)).bind fun v isNull _ hv same => ?_
  obtain rfl := same
  refine (onPool p (Row.read_akin (hr.mono hv) column _)).bind fun v value _ _ same => ?_
  obtain rfl := same
  exact pure rfl

theorem collectRows (p : Nat) (ht : K.twin w h k) (wanted : Wanted) :
    Kindred K w (Session.collectRows p h wanted) (Session.collectRows p k wanted) Same := by
  have collected {γ : Type}
      {map : Row Venue.tables.source → PoolM Venue.tables.source (Except Error γ)}
      (hm : ∀ w r r', r.Kin K w r' → Akin K.rel w (map r) (map r') Same) :
      Kindred K w (Session.onPool p (Pool.collectRows id h map))
        (Session.onPool p (Pool.collectRows id k map)) Same :=
    onPool p (collectRows_akin K.pool ht hm)
  have listed {γ : Type} (f : γ → Answer) {w : W} {x y : Except Error (List γ)} (same : x = y) :
      Kindred K w (do return (← Session.ofExcept x).map f : StepM .tables _)
        (do return (← Session.ofExcept y).map f) Same := by
    rw [same]
    exact (ofExcept_same y).bind fun _ a b _ (same : a = b) => pure (congrArg (List.map f) same)
  cases wanted with
  | all => exact (collected fun w r r' hr => Row.values_akin hr).bind fun _ _ _ _ => listed _
  | column n =>
    exact (collected fun w r r' hr => Row.getValue_akin hr n).bind fun _ _ _ _ => listed _
  | named name =>
    exact (collected fun w r r' hr => Row.getByName_akin hr name).bind fun _ _ _ _ => listed _

theorem rawFetch (p : Nat) (ht : K.twin w h k) (name : String) :
    Kindred K w (Session.rawFetch p h name) (Session.rawFetch p k name) Same := by
  refine (onPool p (K.fetch ht)).bind fun v fetched _ _ same => ?_
  obtain rfl := same
  match fetched with
  | .error f => exact fail (.engine f)
  | .ok none => exact pure rfl
  | .ok (some token) => exact (keep name (.rawRow token)).bind fun _ _ _ _ _ => pure rfl

theorem answer {γ : Type} (f : γ → Answer) {x y : Except Error γ} (same : x = y) :
    Kindred K w (do return f (← Session.ofExcept x) : StepM .tables _)
      (do return f (← Session.ofExcept y)) Same := by
  rw [same]
  exact (ofExcept_same y).bind fun _ a b _ (same : a = b) => pure (congrArg f same)

theorem move (m : Move) (hm : ∀ c, m = .releaseAll c → ∀ w,
    Akin K.rel w Pool.releaseAll Pool.releaseAll Same) :
    Kindred K w (m.perform (V := .tables)) m.perform fun w => m.Kin K w := by
  -- A move is a chain of operations, each of which is akin to its twin.
  cases m with
  | query c text name =>
    refine (connection c).bind fun v p _ _ same => ?_
    obtain rfl := same
    refine (onPool p (K.query text)).bind fun v x y _ both => ?_
    refine (Kindred.ofExcept both).bind fun v h k _ ht => ?_
    refine (Kindred.pool p).bind fun v q q' hv looked => ?_
    have ht := K.twin_mono hv ht
    rw [columns looked ht]
    exact (keep name (.result p ht)).bind fun _ _ _ hv _ =>
      pure ⟨h, k, _, K.twin_mono hv ht, rfl, rfl⟩
  | run c text =>
    refine (connection c).bind fun v p _ _ same => ?_
    obtain rfl := same
    refine (onPool p (run_akin text)).bind fun v x _ _ same => ?_
    obtain rfl := same
    exact (ofExcept_same x).bind fun _ _ _ _ _ => pure rfl
  | cloneConnection c name =>
    refine (connection c).bind fun v p _ _ same => ?_
    obtain rfl := same
    refine (onPool p K.join).bind fun v _ _ _ _ => ?_
    exact (keep name (.connection p)).bind fun _ _ _ _ _ => pure rfl
  | drop name => exact (forget name).bind fun _ _ _ _ _ => pure rfl
  | close r =>
    refine (result r).bind ?_
    rintro v ⟨p, h⟩ ⟨_, k⟩ _ ⟨rfl, ht⟩
    exact (onPool p (K.requestRelease ht)).bind fun _ a b _ (same : a = b) => pure (same ▸ rfl)
  | info r =>
    refine (result r).bind ?_
    rintro v ⟨p, h⟩ ⟨_, k⟩ _ ⟨rfl, ht⟩
    refine (Kindred.pool p).bind fun v q q' hv looked => ?_
    have ht := K.twin_mono hv ht
    rw [columns looked ht, word looked ht]
    exact pure rfl
  | cursor r name =>
    refine (result r).bind ?_
    rintro v ⟨p, h⟩ ⟨_, k⟩ _ ⟨rfl, ht⟩
    refine (onPool p (Cursor.take_akin ht)).bind fun v x y _ both => ?_
    refine (Kindred.ofExcept both).bind fun v c c' _ hc => ?_
    exact (keep name (.cursor p hc)).bind fun _ _ _ _ _ => pure rfl
  | advance k =>
    refine (cursor k).bind ?_
    rintro v ⟨p, c⟩ ⟨_, c'⟩ _ ⟨rfl, hc⟩
    refine (onPool p (Cursor.advance_akin hc)).bind ?_
    rintro v ⟨moved, c⟩ ⟨_, c'⟩ _ ⟨rfl, hc⟩
    refine (replace k (.cursor p hc)).bind fun _ _ _ _ _ => ?_
    exact answer .flag rfl
  | next k name =>
    refine (cursor k).bind ?_
    rintro v ⟨p, c⟩ ⟨_, c'⟩ _ ⟨rfl, hc⟩
    refine (onPool p (Cursor.next_akin hc)).bind ?_
    rintro v ⟨found, c⟩ ⟨found', c'⟩ _ ⟨both, hc⟩
    refine (replace k (.cursor p hc)).bind fun v _ _ hv _ => ?_
    match found, found', both with
    | none, none, _ => exact pure rfl
    | some (.error e), some (.error _), .some rfl => exact fail e
    | some (.ok r), some (.ok r'), .some hr =>
      have hr : r.Kin K v r' := Row.Kin.mono hr hv
      refine (keepRow p hr name).bind fun _ _ _ _ _ => ?_
      rw [hr.index]
      exact pure rfl
  | currentRow k name =>
    refine (cursor k).bind ?_
    rintro v ⟨p, c⟩ ⟨_, c'⟩ _ ⟨rfl, hc⟩
    refine (onPool p (Cursor.currentRow_akin hc)).bind fun v x y _ both => ?_
    refine (Kindred.ofExcept both).bind fun v r r' _ hr => ?_
    refine (keep name (.row p hr)).bind fun _ _ _ _ _ => ?_
    rw [hr.index]
    exact pure rfl
  | cursorInfo k =>
    refine (cursor k).bind ?_
    rintro v ⟨p, ⟨h, position, fetched⟩⟩ ⟨_, ⟨k, _, _⟩⟩ _ ⟨rfl, ⟨ht, rfl, rfl⟩⟩
    refine (Kindred.pool p).bind fun v q q' hv looked => ?_
    rw [columns looked (K.twin_mono hv ht)]
    exact pure rfl
  | rowInfo w =>
    refine (row w).bind ?_
    rintro v ⟨p, r⟩ ⟨_, r'⟩ _ ⟨rfl, hr⟩
    refine (onPool p (Row.columns_akin hr)).bind fun _ a b _ (same : a = b) => ?_
    rw [hr.index, same]
    exact pure rfl
  | cloneRow w name =>
    refine (row w).bind ?_
    rintro v ⟨p, r⟩ ⟨_, r'⟩ _ ⟨rfl, hr⟩
    refine (onPool p (Row.clone_akin hr)).bind fun v r r' _ hr => ?_
    exact (keep name (.row p hr)).bind fun _ _ _ _ _ => pure rfl
  | get w column =>
    refine (row w).bind ?_
    rintro v ⟨p, r⟩ ⟨_, r'⟩ _ ⟨rfl, hr⟩
    exact (onPool p (Row.getValue_akin hr column)).bind fun _ _ _ _ same => answer .value same
  | getByName w name =>
    refine (row w).bind ?_
    rintro v ⟨p, r⟩ ⟨_, r'⟩ _ ⟨rfl, hr⟩
    exact (onPool p (Row.getByName_akin hr name)).bind fun _ _ _ _ same => answer .value same
  | values w =>
    refine (row w).bind ?_
    rintro v ⟨p, r⟩ ⟨_, r'⟩ _ ⟨rfl, hr⟩
    exact (onPool p (Row.values_akin hr)).bind fun _ _ _ _ same => answer .values same
  | view w column =>
    refine (row w).bind ?_
    rintro v ⟨p, r⟩ ⟨_, r'⟩ _ ⟨rfl, hr⟩
    exact (Kindred.view p hr column).bind fun _ a b _ (same : a = b) => pure (same ▸ rfl)
  | collectRows r wanted =>
    refine (result r).bind ?_
    rintro v ⟨p, h⟩ ⟨_, k⟩ _ ⟨rfl, ht⟩
    exact (Kindred.collectRows p ht wanted).bind fun _ a b _ (same : a = b) => pure (same ▸ rfl)
  | handle x name =>
    refine (owned x).bind ?_
    rintro v ⟨p, h⟩ ⟨_, k⟩ _ ⟨rfl, ht⟩
    refine (onPool p (K.retain ht)).bind fun v _ _ hv _ => ?_
    exact (keep name (.handle p (K.twin_mono hv ht))).bind fun _ _ _ _ _ => pure rfl
  | acquire x name =>
    refine (owned x).bind ?_
    rintro v ⟨p, h⟩ ⟨_, k⟩ _ ⟨rfl, ht⟩
    refine (onPool p (K.acquire ht)).bind fun v started _ hv same => ?_
    obtain rfl := same
    have ht := K.twin_mono hv ht
    refine (ofExcept_same started).bind fun v _ _ hv _ => ?_
    have ht := K.twin_mono hv ht
    refine (onPool p (K.retain ht)).bind fun v _ _ hv _ => ?_
    exact (keep name (.guard p (K.twin_mono hv ht))).bind fun _ _ _ _ _ => pure rfl
  | release x =>
    refine (owned x).bind ?_
    rintro v ⟨p, h⟩ ⟨_, k⟩ _ ⟨rfl, ht⟩
    exact (onPool p (K.requestRelease ht)).bind fun _ a b _ (same : a = b) => pure (same ▸ rfl)
  | handleInfo x =>
    refine (owned x).bind ?_
    rintro v ⟨p, h⟩ ⟨_, k⟩ _ ⟨rfl, ht⟩
    exact (Kindred.handleInfo p ht).bind fun _ i j _ informed => pure ⟨i, j, informed, rfl, rfl⟩
  | guardInfo g =>
    refine (guard g).bind ?_
    rintro v ⟨p, h⟩ ⟨_, k⟩ _ ⟨rfl, ht⟩
    exact (Kindred.handleInfo p ht).bind fun _ i j _ informed => pure ⟨i, j, informed, rfl, rfl⟩
  | rawFetch g name =>
    refine (guard g).bind ?_
    rintro v ⟨p, h⟩ ⟨_, k⟩ _ ⟨rfl, ht⟩
    exact (Kindred.rawFetch p ht name).bind fun _ a b _ (same : a = b) => pure (same ▸ rfl)
  | rawRead w g column =>
    refine (rawRow w).bind fun v token _ _ same => ?_
    obtain rfl := same
    refine (guard g).bind ?_
    rintro v ⟨p, h⟩ ⟨_, k⟩ _ ⟨rfl, ht⟩
    exact (onPool p (K.readCell token column ht)).bind fun _ _ _ _ same => answer .cell same
  | collect c =>
    refine (connection c).bind fun v p _ _ same => ?_
    obtain rfl := same
    exact (onPool p K.collect).bind fun _ m n _ _ => pure ⟨m, n, rfl, rfl⟩
  | releaseAll c =>
    refine (connection c).bind fun v p _ _ same => ?_
    obtain rfl := same
    exact (onPool p (hm c rfl v)).bind fun _ a b _ (same : a = b) => pure (same ▸ rfl)
  | mode c =>
    refine (connection c).bind fun v p _ _ same => ?_
    obtain rfl := same
    refine (Kindred.pool p).bind ?_
    rintro v _ _ _ ⟨o, d, e, r, rfl, rfl⟩
    exact pure ⟨_, _, K.mode r, rfl, rfl⟩
  | outline name =>
    refine (find name).bind fun v x y _ hxy => ?_
    exact (Kindred.outline hxy).bind fun _ s t _ outlined => pure ⟨s, t, outlined, rfl, rfl⟩

end Kindred

end QueryLease.Session

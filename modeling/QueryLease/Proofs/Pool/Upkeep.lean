import Mathlib.Data.Multiset.Bind
import QueryLease.Proofs.Pool.Leased

namespace QueryLease

inductive Asset (S : Source) (B : Type) where
  | link (l : S.Link)
  | buffer (l : S.Link) (b : S.Buffer)
  | receipt
  | base (b : B)

variable {S : Source} {B : Type}

def Linked (A : Multiset (Asset S B)) : Prop := ∀ l b, .buffer l b ∈ A → .link l ∈ A

/-- A relation between the assets of a source and its state that every call on the source keeps, as
long as a call is made on what stands, and a link ends after its buffers. -/
structure Upkeep (S : Source) (B : Type) where
  Good : Multiset (Asset S B) → S.State → Prop
  execute_ok {A l text s b columns} : Good (.link l ::ₘ A) s →
    (S.execute l text s).1 = .ok (b, columns) →
      Good (.link l ::ₘ .buffer l b ::ₘ A) (S.execute l text s).2
  execute_error {A l text s f} : Good (.link l ::ₘ A) s →
    (S.execute l text s).1 = .error f → Good (.link l ::ₘ A) (S.execute l text s).2
  fetch {A l b s} : Good (.buffer l b ::ₘ A) s →
    Good (.buffer l (S.fetch l b s).2.1 ::ₘ A) (S.fetch l b s).2.2
  read {A l b row column s} : Good (.buffer l b ::ₘ A) s →
    Good (.buffer l b ::ₘ A) (S.read l b row column s).2
  dispose {A l b s} : Good (.buffer l b ::ₘ A) s → Good (.receipt ::ₘ A) (S.dispose l b s)
  close {A l s} : Good (.link l ::ₘ A) s → Linked A → Good A (S.close l s)

namespace Linked

variable {A A' : Multiset (Asset S B)}

theorem add (h : Linked A) (h' : Linked A') : Linked (A + A') := by
  intro l b hb
  rcases Multiset.mem_add.1 hb with hb | hb
  · exact Multiset.mem_add.2 (.inl (h l b hb))
  · exact Multiset.mem_add.2 (.inr (h' l b hb))

theorem cons_base (h : Linked A) (b : B) : Linked (.base b ::ₘ A) := by
  intro l x hx
  rcases Multiset.mem_cons.1 hx with hx | hx
  · cases hx
  · exact Multiset.mem_cons_of_mem (h l x hx)

theorem zero : Linked (0 : Multiset (Asset S B)) := fun _ _ hb => absurd hb (Multiset.notMem_zero _)

theorem of_bases (bases : Multiset B) : Linked (bases.map (Asset.base : B → Asset S B)) := by
  intro l b hb
  obtain ⟨_, -, h⟩ := Multiset.mem_map.1 hb
  cases h

theorem of_receipts (n : Nat) : Linked (Multiset.replicate n (Asset.receipt : Asset S B)) := by
  intro l b hb
  cases Multiset.eq_of_mem_replicate hb

end Linked

namespace Pool

theorem mem_sum_map {α β : Type} {f : α → Multiset β} {y : β} {xs : List α} :
    y ∈ (xs.map f).sum ↔ ∃ x ∈ xs, y ∈ f x := by
  rw [← Multiset.sum_coe, ← Multiset.map_coe]
  exact Multiset.mem_bind (s := (xs : Multiset α))

def asset (l : S.Link) (x : Handle S) : Multiset (Asset S B) :=
  if x.word = .shut then 0 else {.buffer l x.buffer}

def leftovers (p : Pool S) (inHand : List (Nat × S.Buffer)) : Multiset (Asset S B) :=
  Multiset.ofList ((inHand ++ p.queue).map fun e => .buffer p.link e.2) +
    Multiset.replicate p.disposed .receipt

def stock (p : Pool S) (inHand : List (Nat × S.Buffer)) : Multiset (Asset S B) :=
  p.total (asset p.link) + p.leftovers inHand

variable {p : Pool S} {inHand : List (Nat × S.Buffer)} {h : Nat} {x : Handle S}

theorem stock_cons (p : Pool S) (b : S.Buffer) :
    p.stock ((h, b) :: inHand) = (.buffer p.link b ::ₘ p.stock inHand : Multiset (Asset S B)) := by
  unfold stock leftovers
  rw [List.cons_append, List.map_cons, ← Multiset.cons_coe, Multiset.cons_add, Multiset.add_cons]

theorem stock_update {g : Handle S → Handle S} (hw : ∀ x, (g x).word = x.word)
    (hb : ∀ x, (g x).buffer = x.buffer) :
    (p.update h g).stock inHand = (p.stock inHand : Multiset (Asset S B)) :=
  congrArg (· + p.leftovers inHand) (total_update_eq _ fun x => by unfold asset; rw [hw, hb])

theorem total_asset_reword (w : Lease.Word) (hx : p.handles[h]? = some x)
    (opened : x.word ≠ .shut) :
    (p.update h fun x => { x with word := w }).total (asset p.link) +
        Multiset.ofList ((taken h x w).map fun e => .buffer p.link e.2) =
      (p.total (asset p.link) : Multiset (Asset S B)) := by
  have := total_update (asset (B := B) p.link) hx fun x => { x with word := w }
  rw [asset, if_neg opened] at this
  unfold taken
  split_ifs with hw
  · rwa [asset, if_pos hw, add_zero] at this
  · rw [asset, if_neg hw] at this
    exact (add_zero _).trans (add_right_cancel this)

theorem stock_reword (w : Lease.Word) (k : Nat) (hx : p.handles[h]? = some x)
    (opened : x.word ≠ .shut) :
    (p.reword h w k).stock (taken h x w ++ inHand) = (p.stock inHand : Multiset (Asset S B)) := by
  unfold stock leftovers
  rw [← total_asset_reword w hx opened, List.append_assoc, List.map_append, ← Multiset.coe_add,
    add_assoc, add_assoc]
  rfl

theorem exists_stock_buffer (inHand : List (Nat × S.Buffer)) (hx : p.handles[h]? = some x)
    (opened : x.word ≠ .shut) :
    ∃ T : Multiset (Asset S B), p.stock inHand = .buffer p.link x.buffer ::ₘ T ∧
      ∀ buffer, (p.update h fun x => { x with buffer }).stock inHand =
        .buffer p.link buffer ::ₘ T := by
  have before := total_asset_reword (B := B) .shut hx opened
  refine ⟨(p.update h fun x => { x with word := .shut }).total (asset p.link) +
    p.leftovers inHand, ?_, fun buffer => ?_⟩
  · rw [stock, ← before, ← Multiset.cons_add, ← Multiset.singleton_add, add_comm {_}]
    rfl
  · have after := total_update (asset (B := B) p.link) hx fun x => { x with buffer }
    rw [← before, show asset p.link x = {.buffer p.link x.buffer} from if_neg opened,
      add_right_comm] at after
    have held : asset (B := B) p.link { x with buffer } = {.buffer p.link buffer} := if_neg opened
    rw [stock, ← Multiset.cons_add, ← Multiset.singleton_add, add_comm {_}, ← held]
    exact congrArg (· + p.leftovers inHand) (add_right_cancel after)

theorem stock_queue (p : Pool S) {queue inHand' : List (Nat × S.Buffer)}
    (hp : (inHand' ++ queue).Perm (inHand ++ p.queue)) :
    { p with queue := queue }.stock inHand' = (p.stock inHand : Multiset (Asset S B)) := by
  unfold stock leftovers
  rw [Multiset.coe_eq_coe.2 (hp.map _)]
  rfl

theorem stock_disposed (p : Pool S) (call : Call) :
    ({ p with disposed := p.disposed + 1 }.note call).stock inHand =
      (.receipt ::ₘ p.stock inHand : Multiset (Asset S B)) := by
  unfold stock leftovers
  rw [← Multiset.add_cons, ← Multiset.add_cons, ← Multiset.replicate_succ]
  rfl

theorem stock_enrol (p : Pool S) (b : S.Buffer) (columns : List String) :
    (p.enrol b columns).stock inHand =
      (.buffer p.link b ::ₘ p.stock inHand : Multiset (Asset S B)) := by
  have opened : Lease.Word.fresh ≠ .shut := by decide
  obtain ⟨tracked, e⟩ := p.exists_enrol b columns
  have hl : (p.enrol b columns).link = p.link := by rw [e]
  have hr : (p.enrol b columns).leftovers inHand = (p.leftovers inHand : Multiset (Asset S B)) := by
    rw [e]
    rfl
  rw [stock, stock, hl, hr, total_enrol, asset, if_neg opened, add_right_comm,
    ← Multiset.singleton_add]
  exact add_comm ..

end Pool

end QueryLease

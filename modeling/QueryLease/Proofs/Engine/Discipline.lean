import Mathlib.Data.Multiset.MapFold
import QueryLease.Engine.Ledger
import QueryLease.Proofs.Alike

/-! The discipline of a caller. What stands is read off the calls: an object stands from the call
that hands it out to the call that destroys it, under the object that it was got from. A disciplined
caller asks things only of what stands, and destroys nothing on which something else stands. -/

namespace QueryLease.Engine

def Entry.destroys : Entry → Bool
  | destroyString | databaseDestroy | connectionDestroy | resultDestroy | tupleDestroy
  | valueDestroy | dataTypeDestroy => true
  | _ => false

namespace Call

def given? (c : Call) : Option Object :=
  match c.reply with
  | .handed _ o | .object o => o
  | _ => none

def destroyed? (c : Call) : Option Object := if c.entry.destroys then c.subject.join else none

end Call

def handed (calls : List Call) : List Object := calls.filterMap Call.given?

def destroyed (calls : List Call) : List Object := calls.filterMap Call.destroyed?

abbrev Stand := Object × Option Object

/-- What stands after these calls, the latest of which comes first. -/
def standing : List Call → List Stand
  | [] => []
  | c :: earlier =>
    (c.given?.map fun o => (o, c.subject.join)).toList ++
      (standing earlier).filter fun e => c.destroyed? ≠ some e.1

structure Call.Disciplined (earlier : List Call) (c : Call) : Prop where
  fresh : ∀ o, c.given? = some o → o ∉ handed earlier
  subject : ∀ o, c.subject = some (some o) → o ∈ (standing earlier).map Prod.fst
  missing : c.subject = some none → c.entry = .valueDestroy
  once : ∀ o, c.destroyed? = some o → o ∉ destroyed earlier
  nested : ∀ o, c.destroyed? = some o → ∀ e ∈ standing earlier, e.2 ≠ some o

def Disciplined : List Call → Prop
  | [] => True
  | c :: earlier => c.Disciplined earlier ∧ Disciplined earlier

variable {calls : List Call} {c : Call} {o p : Object} {e : Stand}

namespace Call

theorem mem_standing_cons {earlier : List Call} : e ∈ standing (c :: earlier) ↔
    (c.given? = some e.1 ∧ e.2 = c.subject.join) ∨
      (e ∈ standing earlier ∧ c.destroyed? ≠ some e.1) := by
  rw [standing, List.mem_append, List.mem_filter, decide_eq_true_iff]
  refine or_congr_left ?_
  cases c.given? with
  | none => simp
  | some o =>
    rw [Option.map_some, Option.toList_some, List.mem_singleton, Prod.ext_iff, Option.some.injEq]
    exact and_congr_left fun _ => eq_comm

theorem subject_of_destroyed (h : c.destroyed? = some o) : c.subject = some (some o) := by
  unfold destroyed? at h
  split_ifs at h
  cases hs : c.subject with
  | none => rw [hs] at h; cases h
  | some s => rw [hs] at h; exact congrArg some h

end Call

theorem mem_filterMap_cons {f : Call → Option Object} {earlier : List Call} :
    o ∈ (c :: earlier).filterMap f ↔ f c = some o ∨ o ∈ earlier.filterMap f := by
  simp only [List.mem_filterMap, List.mem_cons, exists_eq_or_imp]

theorem mem_handed_of_standing (h : e ∈ standing calls) : e.1 ∈ handed calls := by
  induction calls with
  | nil => exact absurd h List.not_mem_nil
  | cons c earlier ih =>
    rcases Call.mem_standing_cons.1 h with ⟨hg, -⟩ | ⟨he, -⟩
    · exact mem_filterMap_cons.2 (.inl hg)
    · exact mem_filterMap_cons.2 (.inr (ih he))

theorem mem_handed_of_subject {earlier : List Call} (d : c.Disciplined earlier)
    (h : c.subject = some (some o)) : o ∈ handed earlier := by
  obtain ⟨e, he, rfl⟩ := List.mem_map.1 (d.subject o h)
  exact mem_handed_of_standing he

namespace Disciplined

theorem from_handed (d : Disciplined calls) (h : e ∈ standing calls) (hp : e.2 = some p) :
    p ∈ handed calls := by
  induction calls with
  | nil => exact absurd h List.not_mem_nil
  | cons c earlier ih =>
    refine mem_filterMap_cons.2 (.inr ?_)
    rcases Call.mem_standing_cons.1 h with ⟨-, hs⟩ | ⟨he, -⟩
    · exact mem_handed_of_subject d.1 (Option.join_eq_some_iff.1 (hs.symm.trans hp))
    · exact ih d.2 he

theorem destroyed_handed (d : Disciplined calls) (h : o ∈ destroyed calls) : o ∈ handed calls := by
  induction calls with
  | nil => exact absurd h List.not_mem_nil
  | cons c earlier ih =>
    refine mem_filterMap_cons.2 (.inr ?_)
    rcases mem_filterMap_cons.1 h with hd | h
    · exact mem_handed_of_subject d.1 (Call.subject_of_destroyed hd)
    · exact ih d.2 h

theorem not_destroyed (d : Disciplined calls) (h : e ∈ standing calls) : e.1 ∉ destroyed calls := by
  induction calls with
  | nil => exact absurd h List.not_mem_nil
  | cons c earlier ih =>
    intro hd
    rcases Call.mem_standing_cons.1 h with ⟨hg, -⟩ | ⟨he, hc⟩
    · refine d.1.fresh e.1 hg ?_
      rcases mem_filterMap_cons.1 hd with hd | hd
      · exact mem_handed_of_subject d.1 (Call.subject_of_destroyed hd)
      · exact d.2.destroyed_handed hd
    · rcases mem_filterMap_cons.1 hd with hd | hd
      · exact hc hd
      · exact ih d.2 he hd

theorem nodup (d : Disciplined calls) : ((standing calls).map Prod.fst).Nodup := by
  induction calls with
  | nil => exact List.nodup_nil
  | cons c earlier ih =>
    have filtered : ((standing earlier).filter fun e => c.destroyed? ≠ some e.1).map Prod.fst
        |>.Nodup := (List.filter_sublist.map Prod.fst).nodup (ih d.2)
    rw [standing]
    cases hg : c.given? with
    | none => exact filtered
    | some o =>
      refine List.nodup_cons.2 ⟨fun ho => d.1.fresh o hg ?_, filtered⟩
      obtain ⟨e, he, rfl⟩ := List.mem_map.1 ho
      exact mem_handed_of_standing (List.mem_of_mem_filter he)

theorem destroyed_once (d : Disciplined calls) : (destroyed calls).Nodup := by
  induction calls with
  | nil => exact List.nodup_nil
  | cons c earlier ih =>
    unfold destroyed
    rw [List.filterMap_cons]
    cases hd : c.destroyed? with
    | none => exact ih d.2
    | some o => exact List.nodup_cons.2 ⟨d.1.once o hd, ih d.2⟩

theorem destroyed_or_stands (h : o ∈ handed calls) :
    o ∈ destroyed calls ∨ ∃ e ∈ standing calls, e.1 = o := by
  induction calls with
  | nil => exact absurd h List.not_mem_nil
  | cons c earlier ih =>
    rcases mem_filterMap_cons.1 h with hg | h
    · exact .inr ⟨(o, c.subject.join), Call.mem_standing_cons.2 (.inl ⟨hg, rfl⟩), rfl⟩
    · rcases ih h with hd | ⟨e, he, rfl⟩
      · exact .inl (mem_filterMap_cons.2 (.inr hd))
      · by_cases hd : c.destroyed? = some e.1
        · exact .inl (mem_filterMap_cons.2 (.inl hd))
        · exact .inr ⟨e, Call.mem_standing_cons.2 (.inr ⟨he, hd⟩), rfl⟩

theorem count_destroyed (d : Disciplined calls) (hs : standing calls = []) (h : o ∈ handed calls) :
    (destroyed calls).count o = 1 := by
  refine List.count_eq_one_of_mem d.destroyed_once ?_
  rcases destroyed_or_stands h with hd | ⟨e, he, -⟩
  · exact hd
  · rw [hs] at he
    cases he

end Disciplined

end QueryLease.Engine

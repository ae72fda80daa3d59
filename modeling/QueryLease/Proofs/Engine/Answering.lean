import Mathlib.Data.List.Forall2
import QueryLease.Engine.Host
import QueryLease.Proofs.Alike
import QueryLease.Proofs.Value.Conversion

namespace QueryLease.Engine

def cut (bytes : Option Utf8.Octets) : Utf8.Octets := (bytes.getD []).takeWhile (· != 0)

namespace Naming

def Good (n : Naming) : Prop := n.status = .success ∧ Utf8.WellFormed (cut n.bytes)

def Spells (n : Naming) (name : String) : Prop :=
  n.status = .success ∧ Utf8.encode name = cut n.bytes

inductive Bad (n : Naming) : Fault → Prop
  | refused (failed : n.status = .failure) : Bad n (.refused .resultGetColumnName)
  | notUtf8 (given : n.status = .success) (bad : ¬ Utf8.WellFormed (cut n.bytes)) :
      Bad n (.notUtf8 .columnName)

variable {n : Naming} {f : Fault} {name : String}

theorem Spells.good (h : n.Spells name) : n.Good := ⟨h.1, name, h.2⟩

abbrev read (n : Naming) : Except Fault String :=
  Ledger.check n.status .resultGetColumnName >>= fun _ => TextRole.columnName.decode (cut n.bytes)

end Naming

abbrev Named (columns : List Naming) (names : List String) : Prop :=
  List.Forall₂ Naming.Spells columns names

theorem Named.good {columns : List Naming} {names : List String} (h : Named columns names) :
    ∀ n ∈ columns, n.Good := by
  induction h with
  | nil => exact List.forall_mem_nil _
  | cons spells _ ih => exact List.forall_mem_cons.2 ⟨spells.good, ih⟩

def Misnamed (columns : List Naming) (f : Fault) : Prop :=
  ∃ before n after, columns = before ++ n :: after ∧ (∀ m ∈ before, m.Good) ∧ n.Bad f

theorem Misnamed.cons {columns : List Naming} {n : Naming} {f : Fault} (good : n.Good)
    (bad : Misnamed columns f) : Misnamed (n :: columns) f := by
  obtain ⟨before, m, after, rfl, others, bad⟩ := bad
  exact ⟨n :: before, m, after, rfl, List.forall_mem_cons.2 ⟨good, others⟩, bad⟩

/-- What becomes of a query, by what the engine has answered. -/
inductive ResultAnswers.Verdict (a : ResultAnswers) : Except Fault (List String) → Prop
  | refused (none : a.handing = ⟨.failure, false⟩) : Verdict a (.error (.refused .connectionQuery))
  | ungiven (none : a.handing = ⟨.success, false⟩) : Verdict a (.error (.ungiven .result))
  | failed (given : a.handing.given = true)
      (failed : a.handing.status = .failure ∨ a.success = false) :
      Verdict a (.error (.reported 1 (Utf8.decodeLossy (cut a.message))))
  | misnamed {f : Fault} (given : a.handing = ⟨.success, true⟩) (succeeded : a.success = true)
      (bad : Misnamed a.columns f) : Verdict a (.error f)
  | answered {names : List String} (given : a.handing = ⟨.success, true⟩)
      (succeeded : a.success = true) (named : Named a.columns names) : Verdict a (.ok names)

namespace ResultAnswers.Verdict

variable {a : ResultAnswers} {v : Except Fault (List String)}

theorem named {names : List String} (h : a.Verdict (.ok names)) : Named a.columns names := by
  cases h
  assumption

end ResultAnswers.Verdict

namespace Ledger

variable {X : List Object} {o : Object}

end Ledger

namespace Result

open Ledger

variable {X : List Object} {o : Object}

end Result

namespace Host

variable {E : Engine} {l : Link} {text : String} (p : Host E)

end Host

end QueryLease.Engine

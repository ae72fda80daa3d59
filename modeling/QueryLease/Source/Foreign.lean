import QueryLease.Engine.Host
import QueryLease.Source

namespace QueryLease

namespace Engine.Result

theorem turns_fetch (r : Result) (l : Ledger) : (r.fetch l).1.2.turns = r.turns.tail := by
  rcases r with ⟨object, turns, tuple, fetches⟩
  match turns with
  | [] => rfl
  | .pause :: _ => rfl
  | .row ⟨.success, _⟩ _ :: _ => rfl
  | .row ⟨.failure, true⟩ _ :: _ => rfl
  | .row ⟨.failure, false⟩ _ :: _ => rfl

theorem turns_ne_nil_of_fetch {r : Result} {l : Ledger} {row : Nat}
    (h : (r.fetch l).1.1 = .ok (some row)) : r.turns ≠ [] := by
  rcases r with ⟨object, turns, tuple, fetches⟩
  rintro rfl
  cases h

theorem rowsLeft_fetch_le (r : Result) (l : Ledger) : (r.fetch l).1.2.rowsLeft ≤ r.rowsLeft := by
  simp only [rowsLeft, turns_fetch, List.length_tail]
  omega

theorem rowsLeft_fetch_lt {r : Result} {l : Ledger} {row : Nat}
    (h : (r.fetch l).1.1 = .ok (some row)) : (r.fetch l).1.2.rowsLeft < r.rowsLeft := by
  have := List.length_pos_iff.2 (turns_ne_nil_of_fetch h)
  simp only [rowsLeft, turns_fetch, List.length_tail]
  omega

end Engine.Result

def Source.foreign (E : Engine) : Source where
  State := Engine.Host E
  Link := Engine.Link
  Buffer := Engine.Result
  Row := Nat
  execute l text := Engine.Host.execute l text
  fetch _ r p := let ((outcome, r), p) := p.booked r.fetch; (outcome, r, p)
  read _ r row column p := p.booked (r.read row column)
  dispose _ r p := (p.booked r.dispose).2
  close l p := (Engine.Host.disconnect l p).2
  rowsLeft := Engine.Result.rowsLeft
  rowsLeft_fetch_le _ r p := r.rowsLeft_fetch_le p.ledger
  rowsLeft_fetch_lt h := Engine.Result.rowsLeft_fetch_lt h

end QueryLease

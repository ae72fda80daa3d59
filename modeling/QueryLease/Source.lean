import QueryLease.Cell

/-! Where results come from. A source runs queries over a link and answers each with a buffer, which
is then read row by row and cell by cell and disposed of in the end. A result is finite: a buffer
bounds the rows it can still give, and every row it gives uses one up. -/

namespace QueryLease

structure Source where
  State : Type
  Link : Type
  Buffer : Type
  Row : Type
  execute : Link → String → State → Except Fault (Buffer × List String) × State
  fetch : Link → Buffer → State → Except Fault (Option Row) × Buffer × State
  read : Link → Buffer → Row → Nat → State → Except Fault Cell × State
  dispose : Link → Buffer → State → State
  close : Link → State → State
  rowsLeft : Buffer → Nat
  rowsLeft_fetch_le : ∀ l b s, rowsLeft (fetch l b s).2.1 ≤ rowsLeft b
  rowsLeft_fetch_lt : ∀ {l b s row}, (fetch l b s).1 = .ok (some row) →
    rowsLeft (fetch l b s).2.1 < rowsLeft b

end QueryLease

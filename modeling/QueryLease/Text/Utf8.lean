namespace QueryLease.Utf8

abbrev Octets := List UInt8

/-- A character begun: the bits gathered, the octets seen and owed, and the range of the next. -/
structure Pending where
  code : Nat
  seen : Nat
  owed : Nat
  low : UInt8
  high : UInt8
  deriving DecidableEq

inductive Lead where
  | whole (c : Char)
  | opens (p : Pending)
  | bad
  deriving DecidableEq

def Lead.after (code owed : Nat) (low high : UInt8) : Lead := .opens ⟨code, 1, owed, low, high⟩

def lead (b : UInt8) : Lead :=
  let n := b.toNat
  if n < 0x80 then .whole (Char.ofNat n)
  else if n < 0xC2 then .bad
  else if n < 0xE0 then .after (n - 0xC0) 1 0x80 0xBF
  else if n = 0xE0 then .after 0 2 0xA0 0xBF
  else if n = 0xED then .after 0xD 2 0x80 0x9F
  else if n < 0xF0 then .after (n - 0xE0) 2 0x80 0xBF
  else if n = 0xF0 then .after 0 3 0x90 0xBF
  else if n < 0xF4 then .after (n - 0xF0) 3 0x80 0xBF
  else if n = 0xF4 then .after 4 3 0x80 0x8F
  else .bad

def Pending.next (p : Pending) (b : UInt8) : Lead :=
  if p.low ≤ b ∧ b ≤ p.high then
    let code := p.code * 64 + b.toNat % 64
    if p.owed = 1 then .whole (Char.ofNat code)
    else .opens ⟨code, p.seen + 1, p.owed - 1, 0x80, 0xBF⟩
  else .bad

/-- The length of the well-formed beginning, and of the bad sequence after it; none when the text
ends inside a character that could still become well formed. -/
structure Fault where
  validUpTo : Nat
  errorLen : Option Nat
  deriving DecidableEq

def scan (valid : Nat) : Option Pending → Octets → Except Fault (List Char)
  | none, [] => .ok []
  | some _, [] => .error ⟨valid, none⟩
  | none, b :: rest =>
    match lead b with
    | .whole c => (c :: ·) <$> scan (valid + 1) none rest
    | .opens p => scan valid (some p) rest
    | .bad => .error ⟨valid, some 1⟩
  | some p, b :: rest =>
    match p.next b with
    | .whole c => (c :: ·) <$> scan (valid + p.seen + 1) none rest
    | .opens q => scan valid (some q) rest
    | .bad => .error ⟨valid, some p.seen⟩

def decode (bytes : Octets) : Except Fault String := String.ofList <$> scan 0 none bytes

def encode (s : String) : Octets := s.toList.flatMap String.utf8EncodeChar

def replacement : Char := '\uFFFD'

def Lead.emit : Lead → List Char × Option Pending
  | .whole c => ([c], none)
  | .opens p => ([], some p)
  | .bad => ([replacement], none)

/-- An octet that does not belong to the character begun begins another. -/
def emit : Option Pending → UInt8 → List Char × Option Pending
  | none, b => (lead b).emit
  | some p, b =>
    match p.next b with
    | .bad => (replacement :: (lead b).emit.1, (lead b).emit.2)
    | l => l.emit

def scanLossy : Option Pending → Octets → List Char
  | none, [] => []
  | some _, [] => [replacement]
  | p, b :: rest => (emit p b).1 ++ scanLossy (emit p b).2 rest

def decodeLossy (bytes : Octets) : String := String.ofList (scanLossy none bytes)

end QueryLease.Utf8

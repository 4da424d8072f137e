/-! Decimal integers: an optional sign and digits of any script, with single underscores between
digits. -/

namespace EditorClient

/-- The zeros of the decimal digits outside ASCII; the nine others follow each. -/
def digitZeros : List Nat :=
  [0x660, 0x6f0, 0x7c0, 0x966, 0x9e6, 0xa66, 0xae6, 0xb66, 0xbe6, 0xc66, 0xce6, 0xd66, 0xde6,
   0xe50, 0xed0, 0xf20, 0x1040, 0x1090, 0x17e0, 0x1810, 0x1946, 0x19d0, 0x1a80, 0x1a90, 0x1b50,
   0x1bb0, 0x1c40, 0x1c50, 0xa620, 0xa8d0, 0xa900, 0xa9d0, 0xa9f0, 0xaa50, 0xabf0, 0xff10, 0x104a0,
   0x10d30, 0x11066, 0x110f0, 0x11136, 0x111d0, 0x112f0, 0x11450, 0x114d0, 0x11650, 0x116c0,
   0x11730, 0x118e0, 0x11950, 0x11c50, 0x11d50, 0x11da0, 0x16a60, 0x16ac0, 0x16b50, 0x1d7ce,
   0x1d7d8, 0x1d7e2, 0x1d7ec, 0x1d7f6, 0x1e140, 0x1e2f0, 0x1e950, 0x1fbf0]

def digitValue? (c : Char) : Option Nat :=
  let n := c.toNat
  if n < 128 then if 48 ≤ n ∧ n < 58 then some (n - 48) else none
  else (digitZeros.find? fun z => z ≤ n && n < z + 10).map fun z => n - z

/-- The values of the digits, if there is one at each end and beside each underscore. -/
def digitRun? : List Char → Option (List Nat)
  | [] => none
  | [c] => (digitValue? c).map fun d => [d]
  | c :: '_' :: cs => do
    let d ← digitValue? c
    let ds ← digitRun? cs
    pure (d :: ds)
  | c :: cs => do
    let d ← digitValue? c
    let ds ← digitRun? cs
    pure (d :: ds)

/-- More digits than this are not read. -/
def digitLimit : Nat := 4300

def natural? (cs : List Char) : Option Nat := do
  let ds ← digitRun? cs
  if ds.length ≤ digitLimit then pure (ds.foldl (fun n d => 10 * n + d) 0) else none

def integer? (cs : List Char) : Option Int :=
  match cs with
  | '-' :: ds => (natural? ds).map fun n => -(n : Int)
  | '+' :: ds => (natural? ds).map fun n => (n : Int)
  | ds => (natural? ds).map fun n => (n : Int)

end EditorClient

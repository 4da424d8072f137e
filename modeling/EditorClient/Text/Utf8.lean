/-! Reading bytes as UTF-8. Each longest beginning of a sequence that cannot be completed is read
as one replacement character. -/

namespace EditorClient

/-- What has been read of a sequence: the bits so far, how many bytes are missing, and the bounds of
the next one. -/
structure OpenSequence where
  bits : Nat
  missing : Nat
  low : Nat
  high : Nat

def replacementChar : Char := '\uFFFD'

/-- The characters and the open sequence that a byte at the start of a sequence gives. The bounds of
the second byte leave out long forms, surrogates and numbers above U+10FFFF. -/
def openSequence (b : Nat) : List Char × Option OpenSequence :=
  if b < 0x80 then ([Char.ofNat b], none)
  else if b < 0xC2 then ([replacementChar], none)
  else if b < 0xE0 then ([], some ⟨b - 0xC0, 1, 0x80, 0xBF⟩)
  else if b = 0xE0 then ([], some ⟨0, 2, 0xA0, 0xBF⟩)
  else if b = 0xED then ([], some ⟨0xD, 2, 0x80, 0x9F⟩)
  else if b < 0xF0 then ([], some ⟨b - 0xE0, 2, 0x80, 0xBF⟩)
  else if b = 0xF0 then ([], some ⟨0, 3, 0x90, 0xBF⟩)
  else if b < 0xF4 then ([], some ⟨b - 0xF0, 3, 0x80, 0xBF⟩)
  else if b = 0xF4 then ([], some ⟨4, 3, 0x80, 0x8F⟩)
  else ([replacementChar], none)

def readByte : Option OpenSequence → Nat → List Char × Option OpenSequence
  | none, b => openSequence b
  | some q, b =>
    if q.low ≤ b ∧ b ≤ q.high then
      let bits := q.bits * 64 + b % 64
      if q.missing = 1 then ([Char.ofNat bits], none)
      else ([], some ⟨bits, q.missing - 1, 0x80, 0xBF⟩)
    else
      let next := openSequence b
      (replacementChar :: next.1, next.2)

def readUtf8From : Option OpenSequence → List UInt8 → List Char
  | none, [] => []
  | some _, [] => [replacementChar]
  | q, b :: bs =>
    let next := readByte q b.toNat
    next.1 ++ readUtf8From next.2 bs

def readUtf8 (bytes : List UInt8) : List Char := readUtf8From none bytes

end EditorClient

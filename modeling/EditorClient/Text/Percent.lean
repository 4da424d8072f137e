/-! Percent encoding of the UTF-8 bytes of a text. Letters, digits and `_ . - ~ /` stand for
themselves. -/

namespace EditorClient

def isPlainInUri (c : Char) : Bool :=
  c.isAlphanum || c == '_' || c == '.' || c == '-' || c == '~' || c == '/'

def upperHexDigit (n : Nat) : Char :=
  if n < 10 then Char.ofNat (48 + n) else Char.ofNat (55 + n)

def percentByte (b : UInt8) : List Char :=
  ['%', upperHexDigit (b.toNat / 16), upperHexDigit (b.toNat % 16)]

def percentChar (c : Char) : List Char :=
  if isPlainInUri c then [c] else (String.utf8EncodeChar c).flatMap percentByte

def percentEncode (cs : List Char) : List Char := cs.flatMap percentChar

end EditorClient

import EditorClient.Uri.Address

/-! The authority of a URI, between `//` and the path, and what can be wrong with it. -/

namespace EditorClient

inductive UriProblem where
  | brackets
  | futureAddress
  | unknownAddress (host : String)
  | bracketedOctets
  | normalization (authority : String)
deriving DecidableEq, Repr

/-- The code points whose compatibility decomposition holds one of `/ ? # @ :`. -/
def delimiterLookalikes : List Nat :=
  [0x2047, 0x2048, 0x2049, 0x2100, 0x2101, 0x2105, 0x2106, 0x2a74, 0xfe13, 0xfe16, 0xfe55, 0xfe56,
   0xfe5f, 0xfe6b, 0xff03, 0xff0f, 0xff1a, 0xff1f, 0xff20]

/-- The text after the last `@`. -/
def afterUser (authority : List Char) : List Char :=
  (authority.reverse.takeWhile (· != '@')).reverse

def isFutureAddress : List Char → Bool
  | 'v' :: cs =>
    let version := cut '.' cs
    !version.1.isEmpty && version.1.all isHexDigit && version.2.any fun rest => !rest.isEmpty
  | _ => false

def bracketedHostProblem? (host : List Char) : Option UriProblem :=
  if host.head? = some 'v' then if isFutureAddress host then none else some .futureAddress
  else if isIPv4 host then some .bracketedOctets
  else if isIPv6 host then none
  else some (.unknownAddress (String.ofList host))

/-- Nothing stands before an opening bracket, and only a port after the closing one. -/
def bracketProblem? (authority : List Char) : Option UriProblem :=
  let hostAndPort := afterUser authority
  match cut '[' hostAndPort with
  | (before, some bracketed) =>
    let parts := cut ']' bracketed
    let port := parts.2.getD []
    if !before.isEmpty || !(port.isEmpty || port.head? == some ':') then some .brackets
    else bracketedHostProblem? parts.1
  | (_, none) => bracketedHostProblem? (cut ':' hostAndPort).1

def authorityProblem? (authority : List Char) : Option UriProblem :=
  let opened := authority.contains '['
  let closed := authority.contains ']'
  let bracket := if opened != closed then some .brackets
    else if opened then bracketProblem? authority else none
  match bracket with
  | some problem => some problem
  | none =>
    if authority.any fun c => delimiterLookalikes.contains c.toNat then
      some (.normalization (String.ofList authority))
    else none

end EditorClient

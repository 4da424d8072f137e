import EditorClient.Text.Fields

/-! Internet addresses in text form: four decimal octets, or eight groups of hexadecimal digits
with at most one `::` in place of groups that are zero. -/

namespace EditorClient

def isHexDigit (c : Char) : Bool :=
  c.isDigit || ('a' ≤ c && c ≤ 'f') || ('A' ≤ c && c ≤ 'F')

def isOctet (cs : List Char) : Bool :=
  !cs.isEmpty && cs.all Char.isDigit && cs.length ≤ 3 && (cs == ['0'] || cs.head? != some '0') &&
    cs.foldl (fun n c => 10 * n + (c.toNat - 48)) 0 ≤ 255

def isIPv4 (cs : List Char) : Bool :=
  let octets := fields '.' cs
  octets.length == 4 && octets.all isOctet

def isGroup (cs : List Char) : Bool :=
  !cs.isEmpty && cs.length ≤ 4 && cs.all isHexDigit

/-- A last field with dots is an address of four octets, and stands for two groups. -/
def addressGroups? : List (List Char) → Option (List (List Char))
  | [] => some []
  | [last] =>
    if last.contains '.' then if isIPv4 last then some [['0'], ['0']] else none
    else some [last]
  | g :: gs => (addressGroups? gs).map fun rest => g :: rest

/-- The groups on one side of `::`; an empty field at the outer end belongs to the colons. -/
def sideGroups (side : List (List Char)) : List (List Char) :=
  if side == [[]] then [] else side

/-- The fields before and after the first empty field that is neither first nor last. -/
def splitGap : List (List Char) → Option (List (List Char) × List (List Char))
  | a :: [] :: b :: rest => some ([a], b :: rest)
  | a :: rest => (splitGap rest).map fun sides => (a :: sides.1, sides.2)
  | [] => none

def areGroups (groups : List (List Char)) : Bool :=
  match splitGap groups with
  | some (high, low) =>
    let used := sideGroups high ++ sideGroups low
    used.length ≤ 7 && used.all isGroup
  | none => groups.length == 8 && groups.all isGroup

/-- A zone after `%` must not be empty and holds no second `%`. -/
def isZone : Option (List Char) → Bool
  | none => true
  | some zone => !zone.isEmpty && !zone.contains '%'

def isIPv6 (cs : List Char) : Bool :=
  let address := cut '%' cs
  let parts := fields ':' address.1
  isZone address.2 && 3 ≤ parts.length && (addressGroups? parts).any areGroups

end EditorClient

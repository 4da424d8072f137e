/-! Wildcards for one name of a path: `*` stands for any characters, `?` for one, and `[…]` for
one of a set. An opening bracket that is never closed stands for itself. -/

namespace EditorClient

/-- One piece of a wildcard. The ranges of a set are inclusive; a set without ranges holds no
character, and every character once it is negated. -/
inductive Piece where
  | any
  | literal (c : Char)
  | set (negated : Bool) (ranges : List (Char × Char))
  | star
deriving DecidableEq, Repr

namespace Piece

def accepts : Piece → Char → Bool
  | any, _ => true
  | literal d, c => c == d
  | set negated ranges, c => (ranges.any fun r => r.1 ≤ c && c ≤ r.2) != negated
  | star, _ => false

/-- The text between the brackets, if a bracket closes the set. A closing bracket in first place,
also after the negation mark, belongs to the set. -/
def setBody? (cs : List Char) : Option (List Char) :=
  let negation := if cs.head? = some '!' then ['!'] else []
  let first := if (cs.drop negation.length).head? = some ']' then [']'] else []
  let start := negation ++ first
  let rest := cs.drop start.length
  if rest.contains ']' then some (start ++ rest.takeWhile (· != ']')) else none

/-- An element of the text of a set: a character, or a dash that makes a range. -/
inductive SetToken where
  | char (c : Char)
  | dash
deriving DecidableEq, Repr

/-- Splits at the dashes that may make a range: at least `least` characters stand before each. -/
def chunks (least : Nat) (current : List Char) : List Char → List (List Char)
  | [] => [current]
  | c :: cs =>
    if c = '-' ∧ least = 0 then current :: chunks 2 [] cs
    else chunks (least - 1) (current ++ [c]) cs

/-- A dash at the end of the set is a character of the last chunk. -/
def closeChunks : List (List Char) → List (List Char)
  | [] => []
  | [c] => [c]
  | [c, []] => [c ++ ['-']]
  | c :: cs => c :: closeChunks cs

/-- Leaves out the two ends of each range that would hold nothing, from the last one on. -/
def dropEmptyRanges : List (List Char) → List (List Char)
  | [] => []
  | c :: cs =>
    match dropEmptyRanges cs with
    | [] => [c]
    | d :: ds =>
      match c.getLast?, d.head? with
      | some high, some low => if low < high then (c.dropLast ++ d.drop 1) :: ds else c :: d :: ds
      | _, _ => c :: d :: ds

def tokens (body : List Char) : List SetToken :=
  if body.contains '-' then
    let least := if body.head? = some '!' then 2 else 1
    let kept := dropEmptyRanges (closeChunks (chunks least [] body))
    List.intercalate [.dash] (kept.map fun chunk => chunk.map .char)
  else body.map .char

def ranges : List SetToken → List (Char × Char)
  | .char a :: .dash :: .char b :: ts => (a, b) :: ranges ts
  | .char a :: ts => (a, a) :: ranges ts
  | .dash :: ts => ('-', '-') :: ranges ts
  | [] => []

def ofSetBody (body : List Char) : Piece :=
  match tokens body with
  | .char '!' :: ts => set true (ranges ts)
  | ts => set false (ranges ts)

/-- The number of characters that belong to a set already read is counted down. -/
def parseAfter : Nat → List Char → List Piece
  | _, [] => []
  | skipped + 1, _ :: cs => parseAfter skipped cs
  | 0, c :: cs =>
    if c = '*' then star :: parseAfter 0 cs
    else if c = '?' then any :: parseAfter 0 cs
    else if c = '[' then
      match setBody? cs with
      | some body => ofSetBody body :: parseAfter (body.length + 1) cs
      | none => literal '[' :: parseAfter 0 cs
    else literal c :: parseAfter 0 cs

end Piece

/-- For each tail of a text, from the whole to the empty one, whether the pieces match it. The last
argument says so for the pieces after the first. -/
def Piece.row : Piece → List Char → List Bool → List Bool
  | .star, [], rest => [rest.headD false]
  | _, [], _ => [false]
  | .star, _ :: cs, rest =>
    let tails := Piece.row .star cs rest.tail
    (rest.headD false || tails.headD false) :: tails
  | p, c :: cs, rest => (p.accepts c && rest.tail.headD false) :: Piece.row p cs rest.tail

def emptyRow : List Char → List Bool
  | [] => [true]
  | _ :: cs => false :: emptyRow cs

def matchesPieces (pieces : List Piece) (cs : List Char) : Bool :=
  (pieces.foldr (fun p rest => p.row cs rest) (emptyRow cs)).headD false

def parseWildcard (cs : List Char) : List Piece := Piece.parseAfter 0 cs

def matchesWildcard (pattern name : List Char) : Bool := matchesPieces (parseWildcard pattern) name

end EditorClient

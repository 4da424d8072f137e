import EditorClient.Text.Double
import EditorClient.Text.Quoted

/-! Values as users write them in their settings. Nothing about their kind is known in advance. -/

namespace EditorClient

/-- The fields of an object are in the order in which they are shown. -/
inductive Value where
  | null
  | bool (b : Bool)
  | int (n : Int)
  | float (x : Double)
  | text (s : String)
  | list (items : List Value)
  | object (fields : List (String × Value))
deriving Repr

namespace Value

def truthName (b : Bool) : String := if b then "True" else "False"

mutual

/-- The literal form, in which texts are quoted. -/
def literal : Value → String
  | null => "None"
  | bool b => truthName b
  | int n => toString n
  | float x => x.shown
  | text s => quoted s
  | list items => "[" ++ String.intercalate ", " (literals items) ++ "]"
  | object fields => "\x7b" ++ String.intercalate ", " (literalFields fields) ++ "\x7d"

def literals : List Value → List String
  | [] => []
  | v :: vs => v.literal :: literals vs

def literalFields : List (String × Value) → List String
  | [] => []
  | (name, v) :: rest => (quoted name ++ ": " ++ v.literal) :: literalFields rest

end

/-- A text shows itself, any other value its literal form. -/
def shown : Value → String
  | text s => s
  | v => v.literal

def kindName : Value → String
  | null => "NoneType"
  | bool _ => "bool"
  | int _ => "int"
  | float _ => "float"
  | text _ => "str"
  | list _ => "list"
  | object _ => "dict"

/-- Null, false, zero and whatever is empty are not set. -/
def isSet : Value → Bool
  | null => false
  | bool b => b
  | int n => n != 0
  | float x => !x.isZero
  | text s => s != ""
  | list items => !items.isEmpty
  | object fields => !fields.isEmpty

def field? (name : String) : List (String × Value) → Option Value
  | [] => none
  | (n, v) :: rest => if n = name then some v else field? name rest

mutual

/-- The same value; the truth values are the numbers one and zero. -/
def same : Value → Value → Bool
  | null, null => true
  | bool a, bool b => a == b
  | bool a, int n => (if a then 1 else 0) == n
  | int n, bool a => (if a then 1 else 0) == n
  | int m, int n => m == n
  | float x, float y => x.same y
  | float x, int n => x.isInteger n
  | int n, float x => x.isInteger n
  | float x, bool a => x.isInteger (if a then 1 else 0)
  | bool a, float x => x.isInteger (if a then 1 else 0)
  | text s, text t => s == t
  | list a, list b => sameItems a b
  | object a, object b => a.length == b.length && sameFields a b
  | _, _ => false

def sameItems : List Value → List Value → Bool
  | [], [] => true
  | a :: as, b :: bs => same a b && sameItems as bs
  | _, _ => false

/-- The order of the fields does not matter. -/
def sameFields : List (String × Value) → List (String × Value) → Bool
  | [], _ => true
  | (name, a) :: as, bs => (match field? name bs with
      | some b => same a b
      | none => false) && sameFields as bs

end

end Value

end EditorClient

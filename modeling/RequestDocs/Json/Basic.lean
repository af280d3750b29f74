import RequestDocs.Decimal.Double
/-!
# JSON values

Objects keep the order of their members. An integer that fits 64 bits keeps its value, every other
number is a double.
-/

namespace RequestDocs

inductive Json.Number
  | integer (value : Int)
  | double (value : Double)
deriving DecidableEq

inductive Json
  | null
  | bool (value : Bool)
  | number (value : Json.Number)
  | string (text : String)
  | array (items : List Json)
  | object (members : List (String × Json))
deriving Inhabited

namespace Json

def ofNat (n : Nat) : Json := .number (.integer n)

def isNull : Json → Bool
  | null => true
  | _ => false

def text? : Json → Option String
  | string text => some text
  | _ => none

def members? : Json → Option (List (String × Json))
  | object members => some members
  | _ => none

def items? : Json → Option (List Json)
  | array items => some items
  | _ => none

/-- A list of members with a new one: a repeated key keeps its place and takes the new value. -/
def putMember (members : List (String × Json)) (key : String) (value : Json) :
    List (String × Json) :=
  if members.any (·.1 == key) then
    members.map fun m => if m.1 == key then (key, value) else m
  else members ++ [(key, value)]

/-- Members with each key once, at its first place and with its last value. -/
def lastWins (members : List (String × Json)) : List (String × Json) :=
  members.foldl (fun acc m => putMember acc m.1 m.2) []

mutual

/-- A value whose objects have each key once. -/
def collapse : Json → Json
  | array items => array (collapseItems items)
  | object members => object (lastWins (collapseMembers members))
  | value => value

def collapseItems : List Json → List Json
  | [] => []
  | item :: items => collapse item :: collapseItems items

def collapseMembers : List (String × Json) → List (String × Json)
  | [] => []
  | (key, value) :: members => (key, collapse value) :: collapseMembers members

end

end Json

end RequestDocs

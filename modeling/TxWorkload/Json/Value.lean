/-!
# Value — JSON values

Integers that fit 64 bits stay integers; every other number is a floating-point number. The
members of an object are kept in the order of their keys, and a key that comes again replaces the
earlier member.
-/

namespace TxWorkload

/-- A JSON value. -/
inductive Json
  | null
  | bool (b : Bool)
  | integer (n : Int)
  | real (x : Float)
  | text (s : String)
  | array (items : List Json)
  | object (members : List (String × Json))
  deriving Inhabited

namespace Json

/-- Put a member into its place among members that are sorted by key. -/
def insertMember (key : String) (value : Json) : List (String × Json) → List (String × Json)
  | [] => [(key, value)]
  | (k, v) :: rest =>
      if key < k then (key, value) :: (k, v) :: rest
      else if key = k then (key, value) :: rest
      else (k, v) :: insertMember key value rest

/-- The object with the given members; the last one of a key counts. -/
def ofMembers (members : List (String × Json)) : Json :=
  .object (members.foldl (fun sorted m => insertMember m.1 m.2 sorted) [])

/-- The member of an object with a given key. -/
def member? (key : String) : Json → Option Json
  | .object members => (members.find? (fun m => m.1 = key)).map Prod.snd
  | _ => none

/-- The text of a value that is a text. -/
def text? : Json → Option String
  | .text s => some s
  | _ => none

end Json
end TxWorkload

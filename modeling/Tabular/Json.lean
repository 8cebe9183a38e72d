import Tabular.Binary64.Bits

/-!
# JSON documents

The values of JSON, with integers and reals apart, as the JSON library keeps them that results are
handed to, with its default features.  The fields of an object are in the order of their names; of
two fields with one name the later stands.
-/

namespace Tabular

inductive Json where
  | null
  | boolean (b : Bool)
  | integer (n : Int)
  | real (x : Binary64)
  | text (s : String)
  | array (items : List Json)
  | object (fields : List (String × Json))

namespace Json

/--
Puts a field into its place among fields in the order of their names.  This stands for the object
map of the JSON library, which is ordered by name unless its feature for insertion order is on.
-/
def insertField (name : String) (value : Json) : List (String × Json) → List (String × Json)
  | [] => [(name, value)]
  | (other, old) :: rest =>
      if name < other then (name, value) :: (other, old) :: rest
      else if name = other then (name, value) :: rest
      else (other, old) :: insertField name value rest

/-- The object that the library makes of fields one by one. -/
def ofFields (fields : List (String × Json)) : Json :=
  object (fields.foldl (fun kept field => insertField field.1 field.2 kept) [])

/--
The number that the library makes of a real.  It makes none of infinities and NaN, which become
`null`; every other real keeps its bits, as long as its feature for numbers of any precision is off.
-/
def ofReal (x : Binary64) : Json :=
  if Binary64.isFinite x then real x else null

def boolean? : Json → Option Bool
  | boolean b => some b
  | _ => none

def text? : Json → Option String
  | text s => some s
  | _ => none

def uint64? : Json → Option UInt64
  | integer n => if 0 ≤ n ∧ n < 2 ^ 64 then some (UInt64.ofNat n.toNat) else none
  | _ => none

/--
The values of a record with these fields, in their order.  A record is an object that has all of
them and perhaps others, or an array of exactly their values.
-/
def record? (names : List String) : Json → Option (List Json)
  | object fields => names.mapM fun name => fields.lookup name
  | array items => if items.length = names.length then some items else none
  | _ => none

/--
The word for a choice without contents: a text, or an object with the word as its only field and
`null` in it.
-/
def word? : Json → Option String
  | text s => some s
  | object [(name, null)] => some name
  | _ => none

end Json

end Tabular

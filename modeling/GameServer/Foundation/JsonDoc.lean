import Mathlib.Data.Nat.Notation

namespace Foundation

-- Any JSON value a parser can return. A double is its bits; the members of an
-- object stand in the order a loop meets them.
inductive JsonDoc where
  | null
  | boolean (value : Bool)
  | unsigned (value : UInt64)
  | integer (value : Int64)
  | float (bits : UInt64)
  | string (text : List UInt8)
  | array (items : List JsonDoc)
  | object (members : List (List UInt8 × JsonDoc))

-- The library behind the values: its parser and its writer, each of which may
-- throw, and what a double is as an integer.
structure DocLibrary where
  parse : List UInt8 → Option JsonDoc
  dump : JsonDoc → Option (List UInt8)
  floatToUnsigned : UInt64 → UInt32
  floatToInt : UInt64 → Int32

namespace JsonDoc

def find (members : List (List UInt8 × JsonDoc)) (key : List UInt8) : Option JsonDoc :=
  (members.find? fun member => member.1 = key).map Prod.snd

-- An exception is none, here and below.
def at_ (doc : JsonDoc) (key : List UInt8) : Option JsonDoc :=
  match doc with
  | .object members => find members key
  | _ => none

-- Numbers of every kind are cast, and booleans too.
def getUnsigned (library : DocLibrary) : JsonDoc → Option UInt32
  | .boolean value => some (if value then 1 else 0)
  | .unsigned value => some value.toUInt32
  | .integer value => some value.toUInt64.toUInt32
  | .float bits => some (library.floatToUnsigned bits)
  | _ => none

def getInt (library : DocLibrary) : JsonDoc → Option Int32
  | .boolean value => some (if value then 1 else 0)
  | .unsigned value => some value.toUInt32.toInt32
  | .integer value => some value.toInt32
  | .float bits => some (library.floatToInt bits)
  | _ => none

def getBool : JsonDoc → Option Bool
  | .boolean value => some value
  | _ => none

def getString : JsonDoc → Option (List UInt8)
  | .string text => some text
  | _ => none

-- The default stands in for a missing member only, not for one of another type.
def value {α : Type} (doc : JsonDoc) (get : JsonDoc → Option α) (key : List UInt8) (default : α) : Option α :=
  match doc with
  | .object members =>
    match find members key with
    | some found => get found
    | none => some default
  | _ => none

-- What a loop over the value meets: a scalar is met once, as itself.
def elements : JsonDoc → List JsonDoc
  | .null => []
  | .array items => items
  | .object members => members.map Prod.snd
  | scalar => [scalar]

mutual

-- A value up to how its numbers are held: one that is not negative may be signed or not.
def normal : JsonDoc → JsonDoc
  | .integer value => if 0 ≤ value then .unsigned value.toUInt64 else .integer value
  | .array items => .array (normalItems items)
  | .object members => .object (normalMembers members)
  | scalar => scalar

def normalItems : List JsonDoc → List JsonDoc
  | [] => []
  | item :: rest => item.normal :: normalItems rest

def normalMembers : List (List UInt8 × JsonDoc) → List (List UInt8 × JsonDoc)
  | [] => []
  | (key,doc) :: rest => (key,doc.normal) :: normalMembers rest

end

theorem find_normal (members : List (List UInt8 × JsonDoc)) (key : List UInt8) :
    find (normalMembers members) key = (find members key).map normal := by
  induction members with
  | nil => simp [normalMembers,find]
  | cons member rest ih =>
    obtain ⟨name,doc⟩ := member
    unfold find at ih
    rw [normalMembers,find,find,List.find?_cons,List.find?_cons]
    dsimp only
    cases decide (name = key) with
    | true => rfl
    | false => exact ih

theorem getUnsigned_normal (library : DocLibrary) (doc : JsonDoc) : doc.normal.getUnsigned library = doc.getUnsigned library := by
  cases doc with
  | integer value =>
    rw [normal]
    split <;> rfl
  | _ => rw [normal] <;> first | rfl | nofun

theorem value_normal {α : Type} {get : JsonDoc → Option α} (blind : ∀ doc : JsonDoc, get doc.normal = get doc) (doc : JsonDoc)
    (key : List UInt8) (default : α) : doc.normal.value get key default = doc.value get key default := by
  cases doc with
  | integer value =>
    rw [normal]
    split <;> rfl
  | object members =>
    rw [normal,value,value,find_normal]
    cases find members key with
    | none => rfl
    | some found => exact blind found
  | _ => rw [normal] <;> first | rfl | nofun

end JsonDoc
end Foundation

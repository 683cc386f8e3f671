import FabricEvolution.Lib.SortedMap

/-!
# The JSON value model

`Json` is the value every record, request and response is made of. A `String` stands for a byte
string, one character a byte; an object keeps its members in ascending key order.

* `find`, `set`, `erase`, `pushBack`, `atIndex` : `find_set` is the law the decoders' proofs use;
* `jsonString`, `jsonU64`, `jsonBool` : the typed readers of the record decoders.
-/

namespace FabricEvolution
open Lib

/-- A JSON value. `int` and `uint` are the two integer alternatives, `double` holds the IEEE bits. -/
inductive Json where
  | null
  | bool (value : Bool)
  | int (value : Int)
  | uint (value : Nat)
  | double (bits : UInt64)
  | string (value : String)
  | array (values : List Json)
  | object (members : List (String × Json))

namespace Json

/-! ## Alternatives -/

def isNull : Json → Bool
  | null => true
  | _ => false

def isString : Json → Bool
  | string _ => true
  | _ => false

def isArray : Json → Bool
  | array _ => true
  | _ => false

def isObject : Json → Bool
  | object _ => true
  | _ => false

def tryBool : Json → Option Bool
  | bool value => some value
  | _ => none

def tryI64 : Json → Option Int
  | int value => some value
  | uint value => if value ≤ 2 ^ 63 - 1 then some value else none
  | _ => none

def tryU64 : Json → Option Nat
  | uint value => some value
  | int value => if 0 ≤ value then some value.toNat else none
  | _ => none

def tryString : Json → Option String
  | string value => some value
  | _ => none

def tryArray : Json → Option (List Json)
  | array values => some values
  | _ => none

def tryObject : Json → Option (List (String × Json))
  | object members => some members
  | _ => none

/-! ## Objects and arrays -/

/-- The member under `key`; `none` for a value that is no object. -/
def find (value : Json) (key : String) : Option Json :=
  match value with
  | object members => assocFind key members
  | _ => none

def has (value : Json) (key : String) : Bool := (value.find key).isSome

/-- Insert or assign a member; a value that is no object becomes one. -/
def set (value : Json) (key : String) (member : Json) : Json :=
  match value with
  | object members => object (assocInsert key member members)
  | _ => object [(key, member)]

/-- `set` for a member written only under a condition. -/
def setIf (value : Json) (condition : Bool) (key : String) (member : Json) : Json :=
  if condition then value.set key member else value

def erase (value : Json) (key : String) : Json :=
  match value with
  | object members => object (assocErase key members)
  | other => other

/-- An object from an initializer list; a later pair of the same key wins. -/
def ofPairs (pairs : List (String × Json)) : Json :=
  pairs.foldl (fun out pair => out.set pair.1 pair.2) (object [])

def size : Json → Nat
  | array values => values.length
  | object members => members.length
  | string text => text.length
  | _ => 0

/-- The element at `index`; `null` outside the array. -/
def atIndex (value : Json) (index : Nat) : Json :=
  match value with
  | array values => values.getD index null
  | _ => null

def pushBack (value element : Json) : Json :=
  match value with
  | array values => array (values ++ [element])
  | _ => array [element]

@[simp] theorem find_set (value : Json) (key key' : String) (member : Json) :
    (value.set key member).find key' = if key = key' then some member else value.find key' := by
  cases value with
  | object members => exact assocFind_insert key key' member members
  | _ => simp [set, find, assocFind]

@[simp] theorem find_setIf (value : Json) (condition : Bool) (key key' : String) (member : Json) :
    (value.setIf condition key member).find key' =
      if condition = true ∧ key = key' then some member else value.find key' := by
  cases condition <;> simp [setIf]

@[simp] theorem find_erase (value : Json) (key key' : String) :
    (value.erase key).find key' = if key = key' then none else value.find key' := by
  cases value with
  | object members => exact assocFind_erase key key' members
  | _ => simp [erase, find]

@[simp] theorem find_object_nil (key : String) : (object []).find key = none := rfl

@[simp] theorem isObject_set (value : Json) (key : String) (member : Json) :
    (value.set key member).isObject = true := by
  cases value <;> rfl

end Json

/-! ## Typed readers -/

def jsonString (object : Json) (key : String) : Option String := (object.find key).bind Json.tryString

def jsonI64 (object : Json) (key : String) : Option Int := (object.find key).bind Json.tryI64

def jsonU64 (object : Json) (key : String) : Option Nat := (object.find key).bind Json.tryU64

def jsonBool (object : Json) (key : String) : Option Bool := (object.find key).bind Json.tryBool

def jsonStringOr (object : Json) (key : String) (fallback : String) : String :=
  (jsonString object key).getD fallback

def jsonU64Or (object : Json) (key : String) (fallback : Nat) : Nat :=
  (jsonU64 object key).getD fallback

def jsonBoolOr (object : Json) (key : String) (fallback : Bool) : Bool :=
  (jsonBool object key).getD fallback

section Readers
variable (value member : Json) (condition : Bool) (key key' : String)

@[simp] theorem jsonString_set :
    jsonString (value.set key member) key' = if key = key' then member.tryString else jsonString value key' := by
  rw [jsonString, Json.find_set]
  split_ifs <;> rfl

@[simp] theorem jsonString_setIf :
    jsonString (value.setIf condition key member) key' =
      if condition = true ∧ key = key' then member.tryString else jsonString value key' := by
  rw [jsonString, Json.find_setIf]
  split_ifs <;> rfl

@[simp] theorem jsonU64_set :
    jsonU64 (value.set key member) key' = if key = key' then member.tryU64 else jsonU64 value key' := by
  rw [jsonU64, Json.find_set]
  split_ifs <;> rfl

@[simp] theorem jsonU64_setIf :
    jsonU64 (value.setIf condition key member) key' =
      if condition = true ∧ key = key' then member.tryU64 else jsonU64 value key' := by
  rw [jsonU64, Json.find_setIf]
  split_ifs <;> rfl

@[simp] theorem jsonBool_set :
    jsonBool (value.set key member) key' = if key = key' then member.tryBool else jsonBool value key' := by
  rw [jsonBool, Json.find_set]
  split_ifs <;> rfl

@[simp] theorem jsonBool_setIf :
    jsonBool (value.setIf condition key member) key' =
      if condition = true ∧ key = key' then member.tryBool else jsonBool value key' := by
  rw [jsonBool, Json.find_setIf]
  split_ifs <;> rfl

end Readers

@[simp] theorem jsonString_object_nil (key : String) : jsonString (.object []) key = none := rfl

@[simp] theorem jsonU64_object_nil (key : String) : jsonU64 (.object []) key = none := rfl

@[simp] theorem jsonBool_object_nil (key : String) : jsonBool (.object []) key = none := rfl

end FabricEvolution

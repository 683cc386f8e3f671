import FabricEvolution.Wire.Version

/-!
# Versioned state documents

* `StateDocument` : a schema version and bounded fields; `put`, `remove`, `get`;
* `put_eq_ok` : what a successful `put` checked and did;
* `members`, `putAll` : the fields of a document on the wire, and their re-reading member by member;
  `eq_of_putAll` : what is re-read is what was written.
-/

namespace FabricEvolution
open Lib

def maxStateKeyBytes : Nat := 256
def maxStateValueBytes : Nat := 64 * 1024
def maxStateFields : Nat := 100000

structure StateDocument where
  schema : Nat
  fields : SortedMap String String := .empty

namespace StateDocument

def setSchema (document : StateDocument) (schema : Nat) : Result StateDocument :=
  if schema = 0 then .error (invalidArgument "schema version must be positive")
  else .ok { document with schema := schema }

def put (document : StateDocument) (key value : String) : Result StateDocument :=
  if key = "" ∨ key.length > maxStateKeyBytes then
    .error ⟨.boundsExceeded, "state key size is outside the permitted range",
      .ofPairs [("key_bytes", .uint key.length), ("limit", .uint maxStateKeyBytes)]⟩
  else if value.length > maxStateValueBytes then
    .error ⟨.boundsExceeded, "state value size exceeds the permitted limit",
      .ofPairs [("value_bytes", .uint value.length), ("limit", .uint maxStateValueBytes)]⟩
  else if document.fields.find key = none ∧ document.fields.entries.length ≥ maxStateFields then
    .error ⟨.resourceExhausted, "state document field limit reached", .ofPairs [("limit", .uint maxStateFields)]⟩
  else .ok { document with fields := document.fields.insert key value }

def get (document : StateDocument) (key : String) : Option String := document.fields.find key

def contains (document : StateDocument) (key : String) : Bool := (document.get key).isSome

def remove (document : StateDocument) (key : String) : Result StateDocument :=
  match document.get key with
  | none => .error (notFound ("state field not found: " ++ key))
  | some _ => .ok { document with fields := document.fields.erase key }

/-- The fields as a JSON object. -/
def fieldsToJson (document : StateDocument) : Json :=
  document.fields.entries.foldl (fun out entry => out.set entry.1 (.string entry.2)) (.object [])

def toJson (document : StateDocument) : Json :=
  (Json.object []).set "schema" (.uint document.schema) |>.set "fields" document.fieldsToJson

/-- The members of a fields object put one by one, `none` for a member that is no string; `refuse` words
the refusal of such a member. -/
def putAll (refuse : String → Status) : StateDocument → List (String × Option String) → Result StateDocument
  | document, [] => .ok document
  | _, (key, none) :: _ => .error (refuse key)
  | document, (key, some value) :: rest =>
    match document.put key value with
    | .error refusal => .error refusal
    | .ok document => putAll refuse document rest

/-- The fields as a list of members. -/
def members (document : StateDocument) : List (String × Option String) :=
  document.fields.entries.map fun entry => (entry.1, some entry.2)

variable {document document' : StateDocument} {key value : String}

theorem put_eq_ok (h : document.put key value = .ok document') :
    document' = { document with fields := document.fields.insert key value } ∧ key ≠ "" ∧
      key.length ≤ maxStateKeyBytes ∧ value.length ≤ maxStateValueBytes := by
  unfold put at h
  split_ifs at h with hkey hvalue
  cases h
  obtain ⟨hne, hlen⟩ := not_or.mp hkey
  exact ⟨rfl, hne, Nat.le_of_not_lt hlen, Nat.le_of_not_lt hvalue⟩

@[simp] theorem get_put (h : document.put key value = .ok document') (key' : String) :
    document'.get key' = if key = key' then some value else document.get key' := by
  obtain ⟨rfl, -⟩ := put_eq_ok h
  exact SortedMap.find_insert _ _ _ _

theorem schema_put (h : document.put key value = .ok document') : document'.schema = document.schema := by
  obtain ⟨rfl, -⟩ := put_eq_ok h
  rfl

@[ext] theorem ext_get (hschema : document.schema = document'.schema)
    (hget : ∀ key, document.get key = document'.get key) : document = document' := by
  obtain ⟨schema, fields⟩ := document
  obtain ⟨schema', fields'⟩ := document'
  obtain rfl : schema = schema' := hschema
  have hfields : fields = fields' := SortedMap.ext_find hget
  rw [hfields]

theorem get_of_putAll {refuse : String → Status} {l : List (String × String)} (hl : KeysAscend l)
    (h : putAll refuse document (l.map fun entry => (entry.1, some entry.2)) = .ok document') (key : String) :
    document'.get key = (assocFind key l).orElse fun _ => document.get key := by
  induction l generalizing document with
  | nil => cases h; rfl
  | cons entry rest ih =>
    obtain ⟨key₀, value₀⟩ := entry
    rw [List.map_cons, putAll] at h
    cases hput : document.put key₀ value₀ with
    | error refusal => simp [hput] at h
    | ok document₁ =>
      simp only [hput] at h
      rw [ih (List.pairwise_cons.mp hl).2 h, assocFind_cons, get_put hput]
      by_cases hk : key₀ = key
      · have htail : assocFind key rest = none := by
          rw [← hk]
          exact hl.find_tail
        simp [hk, htail]
      · simp [hk]

theorem schema_of_putAll {refuse : String → Status} {l : List (String × Option String)}
    (h : putAll refuse document l = .ok document') : document'.schema = document.schema := by
  induction l generalizing document with
  | nil => cases h; rfl
  | cons entry rest ih =>
    obtain ⟨key, _ | value⟩ := entry
    · simp [putAll] at h
    · rw [putAll] at h
      cases hput : document.put key value with
      | error refusal => simp [hput] at h
      | ok document₁ =>
        simp only [hput] at h
        rw [ih h, schema_put hput]

/-- What is re-read from the members of a document is the document. -/
theorem eq_of_putAll {refuse : String → Status}
    (h : putAll refuse { schema := document.schema } document.members = .ok document') : document' = document := by
  have hschema := schema_of_putAll h
  refine ext_get hschema fun key => ?_
  rw [get_of_putAll document.fields.ascend h key]
  show (document.get key).orElse _ = document.get key
  cases document.get key <;> rfl

end StateDocument

end FabricEvolution

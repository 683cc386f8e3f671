import FabricEvolution.Migration.Composition
import FabricEvolution.Migration.Reverse

/-!
# The documented migration functions

* `Given`, `DeclaredOptional`, `FieldFits`, `Becomes` : the words of the table;
* `Transforms` : the table of the functions, one row a function; `transforms_unique`;
* `Slips` : where the code refuses what the table allows; `applyForward_iff` : and nowhere else;
* `FollowsStep`, `FollowsPath` : a step and a path as documented; `migrateStep_iff`, `migrateSteps_iff`;
* `migrateForward_follows_iff` : a path is migrated as documented exactly when no documented run of it slips.
-/

namespace FabricEvolution
open Lib

/-! ## The words of the table -/

/-- A parameter that is there; an empty one is none. -/
def Given (args : List (String × String)) (name value : String) : Prop := assocFind name args = some value ∧ value ≠ ""

/-- The step declares that its field may be absent. -/
def DeclaredOptional (args : List (String × String)) : Prop :=
  assocFind "optional" args = some "true" ∨ assocFind "optional" args = some "1"

def FieldFits (key value : String) : Prop := key.length ≤ maxStateKeyBytes ∧ value.length ≤ maxStateValueBytes

namespace StateDocument

def size (document : StateDocument) : Nat := document.fields.entries.length

def withField (document : StateDocument) (key value : String) (key' : String) : Option String :=
  if key = key' then some value else document.get key'

def withoutField (document : StateDocument) (key key' : String) : Option String :=
  if key = key' then none else document.get key'

end StateDocument

/-- The document with these fields, at the schema it had. -/
structure Becomes (document document' : StateDocument) (fields : String → Option String) : Prop where
  schema : document'.schema = document.schema
  get : ∀ key, document'.get key = fields key

/-- What a function does to an existing field; without the field it fails, or does nothing if the step declares so. -/
def OnField (args : List (String × String)) (document document' : StateDocument) (key : String) (change : String → Prop) : Prop :=
  document.get key = none ∧ DeclaredOptional args ∧ document' = document ∨ ∃ value, document.get key = some value ∧ change value

/-! ## The table -/

/-- One row for each function. -/
def Transforms (kind : MigrationOpKind) (args : List (String × String)) (document document' : StateDocument) : Prop :=
  match kind with
  | .identity => document' = document
  | .addField => ∃ key value, Given args "key" key ∧ Given args "value" value ∧ FieldFits key value ∧
      (document.get key = none → document'.size ≤ maxStateFields) ∧ Becomes document document' (document.withField key value)
  | .renameField => ∃ source target, Given args "from" source ∧ Given args "to" target ∧
      OnField args document document' source fun value => document.get target = none ∧ FieldFits target value ∧
        Becomes document document' fun key => if source = key then none else document.withField target value key
  | .removeField => ∃ key, Given args "key" key ∧
      OnField args document document' key fun _ => Becomes document document' (document.withoutField key)
  | .wrapValue => ∃ key front back, Given args "key" key ∧ Given args "prefix" front ∧ Given args "suffix" back ∧
      OnField args document document' key fun value => FieldFits key (front ++ value ++ back) ∧
        Becomes document document' (document.withField key (front ++ value ++ back))
  | .unwrapValue => ∃ key front back, Given args "key" key ∧ Given args "prefix" front ∧ Given args "suffix" back ∧
      OnField args document document' key fun value => ∃ inner, value = front ++ inner ++ back ∧ FieldFits key inner ∧
        Becomes document document' (document.withField key inner)
  | .lowercaseField => ∃ key, Given args "key" key ∧
      OnField args document document' key fun value => FieldFits key (lowercase value) ∧
        Becomes document document' (document.withField key (lowercase value))

/-- Where the code refuses what the table allows: `optional` is not looked at by two of the functions, and a rename in a full
document puts the new field before it removes the old one. -/
def Slips (kind : MigrationOpKind) (args : List (String × String)) (document : StateDocument) : Prop :=
  match kind with
  | .unwrapValue | .lowercaseField => DeclaredOptional args ∧ ∃ key, Given args "key" key ∧ document.get key = none
  | .renameField => maxStateFields ≤ document.size ∧ ∃ source target value, Given args "from" source ∧ Given args "to" target ∧
      document.get source = some value ∧ document.get target = none
  | _ => False

/-! ## Fields -/

section
variable {args : List (String × String)} {document document' : StateDocument} {key value name : String}

theorem Given.unique {value' : String} (h : Given args name value) (h' : Given args name value') : value = value' :=
  Option.some.inj (h.1.symm.trans h'.1)

theorem Becomes.unique {document'' : StateDocument} {fields : String → Option String} (h : Becomes document document' fields)
    (h' : Becomes document document'' fields) : document' = document'' :=
  StateDocument.ext_get (h.schema.trans h'.schema.symm) fun key => (h.get key).trans (h'.get key).symm

theorem becomes_insert : Becomes document { document with fields := document.fields.insert key value }
    (document.withField key value) :=
  ⟨rfl, fun _ => SortedMap.find_insert ..⟩

/-- A field that was not there makes the document grow by one. -/
theorem size_of_becomes (h : Becomes document document' (document.withField key value)) (habsent : document.get key = none) :
    document'.size = document.size + 1 := by
  rw [h.unique becomes_insert]
  exact (assocInsert_perm habsent value).length_eq

theorem put_iff : document.put key value = .ok document' ↔ key ≠ "" ∧ FieldFits key value ∧
    (document.get key = none → document.size < maxStateFields) ∧ Becomes document document' (document.withField key value) := by
  constructor
  · intro h
    obtain ⟨rfl, hne, hkey, hvalue⟩ := StateDocument.put_eq_ok h
    refine ⟨hne, ⟨hkey, hvalue⟩, fun habsent => ?_, becomes_insert⟩
    by_contra hfull
    unfold StateDocument.put at h
    rw [if_neg (not_or.2 ⟨hne, Nat.not_lt.2 hkey⟩), if_neg (Nat.not_lt.2 hvalue), if_pos ⟨habsent, Nat.le_of_not_lt hfull⟩] at h
    cases h
  · rintro ⟨hne, ⟨hkey, hvalue⟩, hroom, hbecomes⟩
    have hnotFull : ¬ (document.fields.find key = none ∧ document.fields.entries.length ≥ maxStateFields) := by
      rintro ⟨habsent, hfull⟩
      exact absurd (hroom habsent) (Nat.not_lt.mpr hfull)
    unfold StateDocument.put
    rw [if_neg (not_or.2 ⟨hne, Nat.not_lt.2 hkey⟩), if_neg (Nat.not_lt.2 hvalue), if_neg hnotFull, hbecomes.unique becomes_insert]

theorem remove_iff : document.remove key = .ok document' ↔
    document.contains key = true ∧ Becomes document document' (document.withoutField key) := by
  have hbecomes : Becomes document { document with fields := document.fields.erase key } (document.withoutField key) :=
    ⟨rfl, fun _ => SortedMap.find_erase ..⟩
  rw [StateDocument.remove_eq_ok]
  constructor
  · rintro ⟨hthere, rfl⟩
    exact ⟨hthere, hbecomes⟩
  · rintro ⟨hthere, h⟩
    exact ⟨hthere, h.unique hbecomes⟩

theorem fieldIsOptional_iff {resolved : ResolvedMigration} : resolved.fieldIsOptional = true ↔ DeclaredOptional resolved.args := by
  rw [ResolvedMigration.fieldIsOptional, ResolvedMigration.argumentIsTrue, DeclaredOptional]
  cases assocFind "optional" resolved.args with
  | none => simp
  | some value => simp

/-- The framing of a text is taken off exactly where it stands. -/
theorem stripFraming_eq_some {front back text inner : String} :
    stripFraming front back text = some inner ↔ text = front ++ inner ++ back := by
  constructor
  · intro h
    unfold stripFraming at h
    split_ifs at h with hlength hfront hback
    have hp : front.toList <+: text.toList := List.isPrefixOf_iff_prefix.mp (by simpa using hfront)
    have hs : back.toList <:+ text.toList := List.isSuffixOf_iff_suffix.mp (by simpa using hback)
    obtain ⟨rest, hrest⟩ := hp
    have htotal : text.toList.length = front.length + rest.length := by
      rw [← hrest, List.length_append, String.length_toList]
    rw [String.length_toList] at htotal
    have hsuffix : back.toList <:+ rest := by
      rw [← hrest] at hs
      apply List.suffix_of_suffix_length_le hs (List.suffix_append _ _)
      rw [String.length_toList]
      omega
    obtain ⟨middle, hmiddle⟩ := hsuffix
    have hmiddleLength : middle.length = text.length - front.length - back.length := by
      have := congrArg List.length hmiddle
      rw [List.length_append, String.length_toList] at this
      omega
    have hinner : middle = inner.toList := by
      have htext := congrArg String.toList (Option.some.inj h)
      rw [String.toList_ofList, ← hrest, ← String.length_toList (s := front), List.drop_left, String.length_toList, ← hmiddleLength,
        ← hmiddle, List.take_left] at htext
      exact htext
    apply String.toList_inj.mp
    rw [String.toList_append, String.toList_append, ← hrest, ← hmiddle, hinner, List.append_assoc]
  · rintro rfl
    exact stripFraming_frame front back inner

end

/-! ## The code and the table -/

namespace ResolvedMigration
variable {resolved : ResolvedMigration} {document document' : StateDocument} {key : String}

theorem requireArg_iff {name value : String} : resolved.requireArg name = .ok value ↔ Given resolved.args name value :=
  requireArg_eq_ok

/-- A field that the code looks up, absent unless declared optional. -/
theorem onField_iff {absent : Result StateDocument} {change : String → Result StateDocument}
    {refusal : Status} (habsent : absent = if resolved.fieldIsOptional then .ok document else .error refusal) :
    (match document.get key with | none => absent | some value => change value) = .ok document' ↔
      OnField resolved.args document document' key fun value => change value = .ok document' := by
  rw [OnField]
  cases hget : document.get key with
  | some value => simp
  | none =>
    simp only [habsent, true_and]
    by_cases hoptional : resolved.fieldIsOptional = true
    · simp [hoptional, fieldIsOptional_iff.mp hoptional, eq_comm]
    · have hnot : ¬ DeclaredOptional resolved.args := mt fieldIsOptional_iff.mpr hoptional
      simp [hoptional, hnot]

/-- A field that the code looks up and takes for a failure when absent. -/
theorem onField_or_fail_iff {change : String → Result StateDocument} {refusal : Status} :
    (match document.get key with | none => Except.error refusal | some value => change value) = .ok document' ↔
      OnField resolved.args document document' key (fun value => change value = .ok document') ∧
        ¬ (DeclaredOptional resolved.args ∧ document.get key = none) := by
  rw [OnField]
  cases hget : document.get key with
  | some value => simp
  | none =>
    simp only [true_and, and_true, reduceCtorEq, false_and, exists_false, or_false, false_iff, not_and, not_not]
    exact fun h => h.1

theorem OnField.congr {args : List (String × String)} {change change' : String → Prop}
    (h : ∀ value, document.get key = some value → (change value ↔ change' value)) :
    OnField args document document' key change ↔ OnField args document document' key change' := by
  unfold OnField
  constructor
  · rintro (hleft | ⟨value, hget, hchange⟩)
    · exact .inl hleft
    · exact .inr ⟨value, hget, (h value hget).mp hchange⟩
  · rintro (hleft | ⟨value, hget, hchange⟩)
    · exact .inl hleft
    · exact .inr ⟨value, hget, (h value hget).mpr hchange⟩

/-- A field that is there is put again whenever it fits. -/
theorem put_there_iff {old value : String} (hne : key ≠ "") (hget : document.get key = some old) :
    document.put key value = .ok document' ↔ FieldFits key value ∧ Becomes document document' (document.withField key value) := by
  rw [put_iff]
  constructor
  · rintro ⟨-, hfits, -, hbecomes⟩
    exact ⟨hfits, hbecomes⟩
  · rintro ⟨hfits, hbecomes⟩
    refine ⟨hne, hfits, fun habsent => ?_, hbecomes⟩
    rw [hget] at habsent
    cases habsent

theorem addField_iff (hkind : resolved.kind = .addField) :
    applyForward resolved document = .ok document' ↔ Transforms .addField resolved.args document document' := by
  simp only [applyForward, hkind, Result.bind_eq_ok, requireArg_iff, Transforms]
  constructor
  · rintro ⟨key, hkey, value, hvalue, hput⟩
    obtain ⟨-, hfits, hroom, hbecomes⟩ := put_iff.mp hput
    refine ⟨key, value, hkey, hvalue, hfits, fun habsent => ?_, hbecomes⟩
    rw [size_of_becomes hbecomes habsent]
    exact hroom habsent
  · rintro ⟨key, value, hkey, hvalue, hfits, hroom, hbecomes⟩
    refine ⟨key, hkey, value, hvalue, put_iff.mpr ⟨hkey.2, hfits, fun habsent => ?_, hbecomes⟩⟩
    have hsize := hroom habsent
    rw [size_of_becomes hbecomes habsent] at hsize
    exact hsize

theorem removeField_iff (hkind : resolved.kind = .removeField) :
    applyForward resolved document = .ok document' ↔ Transforms .removeField resolved.args document document' := by
  simp only [applyForward, hkind, Result.bind_eq_ok, requireArg_iff, Transforms]
  refine exists_congr fun key => and_congr_right fun _ => ?_
  rw [OnField, StateDocument.contains]
  cases hget : document.get key with
  | some value =>
    have hthere : document.contains key = true := StateDocument.contains_iff.mpr ⟨value, hget⟩
    simp [remove_iff, hthere]
  | none =>
    by_cases hoptional : resolved.fieldIsOptional = true
    · simp [hoptional, fieldIsOptional_iff.mp hoptional, pure, Except.pure, eq_comm]
    · have hnot : ¬ DeclaredOptional resolved.args := mt fieldIsOptional_iff.mpr hoptional
      simp [hoptional, hnot]

theorem wrapValue_iff (hkind : resolved.kind = .wrapValue) :
    applyForward resolved document = .ok document' ↔ Transforms .wrapValue resolved.args document document' := by
  simp only [applyForward, hkind, Result.bind_eq_ok, requireArg_iff, Transforms]
  constructor
  · rintro ⟨key, hkey, front, hfront, back, hback, h⟩
    have hfield := (onField_iff rfl).mp h
    exact ⟨key, front, back, hkey, hfront, hback, (OnField.congr fun value hget => put_there_iff hkey.2 hget).mp hfield⟩
  · rintro ⟨key, front, back, hkey, hfront, hback, h⟩
    refine ⟨key, hkey, front, hfront, back, hback, (onField_iff rfl).mpr ?_⟩
    exact (OnField.congr fun value hget => put_there_iff hkey.2 hget).mpr h

/-- A step that does not look at `optional`, about the one field that is its key. -/
theorem not_slips_iff {args : List (String × String)} (hkey : Given args "key" key) :
    ¬ (DeclaredOptional args ∧ ∃ key', Given args "key" key' ∧ document.get key' = none) ↔
      ¬ (DeclaredOptional args ∧ document.get key = none) := by
  constructor
  · rintro h ⟨hoptional, habsent⟩
    exact h ⟨hoptional, key, hkey, habsent⟩
  · rintro h ⟨hoptional, key', hkey', habsent⟩
    rw [hkey'.unique hkey] at habsent
    exact h ⟨hoptional, habsent⟩

theorem lowercaseField_iff (hkind : resolved.kind = .lowercaseField) : applyForward resolved document = .ok document' ↔
    Transforms .lowercaseField resolved.args document document' ∧ ¬ Slips .lowercaseField resolved.args document := by
  simp only [applyForward, hkind, Result.bind_eq_ok, requireArg_iff, Transforms, Slips]
  constructor
  · rintro ⟨key, hkey, h⟩
    obtain ⟨hfield, hslips⟩ := onField_or_fail_iff.mp h
    exact ⟨⟨key, hkey, (OnField.congr fun value hget => put_there_iff hkey.2 hget).mp hfield⟩, (not_slips_iff hkey).mpr hslips⟩
  · rintro ⟨⟨key, hkey, h⟩, hslips⟩
    have hfield := (OnField.congr fun value hget => put_there_iff hkey.2 hget).mpr h
    exact ⟨key, hkey, onField_or_fail_iff.mpr ⟨hfield, (not_slips_iff hkey).mp hslips⟩⟩

/-- What is left of a framed text is put. -/
theorem unwrap_put_iff {value front back : String} {refusal : Status} (hne : key ≠ "") (hget : document.get key = some value) :
    (match stripFraming front back value with
      | none => Except.error refusal
      | some unwrapped => document.put key unwrapped) = .ok document' ↔
      ∃ inner, value = front ++ inner ++ back ∧ FieldFits key inner ∧ Becomes document document' (document.withField key inner) := by
  cases hstrip : stripFraming front back value with
  | none =>
    simp only [reduceCtorEq, false_iff, not_exists, not_and]
    intro inner hframed
    rw [stripFraming_eq_some.mpr hframed] at hstrip
    cases hstrip
  | some unwrapped =>
    simp only [put_there_iff hne hget]
    have hframed := stripFraming_eq_some.mp hstrip
    constructor
    · intro h
      exact ⟨unwrapped, hframed, h⟩
    · rintro ⟨inner, hinner, h⟩
      have hsame : stripFraming front back value = some inner := stripFraming_eq_some.mpr hinner
      rw [hstrip] at hsame
      rw [Option.some.inj hsame]
      exact h

theorem unwrapValue_iff (hkind : resolved.kind = .unwrapValue) : applyForward resolved document = .ok document' ↔
    Transforms .unwrapValue resolved.args document document' ∧ ¬ Slips .unwrapValue resolved.args document := by
  simp only [applyForward, hkind, Result.bind_eq_ok, requireArg_iff, Transforms, Slips]
  constructor
  · rintro ⟨key, hkey, front, hfront, back, hback, h⟩
    obtain ⟨hfield, hslips⟩ := onField_or_fail_iff.mp h
    exact ⟨⟨key, front, back, hkey, hfront, hback, (OnField.congr fun value hget => unwrap_put_iff hkey.2 hget).mp hfield⟩,
      (not_slips_iff hkey).mpr hslips⟩
  · rintro ⟨⟨key, front, back, hkey, hfront, hback, h⟩, hslips⟩
    refine ⟨key, hkey, front, hfront, back, hback, onField_or_fail_iff.mpr ⟨?_, (not_slips_iff hkey).mp hslips⟩⟩
    exact (OnField.congr fun value hget => unwrap_put_iff hkey.2 hget).mpr h

/-- The new field is put before the old one is removed, so there must be room for both. -/
theorem move_iff {source target value : String} (hne : target ≠ "") (hget : document.get source = some value)
    (habsent : document.get target = none) : (∃ renamed, document.put target value = .ok renamed ∧ renamed.remove source = .ok document') ↔
      (FieldFits target value ∧ Becomes document document' fun key => if source = key then none else document.withField target value key) ∧
        document.size < maxStateFields := by
  constructor
  · rintro ⟨renamed, hput, hremove⟩
    obtain ⟨-, hfits, hroom, hput⟩ := put_iff.mp hput
    obtain ⟨-, hremoved⟩ := remove_iff.mp hremove
    refine ⟨⟨hfits, hremoved.schema.trans hput.schema, fun key => ?_⟩, hroom habsent⟩
    rw [hremoved.get, StateDocument.withoutField, hput.get]
  · rintro ⟨⟨hfits, hbecomes⟩, hroom⟩
    obtain ⟨renamed, hrenamed⟩ : ∃ renamed, document.put target value = .ok renamed :=
      ⟨_, put_iff.mpr ⟨hne, hfits, fun _ => hroom, becomes_insert⟩⟩
    obtain ⟨-, -, -, hput⟩ := put_iff.mp hrenamed
    have hthere : renamed.contains source = true := by
      rw [StateDocument.contains, hput.get, StateDocument.withField, hget]
      split_ifs <;> rfl
    refine ⟨renamed, hrenamed, remove_iff.mpr ⟨hthere, hbecomes.schema.trans hput.schema.symm, fun key => ?_⟩⟩
    rw [hbecomes.get, StateDocument.withoutField, hput.get]

theorem renameField_iff (hkind : resolved.kind = .renameField) : applyForward resolved document = .ok document' ↔
    Transforms .renameField resolved.args document document' ∧ ¬ Slips .renameField resolved.args document := by
  have hmove : ∀ {source target value : String}, target ≠ "" → document.get source = some value →
      ((if document.contains target = true then
          .error (resolved.failure "would overwrite an existing field: " target)
        else do
          let renamed ← document.put target value
          renamed.remove source) = .ok document' ↔
        document.get target = none ∧
          (FieldFits target value ∧ Becomes document document' fun key => if source = key then none else document.withField target value key) ∧
            document.size < maxStateFields) := by
    intro source target value hne hget
    cases htarget : document.get target with
    | some other =>
      have hthere : document.contains target = true := StateDocument.contains_iff.mpr ⟨other, htarget⟩
      simp [hthere]
    | none =>
      have hfree : document.contains target = false := StateDocument.contains_eq_false.mpr htarget
      rw [hfree, if_neg (by decide), Result.bind_eq_ok, move_iff hne hget htarget]
      simp only [true_and]
  simp only [applyForward, hkind, Result.bind_eq_ok, requireArg_iff, Transforms, Slips]
  constructor
  · rintro ⟨source, hsource, target, htarget, h⟩
    rcases (onField_iff rfl).mp h with hnothing | ⟨value, hget, hchange⟩
    · refine ⟨⟨source, target, hsource, htarget, .inl hnothing⟩, ?_⟩
      rintro ⟨-, source', target', value, hsource', -, hget, -⟩
      rw [hsource'.unique hsource, hnothing.1] at hget
      cases hget
    · obtain ⟨habsent, hmoved, hroom⟩ := (hmove htarget.2 hget).mp hchange
      refine ⟨⟨source, target, hsource, htarget, .inr ⟨value, hget, habsent, hmoved⟩⟩, ?_⟩
      rintro ⟨hfull, -⟩
      omega
  · rintro ⟨⟨source, target, hsource, htarget, h⟩, hslips⟩
    refine ⟨source, hsource, target, htarget, (onField_iff rfl).mpr ?_⟩
    rcases h with hnothing | ⟨value, hget, habsent, hmoved⟩
    · exact .inl hnothing
    · refine .inr ⟨value, hget, (hmove htarget.2 hget).mpr ⟨habsent, hmoved, ?_⟩⟩
      by_contra hfull
      exact hslips ⟨Nat.le_of_not_lt hfull, source, target, value, hsource, htarget, hget, habsent⟩

/-- The code does what the table says wherever it does not slip. -/
theorem applyForward_iff : applyForward resolved document = .ok document' ↔
    Transforms resolved.kind resolved.args document document' ∧ ¬ Slips resolved.kind resolved.args document := by
  cases hkind : resolved.kind with
  | identity => simp [applyForward, hkind, Transforms, Slips, eq_comm]
  | addField => simp [addField_iff hkind, Slips]
  | renameField => exact renameField_iff hkind
  | removeField => simp [removeField_iff hkind, Slips]
  | wrapValue => simp [wrapValue_iff hkind, Slips]
  | unwrapValue => exact unwrapValue_iff hkind
  | lowercaseField => exact lowercaseField_iff hkind

end ResolvedMigration

/-- A row of the table makes one document of a document. -/
theorem transforms_unique {kind : MigrationOpKind} {args : List (String × String)} {document document' document'' : StateDocument}
    (h : Transforms kind args document document') (h' : Transforms kind args document document'') : document' = document'' := by
  have honField : ∀ {key : String} {change change' : String → Prop}, OnField args document document' key change →
      OnField args document document'' key change' →
      (∀ value, document.get key = some value → change value → change' value → document' = document'') → document' = document'' := by
    rintro key change change' (⟨habsent, -, rfl⟩ | ⟨value, hget, hchange⟩) (⟨habsent', -, rfl⟩ | ⟨value', hget', hchange'⟩) hsame
    · rfl
    · rw [habsent] at hget'
      cases hget'
    · rw [habsent'] at hget
      cases hget
    · obtain rfl := Option.some.inj (hget.symm.trans hget')
      exact hsame value hget hchange hchange'
  cases kind with
  | identity => exact h.trans h'.symm
  | addField =>
    obtain ⟨key, value, hkey, hvalue, -, -, hbecomes⟩ := h
    obtain ⟨key', value', hkey', hvalue', -, -, hbecomes'⟩ := h'
    obtain rfl := hkey.unique hkey'
    obtain rfl := hvalue.unique hvalue'
    exact hbecomes.unique hbecomes'
  | renameField =>
    obtain ⟨source, target, hsource, htarget, hfield⟩ := h
    obtain ⟨source', target', hsource', htarget', hfield'⟩ := h'
    obtain rfl := hsource.unique hsource'
    obtain rfl := htarget.unique htarget'
    exact honField hfield hfield' fun value _ hchange hchange' => hchange.2.2.unique hchange'.2.2
  | removeField =>
    obtain ⟨key, hkey, hfield⟩ := h
    obtain ⟨key', hkey', hfield'⟩ := h'
    obtain rfl := hkey.unique hkey'
    exact honField hfield hfield' fun value _ hchange hchange' => hchange.unique hchange'
  | wrapValue =>
    obtain ⟨key, front, back, hkey, hfront, hback, hfield⟩ := h
    obtain ⟨key', front', back', hkey', hfront', hback', hfield'⟩ := h'
    obtain rfl := hkey.unique hkey'
    obtain rfl := hfront.unique hfront'
    obtain rfl := hback.unique hback'
    exact honField hfield hfield' fun value _ hchange hchange' => hchange.2.unique hchange'.2
  | unwrapValue =>
    obtain ⟨key, front, back, hkey, hfront, hback, hfield⟩ := h
    obtain ⟨key', front', back', hkey', hfront', hback', hfield'⟩ := h'
    obtain rfl := hkey.unique hkey'
    obtain rfl := hfront.unique hfront'
    obtain rfl := hback.unique hback'
    refine honField hfield hfield' fun value _ hchange hchange' => ?_
    obtain ⟨inner, hframed, -, hbecomes⟩ := hchange
    obtain ⟨inner', hframed', -, hbecomes'⟩ := hchange'
    obtain rfl := Option.some.inj ((stripFraming_eq_some.mpr hframed).symm.trans (stripFraming_eq_some.mpr hframed'))
    exact hbecomes.unique hbecomes'
  | lowercaseField =>
    obtain ⟨key, hkey, hfield⟩ := h
    obtain ⟨key', hkey', hfield'⟩ := h'
    obtain rfl := hkey.unique hkey'
    exact honField hfield hfield' fun value _ hchange hchange' => hchange.2.unique hchange'.2

/-! ## Declared steps -/

/-- A step that names a function of the table and gives it text parameters within the permitted size. -/
structure Declares (spec : MigrationStepSpec) (kind : MigrationOpKind) (args : List (String × String)) : Prop where
  function : spec.function = kind.name
  deterministic : spec.deterministic = true
  parameters : spec.parameters = .object (args.map fun arg => (arg.1, .string arg.2)) ∨ spec.parameters = .null ∧ args = []
  sizes : ∀ arg ∈ args, arg.1.length ≤ maxStateKeyBytes ∧ arg.2.length ≤ maxMigrationArgumentBytes

theorem readArg_iff {spec : MigrationStepSpec} {entry : String × Json} {arg : String × String} : readArg spec entry = .ok arg ↔
    entry = (arg.1, .string arg.2) ∧ arg.1.length ≤ maxStateKeyBytes ∧ arg.2.length ≤ maxMigrationArgumentBytes := by
  obtain ⟨key, value⟩ := entry
  obtain ⟨name, text⟩ := arg
  unfold readArg
  cases value with
  | string text' =>
    simp only [Json.tryString]
    by_cases hsize : key.length > maxStateKeyBytes ∨ text'.length > maxMigrationArgumentBytes
    · rw [if_pos hsize]
      constructor
      · intro h
        cases h
      · rintro ⟨heq, hkey, htext⟩
        cases heq
        omega
    · rw [if_neg hsize]
      constructor
      · intro h
        cases h
        exact ⟨rfl, by omega, by omega⟩
      · rintro ⟨heq, -⟩
        cases heq
        rfl
  | _ => simp [Json.tryString]

theorem mapM_readArg_iff {spec : MigrationStepSpec} {members : List (String × Json)} {args : List (String × String)} :
    members.mapM (readArg spec) = .ok args ↔ members = args.map (fun arg => (arg.1, .string arg.2)) ∧
      ∀ arg ∈ args, arg.1.length ≤ maxStateKeyBytes ∧ arg.2.length ≤ maxMigrationArgumentBytes := by
  induction members generalizing args with
  | nil =>
    constructor
    · intro h
      cases h
      exact ⟨rfl, fun _ h => absurd h List.not_mem_nil⟩
    · rintro ⟨h, -⟩
      rw [List.map_eq_nil_iff.mp h.symm]
      rfl
  | cons member members ih =>
    simp only [List.mapM_cons, Result.bind_eq_ok]
    constructor
    · rintro ⟨arg, harg, rest, hrest, h⟩
      cases h
      obtain ⟨rfl, hkey, htext⟩ := readArg_iff.mp harg
      obtain ⟨rfl, hsizes⟩ := ih.mp hrest
      exact ⟨rfl, List.forall_mem_cons.mpr ⟨⟨hkey, htext⟩, hsizes⟩⟩
    · rintro ⟨hmembers, hsizes⟩
      cases args with
      | nil => cases hmembers
      | cons arg args =>
        rw [List.map_cons, List.cons.injEq] at hmembers
        obtain ⟨hsize, hsizes⟩ := List.forall_mem_cons.mp hsizes
        exact ⟨arg, readArg_iff.mpr ⟨hmembers.1, hsize⟩, args, ih.mpr ⟨hmembers.2, hsizes⟩, rfl⟩

theorem fromFunction_iff {function : String} {kind : MigrationOpKind} :
    MigrationOpKind.fromFunction function = some kind ↔ function = kind.name := by
  constructor
  · intro h
    have hname := List.find?_some h
    simpa using (decide_eq_true_eq.mp hname).symm
  · rintro rfl
    cases kind <;> rfl

theorem resolveMigrationStep_iff {spec : MigrationStepSpec} {resolved : ResolvedMigration} :
    resolveMigrationStep spec = .ok resolved ↔ Declares spec resolved.kind resolved.args ∧ resolved.spec = spec := by
  have hargs : ∀ args, readArgs spec = .ok args ↔
      (spec.parameters = .object (args.map fun arg => (arg.1, .string arg.2)) ∨ spec.parameters = .null ∧ args = []) ∧
        ∀ arg ∈ args, arg.1.length ≤ maxStateKeyBytes ∧ arg.2.length ≤ maxMigrationArgumentBytes := by
    intro args
    unfold readArgs
    cases hparameters : spec.parameters with
    | object members => simp [mapM_readArg_iff]
    | null =>
      simp only [Except.ok.injEq, reduceCtorEq, false_or, true_and]
      constructor
      · rintro rfl
        exact ⟨rfl, fun _ h => absurd h List.not_mem_nil⟩
      · rintro ⟨rfl, -⟩
        rfl
    | _ => simp
  simp only [resolveMigrationStep, Result.bind_eq_ok, orRefuse_eq_ok, refuseUnless_eq_ok, hargs, fromFunction_iff]
  constructor
  · rintro ⟨args, ⟨hparameters, hsizes⟩, kind, hkind, _, hdeterministic, h⟩
    cases h
    exact ⟨⟨hkind, hdeterministic, hparameters, hsizes⟩, rfl⟩
  · rintro ⟨h, rfl⟩
    exact ⟨resolved.args, ⟨h.parameters, h.sizes⟩, resolved.kind, h.function, (), h.deterministic, rfl⟩

theorem Declares.unique {spec : MigrationStepSpec} {kind kind' : MigrationOpKind} {args args' : List (String × String)}
    (h : Declares spec kind args) (h' : Declares spec kind' args') : kind = kind' ∧ args = args' := by
  have hresolved := resolveMigrationStep_iff.mpr ⟨h, show (ResolvedMigration.mk spec kind args).spec = spec from rfl⟩
  have hresolved' := resolveMigrationStep_iff.mpr ⟨h', show (ResolvedMigration.mk spec kind' args').spec = spec from rfl⟩
  rw [hresolved] at hresolved'
  cases hresolved'
  exact ⟨rfl, rfl⟩

/-! ## Documented runs -/

section
variable (digestOf : Json → Digest)

/-- A declared step takes a document of its schema, the one its evidence is about, through its row of the table to its target. -/
structure FollowsStep (document : StateDocument) (spec : MigrationStepSpec) (document' : StateDocument) : Prop where
  contiguous : spec.source = document.schema
  evidence : spec.evidenceDigest.isZero = true ∨
    migrationEvidenceDigest digestOf spec (document.digest digestOf) = spec.evidenceDigest
  target : spec.target ≠ 0
  transforms : ∃ kind args transformed, Declares spec kind args ∧ Transforms kind args document transformed ∧
    document' = { transformed with schema := spec.target }

/-- The steps of a path in order. -/
inductive FollowsPath : StateDocument → List MigrationStepSpec → StateDocument → Prop
  | nil (document : StateDocument) : FollowsPath document [] document
  | cons {document middle final : StateDocument} {spec : MigrationStepSpec} {path : List MigrationStepSpec} :
      FollowsStep digestOf document spec middle → FollowsPath middle path final → FollowsPath document (spec :: path) final

/-- A declared step where the code refuses what the table allows. -/
def SlipsAt (spec : MigrationStepSpec) (document : StateDocument) : Prop :=
  ∃ kind args, Declares spec kind args ∧ Slips kind args document

variable {digestOf}

theorem FollowsStep.unique {document document' document'' : StateDocument} {spec : MigrationStepSpec}
    (h : FollowsStep digestOf document spec document') (h' : FollowsStep digestOf document spec document'') : document' = document'' := by
  obtain ⟨kind, args, transformed, hdeclares, htransforms, rfl⟩ := h.transforms
  obtain ⟨kind', args', transformed', hdeclares', htransforms', rfl⟩ := h'.transforms
  obtain ⟨rfl, rfl⟩ := hdeclares.unique hdeclares'
  rw [transforms_unique htransforms htransforms']

theorem FollowsPath.unique {document final final' : StateDocument} {path : List MigrationStepSpec}
    (h : FollowsPath digestOf document path final) (h' : FollowsPath digestOf document path final') : final = final' := by
  induction h with
  | nil document =>
    cases h'
    rfl
  | cons hstep _ ih =>
    cases h' with
    | cons hstep' hrest' =>
      rw [← hstep.unique hstep'] at hrest'
      exact ih hrest'

/-- The code takes a step as documented wherever it does not slip. -/
theorem migrateStep_iff {document document' : StateDocument} {spec : MigrationStepSpec} :
    (∃ record, migrateStep digestOf document spec = .ok (document', record)) ↔
      FollowsStep digestOf document spec document' ∧ ¬ SlipsAt spec document := by
  constructor
  · rintro ⟨record, h⟩
    simp only [migrateStep, Result.bind_eq_ok, refuseUnless_eq_ok, Bool.or_eq_true, decide_eq_true_eq] at h
    obtain ⟨_, hcontiguous, resolved, hresolved, _, hevidence, transformed, happlied, migrated, hschema, h⟩ := h
    cases h
    obtain ⟨hdeclares, -⟩ := resolveMigrationStep_iff.mp hresolved
    obtain ⟨htransforms, hslips⟩ := ResolvedMigration.applyForward_iff.mp happlied
    obtain ⟨htarget, rfl⟩ := StateDocument.setSchema_eq_ok.mp hschema
    refine ⟨⟨hcontiguous, hevidence, htarget, resolved.kind, resolved.args, transformed, hdeclares, htransforms, rfl⟩, ?_⟩
    rintro ⟨kind, args, hdeclares', hslips'⟩
    obtain ⟨rfl, rfl⟩ := hdeclares.unique hdeclares'
    exact hslips hslips'
  · rintro ⟨h, hslips⟩
    obtain ⟨kind, args, transformed, hdeclares, htransforms, rfl⟩ := h.transforms
    have hresolved : resolveMigrationStep spec = .ok ⟨spec, kind, args⟩ := resolveMigrationStep_iff.mpr ⟨hdeclares, rfl⟩
    have happlied : applyForward ⟨spec, kind, args⟩ document = .ok transformed :=
      ResolvedMigration.applyForward_iff.mpr ⟨htransforms, fun h => hslips ⟨kind, args, hdeclares, h⟩⟩
    have hschema : transformed.setSchema spec.target = .ok { transformed with schema := spec.target } :=
      StateDocument.setSchema_eq_ok.mpr ⟨h.target, rfl⟩
    simp only [migrateStep, Result.bind_eq_ok, refuseUnless_eq_ok, Bool.or_eq_true, decide_eq_true_eq]
    exact ⟨_, (), h.contiguous, _, hresolved, (), h.evidence, _, happlied, _, hschema, rfl⟩

/-- A documented run that passes no slip. -/
def Unslipped (digestOf : Json → Digest) (document : StateDocument) (path : List MigrationStepSpec) : Prop :=
  ∀ front spec back middle, path = front ++ spec :: back → FollowsPath digestOf document front middle → ¬ SlipsAt spec middle

theorem unslipped_cons {document middle : StateDocument} {spec : MigrationStepSpec} {path : List MigrationStepSpec}
    (hstep : FollowsStep digestOf document spec middle) :
    Unslipped digestOf document (spec :: path) ↔ ¬ SlipsAt spec document ∧ Unslipped digestOf middle path := by
  constructor
  · intro h
    refine ⟨h [] spec path document rfl (.nil document), fun front spec' back middle' hpath hfront => ?_⟩
    exact h (spec :: front) spec' back middle' (by rw [hpath]; rfl) (.cons hstep hfront)
  · rintro ⟨hslips, hrest⟩ front spec' back middle' hpath hfront
    cases hfront with
    | nil =>
      cases hpath
      exact hslips
    | cons hstep' hfront =>
      cases hpath
      rw [← hstep.unique hstep'] at hfront
      exact hrest _ _ _ _ rfl hfront

/-- The code takes a path as documented wherever it does not slip. -/
theorem migrateSteps_iff {document final : StateDocument} {path : List MigrationStepSpec} :
    (∃ records, migrateSteps digestOf document path = .ok (final, records)) ↔
      FollowsPath digestOf document path final ∧ Unslipped digestOf document path := by
  induction path generalizing document with
  | nil =>
    constructor
    · rintro ⟨records, h⟩
      cases h
      refine ⟨.nil _, fun front spec back middle hpath => ?_⟩
      cases front <;> cases hpath
    · rintro ⟨h, -⟩
      cases h
      exact ⟨[], rfl⟩
  | cons spec path ih =>
    constructor
    · rintro ⟨records, h⟩
      obtain ⟨middle, record, rest, hstep, hrest, rfl⟩ := (migrateSteps_cons digestOf).mp h
      obtain ⟨hfollows, hslips⟩ := migrateStep_iff.mp ⟨record, hstep⟩
      obtain ⟨hpath, hunslipped⟩ := ih.mp ⟨rest, hrest⟩
      exact ⟨.cons hfollows hpath, (unslipped_cons hfollows).mpr ⟨hslips, hunslipped⟩⟩
    · rintro ⟨hpath, hunslipped⟩
      cases hpath with
      | cons hfollows hpath =>
        obtain ⟨hslips, hunslipped⟩ := (unslipped_cons hfollows).mp hunslipped
        obtain ⟨record, hstep⟩ := migrateStep_iff.mpr ⟨hfollows, hslips⟩
        obtain ⟨rest, hrest⟩ := ih.mpr ⟨hpath, hunslipped⟩
        exact ⟨record :: rest, (migrateSteps_cons digestOf).mpr ⟨_, record, rest, hstep, hrest, rfl⟩⟩

end

/-- A path is migrated as documented, to the documented document and to no other, exactly when no step of a documented run of it
is one that the code refuses although the table allows it. -/
theorem migrateForward_follows_iff (digestOf : Json → Digest) (document : StateDocument) (path : List MigrationStepSpec) :
    (∀ final, (∃ outcome, migrateForward digestOf document path = .ok (final, outcome)) ↔ FollowsPath digestOf document path final) ↔
      ((∃ final, FollowsPath digestOf document path final) → ∀ front spec back middle, path = front ++ spec :: back →
        FollowsPath digestOf document front middle → ¬ SlipsAt spec middle) := by
  have hmigrates : ∀ final, (∃ outcome, migrateForward digestOf document path = .ok (final, outcome)) ↔
      FollowsPath digestOf document path final ∧ Unslipped digestOf document path := by
    intro final
    rw [← migrateSteps_iff]
    constructor
    · rintro ⟨outcome, h⟩
      obtain ⟨records, hsteps, -⟩ := (migrateForward_eq_ok digestOf).mp h
      exact ⟨records, hsteps⟩
    · rintro ⟨records, hsteps⟩
      exact ⟨_, (migrateForward_eq_ok digestOf).mpr ⟨records, hsteps, rfl⟩⟩
  simp only [hmigrates]
  constructor
  · rintro h ⟨final, hfinal⟩
    exact ((h final).mpr hfinal).2
  · intro h final
    constructor
    · exact fun hfinal => hfinal.1
    · exact fun hfinal => ⟨hfinal, h ⟨final, hfinal⟩⟩

/-- A step that declares its field optional, and a document without that field. -/
theorem optional_unwrap_refused : ∃ (document : StateDocument) (spec : MigrationStepSpec) (final : StateDocument),
    (∀ digestOf, FollowsPath digestOf document [spec] final) ∧
      ∀ digestOf final' outcome, migrateForward digestOf document [spec] ≠ .ok (final', outcome) := by
  let args := [("key", "body"), ("optional", "1"), ("prefix", "a"), ("suffix", "b")]
  let spec : MigrationStepSpec := { id := ⟨"unwrap", .inr (by decide)⟩, source := 1, target := 2, function := "unwrap_value"
                                    parameters := .object (args.map fun arg => (arg.1, .string arg.2)) }
  let document : StateDocument := { schema := 1, fields := .empty }
  have hdeclares : Declares spec .unwrapValue args := ⟨rfl, rfl, .inl rfl, by decide⟩
  have hkey : Given args "key" "body" := ⟨rfl, by decide⟩
  refine ⟨document, spec, { document with schema := 2 }, fun digestOf => ?_, fun digestOf final' outcome h => ?_⟩
  · apply FollowsPath.cons _ (.nil _)
    refine ⟨rfl, .inl rfl, by decide, .unwrapValue, args, document, hdeclares, ?_, rfl⟩
    exact ⟨"body", "a", "b", hkey, ⟨rfl, by decide⟩, ⟨rfl, by decide⟩, .inl ⟨rfl, .inr rfl, rfl⟩⟩
  · obtain ⟨records, hsteps, -⟩ := (migrateForward_eq_ok digestOf).mp h
    obtain ⟨-, hunslipped⟩ := migrateSteps_iff.mp ⟨records, hsteps⟩
    exact hunslipped [] spec [] document rfl (.nil _) ⟨.unwrapValue, args, hdeclares, .inr rfl, "body", hkey, rfl⟩

end FabricEvolution

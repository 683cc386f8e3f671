import FabricEvolution.Migration.Bounds

/-!
# The backward migrator

* `reverseMigration` : the transformation that takes a resolved step back; `migrateBackward` : a whole path, last step first;
* `Recoverable`, `Invertible` : the documents from which a step, a path, can be taken back;
* `Lost` : a field of the original that the document has not; `Lost.undo` : no step taken back brings it again;
* `migrateBackward_restores_iff` : a migration is taken back exactly from an invertible document.
-/

namespace FabricEvolution
open Lib

/-! ## The migrator -/

/-- An absent argument throws; a step that was applied has it. -/
def ResolvedMigration.argAt (resolved : ResolvedMigration) (name : String) : Result String :=
  orRefuse (assocFind name resolved.args) (.plain .internal "map::at")

def reverseMigration (resolved : ResolvedMigration) : Result ResolvedMigration :=
  match resolved.kind with
  | .identity => return ⟨resolved.spec, .identity, resolved.args⟩
  | .addField => do
    let key ← resolved.argAt "key"
    return ⟨resolved.spec, .removeField, [("key", key)]⟩
  | .renameField => do
    let target ← resolved.argAt "to"
    let source ← resolved.argAt "from"
    return ⟨resolved.spec, .renameField, [("from", target), ("to", source)]⟩
  | .wrapValue => return ⟨resolved.spec, .unwrapValue, resolved.args⟩
  | _ => .error ⟨.irreversibleBoundary, resolved.spec.title ++ " has no reverse transformation",
      .ofPairs [("function", .string resolved.spec.function)]⟩

section Migrator
variable (digestOf : Json → Digest)

/-- One step of the loop of `migrate_backward`; the loop's `current` is the schema of `working`. -/
def migrateBackStep (working : StateDocument) (spec : MigrationStepSpec) :
    Result (StateDocument × MigrationStepRecord) := do
  refuseUnless (spec.target = working.schema)
    ⟨.migrationFailure, "reverse migration path is not contiguous at step " ++ spec.id.str,
      .ofPairs [("expected_to", .uint working.schema), ("step_to", .uint spec.target)]⟩
  let resolved ← resolveMigrationStep spec
  refuseUnless (!(spec.irreversibleBoundary || !spec.reversible))
    ⟨.irreversibleBoundary, "cannot downgrade across irreversible migration boundary " ++ spec.id.str,
      .ofPairs [("step", .string spec.id.str), ("from_schema", .uint spec.source), ("to_schema", .uint spec.target),
        ("function", .string spec.function)]⟩
  let before := working.digest digestOf
  let reverse ← reverseMigration resolved
  let applied ← applyForward reverse working
  let migrated ← applied.setSchema spec.source
  return (migrated,
    { step := spec.id, source := spec.target, target := spec.source, stateDigestBefore := before,
      stateDigestAfter := migrated.digest digestOf, evidenceDigest := .zero, irreversibleBoundary := false })

def migrateBackSteps : StateDocument → List MigrationStepSpec → Result (StateDocument × List MigrationStepRecord)
  | working, [] => return (working, [])
  | working, spec :: path => do
    let (migrated, record) ← migrateBackStep digestOf working spec
    let (final, records) ← migrateBackSteps migrated path
    return (final, record :: records)

/-- The path from its last step; a failed migration leaves the document as it was. -/
def migrateBackward (document : StateDocument) (path : List MigrationStepSpec) :
    Result (StateDocument × MigrationOutcome) := do
  let (final, records) ← migrateBackSteps digestOf document path.reverse
  return (final,
    { source := document.schema, target := final.schema, steps := records,
      stateDigestBefore := document.digest digestOf, stateDigestAfter := final.digest digestOf,
      crossedIrreversibleBoundary := false, irreversibleBoundariesCrossed := [] })

theorem migrateBackSteps_snoc {working final : StateDocument} {path : List MigrationStepSpec} {spec : MigrationStepSpec} :
    (∃ records, migrateBackSteps digestOf working (path ++ [spec]) = .ok (final, records)) ↔
      ∃ middle, (∃ records, migrateBackSteps digestOf working path = .ok (middle, records)) ∧
        ∃ record, migrateBackStep digestOf middle spec = .ok (final, record) := by
  induction path generalizing working with
  | nil =>
    constructor
    · rintro ⟨records, h⟩
      obtain ⟨⟨migrated, record⟩, hstep, h⟩ := Result.bind_eq_ok.mp h
      cases h
      exact ⟨working, ⟨[], rfl⟩, record, hstep⟩
    · rintro ⟨middle, ⟨records, h⟩, record, hstep⟩
      cases h
      exact ⟨[record], Result.bind_eq_ok.mpr ⟨(final, record), hstep, rfl⟩⟩
  | cons first path ih =>
    constructor
    · rintro ⟨records, h⟩
      obtain ⟨⟨migrated, record⟩, hfirst, h⟩ := Result.bind_eq_ok.mp h
      obtain ⟨⟨final', records'⟩, hrest, h⟩ := Result.bind_eq_ok.mp h
      cases h
      obtain ⟨middle, ⟨records, hmiddle⟩, hstep⟩ := ih.mp ⟨records', hrest⟩
      exact ⟨middle, ⟨record :: records, Result.bind_eq_ok.mpr ⟨(migrated, record), hfirst,
        Result.bind_eq_ok.mpr ⟨(middle, records), hmiddle, rfl⟩⟩⟩, hstep⟩
    · rintro ⟨middle, ⟨records, h⟩, hstep⟩
      obtain ⟨⟨migrated, record⟩, hfirst, h⟩ := Result.bind_eq_ok.mp h
      obtain ⟨⟨middle', records'⟩, hrest, h⟩ := Result.bind_eq_ok.mp h
      cases h
      obtain ⟨all, hall⟩ := ih.mpr ⟨middle, ⟨records', hrest⟩, hstep⟩
      exact ⟨record :: all, Result.bind_eq_ok.mpr ⟨(migrated, record), hfirst,
        Result.bind_eq_ok.mpr ⟨(final, all), hall, rfl⟩⟩⟩

end Migrator

/-! ## Fields that come and go -/

namespace StateDocument
variable {document document' : StateDocument} {key value : String}

theorem contains_iff : document.contains key = true ↔ ∃ value, document.get key = some value := by
  rw [contains, Option.isSome_iff_exists]

theorem contains_eq_false : document.contains key = false ↔ document.get key = none := by
  rw [contains, Option.isSome_eq_false_iff, Option.isNone_iff_eq_none]

theorem remove_eq_ok : document.remove key = .ok document' ↔
    document.contains key = true ∧ document' = { document with fields := document.fields.erase key } := by
  unfold remove
  cases hget : document.get key with
  | none => simp [contains, hget]
  | some value => simp [contains, hget, eq_comm]

@[simp] theorem get_remove (h : document.remove key = .ok document') (key' : String) :
    document'.get key' = if key = key' then none else document.get key' := by
  obtain ⟨-, rfl⟩ := remove_eq_ok.mp h
  exact SortedMap.find_erase ..

/-- A field that is there can be put back with a value of the permitted size. -/
theorem put_of_contains (h : document.FieldsBounded) (hkey : document.contains key = true)
    (hvalue : value.length ≤ maxStateValueBytes) : ∃ document', document.put key value = .ok document' := by
  obtain ⟨old, hold⟩ := contains_iff.mp hkey
  obtain ⟨hne, hlen⟩ := h.key _ (mem_of_assocFind hold)
  have hfull : ¬ (document.fields.find key = none ∧ document.fields.entries.length ≥ maxStateFields) := by
    rintro ⟨hnone, -⟩
    rw [show document.fields.find key = some old from hold] at hnone
    cases hnone
  unfold put
  rw [if_neg (not_or.2 ⟨hne, Nat.not_lt.2 hlen⟩), if_neg (Nat.not_lt.2 hvalue), if_neg hfull]
  exact ⟨_, rfl⟩

/-- A field put where there was none, and one taken away: the document is not full. -/
theorem length_of_move {key' : String} {document'' : StateDocument} (hput : document.put key value = .ok document')
    (habsent : document.contains key = false) (hremove : document'.remove key' = .ok document'') :
    document''.fields.entries.length < maxStateFields := by
  have hroom : ¬ document.fields.entries.length ≥ maxStateFields := by
    intro hfull
    obtain ⟨-, hne, hkey, hvalue⟩ := put_eq_ok hput
    unfold put at hput
    rw [if_neg (not_or.2 ⟨hne, Nat.not_lt.2 hkey⟩), if_neg (Nat.not_lt.2 hvalue),
      if_pos ⟨contains_eq_false.mp habsent, hfull⟩] at hput
    cases hput
  obtain ⟨hthere, rfl⟩ := remove_eq_ok.mp hremove
  obtain ⟨old, hold⟩ := contains_iff.mp hthere
  have hshorter : (assocErase key' document'.fields.entries).length < document'.fields.entries.length := length_assocErase_lt hold
  obtain ⟨rfl, -⟩ := put_eq_ok hput
  have hlonger := length_assocInsert_le key value document.fields.entries
  change (assocErase key' (assocInsert key value document.fields.entries)).length < maxStateFields
  change (assocErase key' (assocInsert key value document.fields.entries)).length <
    (assocInsert key value document.fields.entries).length at hshorter
  omega

theorem FieldsBounded.get (h : document.FieldsBounded) (hget : document.get key = some value) :
    key ≠ "" ∧ key.length ≤ maxStateKeyBytes ∧ value.length ≤ maxStateValueBytes := by
  have hmem := mem_of_assocFind hget
  exact ⟨(h.key _ hmem).1, (h.key _ hmem).2, h.value _ hmem⟩

end StateDocument

theorem stripFraming_frame (prefixText suffixText value : String) :
    stripFraming prefixText suffixText (prefixText ++ value ++ suffixText) = some value := by
  have hlength : (prefixText ++ value ++ suffixText).length = prefixText.length + value.length + suffixText.length := by
    simp [String.length_append]
  unfold stripFraming
  rw [if_neg (by omega)]
  have hlist : (prefixText ++ value ++ suffixText).toList = prefixText.toList ++ (value.toList ++ suffixText.toList) := by
    simp [String.toList_append]
  have hfront : prefixText.toList.isPrefixOf (prefixText ++ value ++ suffixText).toList = true := by
    rw [hlist, List.isPrefixOf_iff_prefix]
    exact List.prefix_append _ _
  have hback : suffixText.toList.isSuffixOf (prefixText ++ value ++ suffixText).toList = true := by
    rw [hlist, ← List.append_assoc, List.isSuffixOf_iff_suffix]
    exact List.suffix_append _ _
  have hrest : prefixText.length + value.length + suffixText.length - prefixText.length - suffixText.length =
      value.toList.length := by
    rw [String.length_toList]
    omega
  rw [if_neg (by rw [hfront]; decide), if_neg (by rw [hback]; decide), hlength, hrest, hlist,
    ← String.length_toList (s := prefixText), List.drop_left, List.take_left, String.ofList_toList]

/-! ## One step and its reversal -/

namespace ResolvedMigration
variable {resolved reverse : ResolvedMigration} {document applied working undone : StateDocument} {name value : String}

/-- An argument; empty where there is none. -/
def arg (resolved : ResolvedMigration) (name : String) : String := (assocFind name resolved.args).getD ""

theorem requireArg_eq_ok : resolved.requireArg name = .ok value ↔ assocFind name resolved.args = some value ∧ value ≠ "" := by
  unfold requireArg
  cases assocFind name resolved.args with
  | none => simp
  | some found =>
    dsimp only
    split_ifs with hempty
    · simp only [false_iff, not_and, Option.some.injEq]
      rintro rfl
      exact not_not.mpr hempty
    · simp only [Except.ok.injEq, Option.some.injEq]
      constructor
      · rintro rfl
        exact ⟨rfl, hempty⟩
      · exact And.left

theorem arg_of_find (h : assocFind name resolved.args = some value) : resolved.arg name = value := by
  rw [arg, h, Option.getD_some]

/-- The step can be taken back from what it makes of `document`. -/
def Recoverable (resolved : ResolvedMigration) (document : StateDocument) : Prop :=
  match resolved.kind with
  | .identity => True
  | .addField => document.contains (resolved.arg "key") = false
  | .renameField => document.contains (resolved.arg "from") = true
  | .wrapValue => document.contains (resolved.arg "key") = true
  | .removeField | .unwrapValue | .lowercaseField => False

end ResolvedMigration

/-- A field of `document` is not in `working`. -/
def Lost (document working : StateDocument) : Prop := ∃ key, document.contains key = true ∧ working.contains key = false

theorem Lost.ne {document working : StateDocument} (h : Lost document working) : working ≠ document := by
  rintro rfl
  obtain ⟨key, hthere, hgone⟩ := h
  rw [hthere] at hgone
  cases hgone

namespace StateDocument
variable {document document' : StateDocument} {key value : String}

theorem contains_put (h : document.put key value = .ok document') (key' : String) :
    document'.contains key' = (key = key' || document.contains key') := by
  rw [contains, get_put h]
  by_cases hk : key = key' <;> simp [hk, contains]

theorem contains_remove (h : document.remove key = .ok document') (key' : String) :
    document'.contains key' = (key ≠ key' && document.contains key') := by
  rw [contains, get_remove h]
  by_cases hk : key = key' <;> simp [hk, contains]

end StateDocument

/-- What a successful rename found and did. -/
theorem rename_cases {resolved : ResolvedMigration} {document applied : StateDocument} (hkind : resolved.kind = .renameField)
    (h : applyForward resolved document = .ok applied) : ∃ source target, assocFind "from" resolved.args = some source ∧
      assocFind "to" resolved.args = some target ∧ source ≠ "" ∧ target ≠ "" ∧
      (document.contains source = false ∧ resolved.fieldIsOptional = true ∧ applied = document ∨
        ∃ value renamed, document.get source = some value ∧ document.contains target = false ∧
          document.put target value = .ok renamed ∧ renamed.remove source = .ok applied) := by
  simp only [applyForward, hkind] at h
  obtain ⟨source, hsource, h⟩ := Result.bind_eq_ok.mp h
  obtain ⟨target, htarget, h⟩ := Result.bind_eq_ok.mp h
  obtain ⟨hsource, hs⟩ := ResolvedMigration.requireArg_eq_ok.mp hsource
  obtain ⟨htarget, ht⟩ := ResolvedMigration.requireArg_eq_ok.mp htarget
  refine ⟨source, target, hsource, htarget, hs, ht, ?_⟩
  cases hget : document.get source with
  | none =>
    simp only [hget] at h
    split_ifs at h with hoptional
    cases h
    exact .inl ⟨StateDocument.contains_eq_false.mpr hget, hoptional, rfl⟩
  | some value =>
    simp only [hget] at h
    split_ifs at h with hthere
    obtain ⟨renamed, hput, hremove⟩ := Result.bind_eq_ok.mp h
    exact .inr ⟨value, renamed, rfl, by simpa using hthere, hput, hremove⟩

/-- What a successful wrap found and did. -/
theorem wrap_cases {resolved : ResolvedMigration} {document applied : StateDocument} (hkind : resolved.kind = .wrapValue)
    (h : applyForward resolved document = .ok applied) : ∃ key front back, resolved.requireArg "key" = .ok key ∧
      resolved.requireArg "prefix" = .ok front ∧ resolved.requireArg "suffix" = .ok back ∧
      (document.contains key = false ∧ applied = document ∨
        ∃ value, document.get key = some value ∧ document.put key (front ++ value ++ back) = .ok applied) := by
  simp only [applyForward, hkind] at h
  obtain ⟨key, hkey, h⟩ := Result.bind_eq_ok.mp h
  obtain ⟨front, hfront, h⟩ := Result.bind_eq_ok.mp h
  obtain ⟨back, hback, h⟩ := Result.bind_eq_ok.mp h
  refine ⟨key, front, back, hkey, hfront, hback, ?_⟩
  cases hget : document.get key with
  | none =>
    simp only [hget] at h
    split_ifs at h
    cases h
    exact .inl ⟨StateDocument.contains_eq_false.mpr hget, rfl⟩
  | some value =>
    simp only [hget] at h
    exact .inr ⟨value, rfl, h⟩

/-- What a successful unwrap found and did. -/
theorem unwrap_cases {resolved : ResolvedMigration} {document applied : StateDocument} (hkind : resolved.kind = .unwrapValue)
    (h : applyForward resolved document = .ok applied) : ∃ key value, resolved.requireArg "key" = .ok key ∧
      document.contains key = true ∧ document.put key value = .ok applied := by
  simp only [applyForward, hkind] at h
  obtain ⟨key, hkey, h⟩ := Result.bind_eq_ok.mp h
  obtain ⟨front, hfront, h⟩ := Result.bind_eq_ok.mp h
  obtain ⟨back, hback, h⟩ := Result.bind_eq_ok.mp h
  cases hget : document.get key with
  | none => simp [hget] at h
  | some text =>
    simp only [hget] at h
    cases hstrip : stripFraming front back text with
    | none => simp [hstrip] at h
    | some value =>
      simp only [hstrip] at h
      exact ⟨key, value, hkey, StateDocument.contains_iff.mpr ⟨text, hget⟩, h⟩

/-- A removal without further arguments finds its field. -/
theorem remove_cases {spec : MigrationStepSpec} {key : String} {document applied : StateDocument}
    (h : applyForward ⟨spec, .removeField, [("key", key)]⟩ document = .ok applied) : document.remove key = .ok applied := by
  simp only [applyForward] at h
  obtain ⟨key', hkey, h⟩ := Result.bind_eq_ok.mp h
  obtain ⟨hkey, -⟩ := ResolvedMigration.requireArg_eq_ok.mp hkey
  obtain rfl : key = key' := by simpa [assocFind_cons] using hkey
  split_ifs at h with hthere hoptional
  · exact h
  · simp [ResolvedMigration.fieldIsOptional, ResolvedMigration.argumentIsTrue, assocFind_cons] at hoptional

/-- A rename the other way: there is no optional field here. -/
theorem rename_back_cases {spec : MigrationStepSpec} {source target : String} {document applied : StateDocument}
    (h : applyForward ⟨spec, .renameField, [("from", target), ("to", source)]⟩ document = .ok applied) :
    ∃ value renamed, document.get target = some value ∧ document.contains source = false ∧
      document.put source value = .ok renamed ∧ renamed.remove target = .ok applied := by
  obtain ⟨target', source', htarget, hsource, -, -, ⟨-, hoptional, -⟩ | hmoved⟩ := rename_cases rfl h
  · simp [ResolvedMigration.fieldIsOptional, ResolvedMigration.argumentIsTrue, assocFind_cons] at hoptional
  · obtain rfl : target = target' := by simpa [assocFind_cons] using htarget
    obtain rfl : source = source' := by simpa [assocFind_cons] using hsource
    exact hmoved

section Undo
variable {resolved reverse : ResolvedMigration} {document applied working undone : StateDocument}

/-- A field that the reversals so far have lost stays lost. -/
theorem Lost.undo (hlost : Lost applied working) (happly : applyForward resolved document = .ok applied)
    (hreverse : reverseMigration resolved = .ok reverse) (hundo : applyForward reverse working = .ok undone) :
    Lost document undone := by
  obtain ⟨key, hthere, hgone⟩ := hlost
  cases hkind : resolved.kind with
  | identity =>
    simp only [reverseMigration, hkind] at hreverse
    cases hreverse
    simp only [applyForward, hkind] at happly hundo
    cases happly
    cases hundo
    exact ⟨key, hthere, hgone⟩
  | addField =>
    simp only [reverseMigration, hkind, Result.bind_eq_ok] at hreverse
    obtain ⟨added, hadded, hreverse⟩ := hreverse
    cases hreverse
    simp only [applyForward, hkind, Result.bind_eq_ok] at happly
    obtain ⟨added', hadded', value, -, hput⟩ := happly
    simp only [ResolvedMigration.argAt, orRefuse_eq_ok] at hadded
    rw [ResolvedMigration.requireArg_eq_ok, hadded] at hadded'
    obtain rfl := Option.some.inj hadded'.1
    have hremove := remove_cases hundo
    have hne : added ≠ key := by
      rintro rfl
      rw [(StateDocument.remove_eq_ok.mp hremove).1] at hgone
      cases hgone
    refine ⟨key, ?_, ?_⟩
    · simpa [StateDocument.contains_put hput, hne] using hthere
    · simp [StateDocument.contains_remove hremove, hgone]
  | renameField =>
    simp only [reverseMigration, hkind, Result.bind_eq_ok, ResolvedMigration.argAt, orRefuse_eq_ok] at hreverse
    obtain ⟨target, htarget, source, hsource, hreverse⟩ := hreverse
    cases hreverse
    obtain ⟨value, renamed, hget, -, hput, hremove⟩ := rename_back_cases hundo
    obtain ⟨source', target', hsource', htarget', -, -, hforward⟩ := rename_cases hkind happly
    obtain rfl : source = source' := Option.some.inj (hsource.symm.trans hsource')
    obtain rfl : target = target' := Option.some.inj (htarget.symm.trans htarget')
    -- The field moved back is none that was lost, and it is moved to where the original had none of the lost.
    have hkept : source ≠ key ∧ document.contains key = true := by
      rcases hforward with ⟨habsent, -, rfl⟩ | ⟨value', renamed', -, -, hput', hremove'⟩
      · refine ⟨?_, hthere⟩
        rintro rfl
        rw [habsent] at hthere
        cases hthere
      · simp only [StateDocument.contains_remove hremove', StateDocument.contains_put hput', Bool.and_eq_true,
          Bool.or_eq_true, decide_eq_true_eq] at hthere
        refine ⟨hthere.1, hthere.2.resolve_left ?_⟩
        rintro rfl
        rw [StateDocument.contains_iff.mpr ⟨value, hget⟩] at hgone
        cases hgone
    refine ⟨key, hkept.2, ?_⟩
    simp [StateDocument.contains_remove hremove, StateDocument.contains_put hput, hkept.1, hgone]
  | wrapValue =>
    simp only [reverseMigration, hkind] at hreverse
    cases hreverse
    obtain ⟨wrapped, front, back, hwrapped, -, -, hforward⟩ := wrap_cases hkind happly
    obtain ⟨unwrapped, value, hunwrapped, hheld, hput⟩ := unwrap_cases rfl hundo
    have hne : unwrapped ≠ key := by
      rintro rfl
      rw [hheld] at hgone
      cases hgone
    obtain rfl : wrapped = unwrapped := Except.ok.inj (hwrapped.symm.trans hunwrapped)
    refine ⟨key, ?_, ?_⟩
    · rcases hforward with ⟨-, rfl⟩ | ⟨value', -, hput'⟩
      · exact hthere
      · simpa [StateDocument.contains_put hput', hne] using hthere
    · simp [StateDocument.contains_put hput, hne, hgone]
  | removeField => simp [reverseMigration, hkind] at hreverse
  | unwrapValue => simp [reverseMigration, hkind] at hreverse
  | lowercaseField => simp [reverseMigration, hkind] at hreverse

/-- A step that cannot be taken back loses a field, if it is taken back at all. -/
theorem lost_of_not_recoverable (hno : ¬ resolved.Recoverable document) (happly : applyForward resolved document = .ok applied)
    (hreverse : reverseMigration resolved = .ok reverse) (hundo : applyForward reverse applied = .ok undone) :
    Lost document undone := by
  unfold ResolvedMigration.Recoverable at hno
  cases hkind : resolved.kind with
  | identity => simp [hkind] at hno
  | addField =>
    simp only [hkind, Bool.not_eq_false] at hno
    simp only [reverseMigration, hkind, Result.bind_eq_ok, ResolvedMigration.argAt, orRefuse_eq_ok] at hreverse
    obtain ⟨added, hadded, hreverse⟩ := hreverse
    cases hreverse
    rw [ResolvedMigration.arg_of_find hadded] at hno
    refine ⟨added, hno, ?_⟩
    simp [StateDocument.contains_remove (remove_cases hundo)]
  | renameField =>
    simp only [hkind, Bool.not_eq_true] at hno
    simp only [reverseMigration, hkind, Result.bind_eq_ok, ResolvedMigration.argAt, orRefuse_eq_ok] at hreverse
    obtain ⟨target, htarget, source, hsource, hreverse⟩ := hreverse
    cases hreverse
    rw [ResolvedMigration.arg_of_find hsource] at hno
    obtain ⟨source', target', hsource', -, -, -, ⟨-, -, rfl⟩ | ⟨value', -, hheld, -⟩⟩ := rename_cases hkind happly
    · obtain ⟨value, renamed, hget, -, -, hremove⟩ := rename_back_cases hundo
      refine ⟨target, StateDocument.contains_iff.mpr ⟨value, hget⟩, ?_⟩
      simp [StateDocument.contains_remove hremove]
    · obtain rfl : source = source' := Option.some.inj (hsource.symm.trans hsource')
      rw [StateDocument.contains_iff.mpr ⟨value', hheld⟩] at hno
      cases hno
  | wrapValue =>
    simp only [hkind, Bool.not_eq_true] at hno
    simp only [reverseMigration, hkind] at hreverse
    cases hreverse
    obtain ⟨wrapped, front, back, hwrapped, -, -, hforward⟩ := wrap_cases hkind happly
    obtain ⟨unwrapped, value, hunwrapped, hheld, -⟩ := unwrap_cases rfl hundo
    obtain rfl : wrapped = unwrapped := Except.ok.inj (hwrapped.symm.trans hunwrapped)
    rw [ResolvedMigration.arg_of_find (ResolvedMigration.requireArg_eq_ok.mp hwrapped).1] at hno
    rcases hforward with ⟨-, rfl⟩ | ⟨value', hget, -⟩
    · rw [hno] at hheld
      cases hheld
    · rw [StateDocument.contains_iff.mpr ⟨value', hget⟩] at hno
      cases hno
  | removeField => simp [reverseMigration, hkind] at hreverse
  | unwrapValue => simp [reverseMigration, hkind] at hreverse
  | lowercaseField => simp [reverseMigration, hkind] at hreverse

/-- A recoverable step is taken back. -/
theorem undo_of_recoverable (hfields : document.FieldsBounded) (hrecoverable : resolved.Recoverable document)
    (happly : applyForward resolved document = .ok applied) :
    ∃ reverse, reverseMigration resolved = .ok reverse ∧ applyForward reverse applied = .ok document := by
  have hschema := StateDocument.schema_applyForward happly
  unfold ResolvedMigration.Recoverable at hrecoverable
  cases hkind : resolved.kind with
  | identity =>
    simp only [applyForward, hkind] at happly
    cases happly
    refine ⟨⟨resolved.spec, .identity, resolved.args⟩, ?_, rfl⟩
    simp [reverseMigration, hkind]
    rfl
  | addField =>
    simp only [hkind] at hrecoverable
    simp only [applyForward, hkind, Result.bind_eq_ok] at happly
    obtain ⟨key, hkey, value, -, hput⟩ := happly
    obtain ⟨hkey, hne⟩ := ResolvedMigration.requireArg_eq_ok.mp hkey
    rw [ResolvedMigration.arg_of_find hkey] at hrecoverable
    have hthere : applied.contains key = true := by simp [StateDocument.contains_put hput]
    obtain ⟨undone, hremove⟩ : ∃ undone, applied.remove key = .ok undone :=
      ⟨_, StateDocument.remove_eq_ok.mpr ⟨hthere, rfl⟩⟩
    have hundone : undone = document := by
      refine StateDocument.ext_get ((StateDocument.schema_remove hremove).trans hschema) fun key' => ?_
      rw [StateDocument.get_remove hremove, StateDocument.get_put hput]
      by_cases hk : key = key'
      · rw [if_pos hk, ← hk, StateDocument.contains_eq_false.mp hrecoverable]
      · rw [if_neg hk, if_neg hk]
    refine ⟨⟨resolved.spec, .removeField, [("key", key)]⟩, ?_, ?_⟩
    · simp [reverseMigration, hkind, ResolvedMigration.argAt, hkey, orRefuse, bind, Except.bind]
      rfl
    · have harg : ResolvedMigration.requireArg ⟨resolved.spec, .removeField, [("key", key)]⟩ "key" = .ok key :=
        ResolvedMigration.requireArg_eq_ok.mpr ⟨by simp [assocFind_cons], hne⟩
      simp only [applyForward, harg]
      rw [← hundone, ← hremove]
      simp [bind, Except.bind, hthere]
  | renameField =>
    simp only [hkind] at hrecoverable
    obtain ⟨source, target, hsource, htarget, hsne, htne, ⟨habsent, -⟩ | ⟨value, renamed, hget, habsent, hput, hremove⟩⟩ :=
      rename_cases hkind happly
    · rw [ResolvedMigration.arg_of_find hsource, habsent] at hrecoverable
      cases hrecoverable
    have hne : source ≠ target := by
      rintro rfl
      rw [StateDocument.contains_iff.mpr ⟨value, hget⟩] at habsent
      cases habsent
    obtain ⟨-, hlength, hvalue⟩ := hfields.get hget
    -- The source was there and the target not, so the source fits in the place the target took.
    have hroom : ¬ applied.fields.entries.length ≥ maxStateFields :=
      Nat.not_le.mpr (StateDocument.length_of_move hput habsent hremove)
    obtain ⟨back, hback⟩ : ∃ back, applied.put source value = .ok back := by
      unfold StateDocument.put
      rw [if_neg (not_or.2 ⟨hsne, Nat.not_lt.2 hlength⟩), if_neg (Nat.not_lt.2 hvalue), if_neg fun hfull => hroom hfull.2]
      exact ⟨_, rfl⟩
    have hheld : applied.get target = some value := by
      rw [StateDocument.get_remove hremove, if_neg hne, StateDocument.get_put hput, if_pos rfl]
    have hfree : applied.contains source = false := by simp [StateDocument.contains_remove hremove]
    have hthere : back.contains target = true := by
      rw [StateDocument.contains_put hback, StateDocument.contains_iff.mpr ⟨value, hheld⟩, Bool.or_true]
    obtain ⟨undone, hundo⟩ : ∃ undone, back.remove target = .ok undone :=
      ⟨_, StateDocument.remove_eq_ok.mpr ⟨hthere, rfl⟩⟩
    have hundone : undone = document := by
      refine StateDocument.ext_get
        ((StateDocument.schema_remove hundo).trans ((StateDocument.schema_put hback).trans hschema)) fun key => ?_
      rw [StateDocument.get_remove hundo, StateDocument.get_put hback, StateDocument.get_remove hremove,
        StateDocument.get_put hput]
      by_cases ht : target = key
      · rw [if_pos ht, ← ht, StateDocument.contains_eq_false.mp habsent]
      · by_cases hs : source = key
        · rw [if_neg ht, if_pos hs, ← hs, hget]
        · rw [if_neg ht, if_neg hs, if_neg hs, if_neg ht]
    refine ⟨⟨resolved.spec, .renameField, [("from", target), ("to", source)]⟩, ?_, ?_⟩
    · simp [reverseMigration, hkind, ResolvedMigration.argAt, hsource, htarget, orRefuse, bind, Except.bind]
      rfl
    · have hfrom : ResolvedMigration.requireArg ⟨resolved.spec, .renameField, [("from", target), ("to", source)]⟩ "from" =
          .ok target := ResolvedMigration.requireArg_eq_ok.mpr ⟨by simp [assocFind_cons], htne⟩
      have hto : ResolvedMigration.requireArg ⟨resolved.spec, .renameField, [("from", target), ("to", source)]⟩ "to" =
          .ok source := ResolvedMigration.requireArg_eq_ok.mpr ⟨by simp [assocFind_cons], hsne⟩
      simp only [applyForward, hfrom, hto]
      rw [← hundone, ← hundo]
      simp [bind, Except.bind, hheld, hfree, hback]
  | wrapValue =>
    simp only [hkind] at hrecoverable
    obtain ⟨key, front, back, hkey, hfront, hback, hforward⟩ := wrap_cases hkind happly
    rw [ResolvedMigration.arg_of_find (ResolvedMigration.requireArg_eq_ok.mp hkey).1] at hrecoverable
    rcases hforward with ⟨habsent, -⟩ | ⟨value, hget, hput⟩
    · rw [habsent] at hrecoverable
      cases hrecoverable
    have hheld : applied.get key = some (front ++ value ++ back) := by rw [StateDocument.get_put hput, if_pos rfl]
    obtain ⟨undone, hundo⟩ := StateDocument.put_of_contains (hfields.put hput) (StateDocument.contains_iff.mpr ⟨_, hheld⟩)
      (hfields.get hget).2.2
    have hundone : undone = document := by
      refine StateDocument.ext_get ((StateDocument.schema_put hundo).trans hschema) fun key' => ?_
      rw [StateDocument.get_put hundo, StateDocument.get_put hput]
      by_cases hk : key = key'
      · rw [if_pos hk, ← hk, hget]
      · rw [if_neg hk, if_neg hk]
    refine ⟨⟨resolved.spec, .unwrapValue, resolved.args⟩, by simp [reverseMigration, hkind]; rfl, ?_⟩
    have harg : ∀ name, ResolvedMigration.requireArg ⟨resolved.spec, .unwrapValue, resolved.args⟩ name = resolved.requireArg name :=
      fun _ => rfl
    simp only [applyForward, harg, hkey, hfront, hback]
    rw [← hundone, ← hundo]
    simp [bind, Except.bind, hheld, stripFraming_frame]
  | removeField => simp [hkind] at hrecoverable
  | unwrapValue => simp [hkind] at hrecoverable
  | lowercaseField => simp [hkind] at hrecoverable

end Undo

/-! ## The schema of a document and its fields -/

namespace StateDocument

/-- The fields under another schema. -/
def withSchema (schema : Nat) (document : StateDocument) : StateDocument := { document with schema := schema }

variable {document document' : StateDocument} {key value : String} {schema : Nat}

theorem put_withSchema : (document.withSchema schema).put key value = (document.put key value).map (withSchema schema) := by
  unfold put withSchema
  dsimp only
  split_ifs <;> rfl

theorem remove_withSchema : (document.withSchema schema).remove key = (document.remove key).map (withSchema schema) := by
  unfold remove
  rw [show (document.withSchema schema).get key = document.get key from rfl]
  cases document.get key <;> rfl

theorem setSchema_eq_ok : document.setSchema schema = .ok document' ↔ schema ≠ 0 ∧ document' = document.withSchema schema := by
  unfold setSchema withSchema
  split_ifs with hzero <;> simp [hzero, eq_comm]

end StateDocument

/-- A transformation depends on the schema in no way. -/
theorem applyForward_withSchema (resolved : ResolvedMigration) (document : StateDocument) (schema : Nat) :
    applyForward resolved (document.withSchema schema) = (applyForward resolved document).map (StateDocument.withSchema schema) := by
  have hget : ∀ key, (document.withSchema schema).get key = document.get key := fun _ => rfl
  have hcontains : ∀ key, (document.withSchema schema).contains key = document.contains key := fun _ => rfl
  unfold applyForward
  split
  · rfl
  · cases resolved.requireArg "key" with
    | error refusal => rfl
    | ok key =>
      cases resolved.requireArg "value" with
      | error refusal => rfl
      | ok value => exact StateDocument.put_withSchema
  · cases resolved.requireArg "from" with
    | error refusal => rfl
    | ok source =>
      cases resolved.requireArg "to" with
      | error refusal => rfl
      | ok target =>
        simp only [bind, Except.bind, hget, hcontains]
        cases document.get source with
        | none => split_ifs <;> rfl
        | some value =>
          dsimp only
          split_ifs
          · rfl
          · rw [StateDocument.put_withSchema]
            cases document.put target value with
            | error refusal => rfl
            | ok renamed => exact StateDocument.remove_withSchema
  · cases resolved.requireArg "key" with
    | error refusal => rfl
    | ok key =>
      simp only [bind, Except.bind, hcontains]
      split_ifs
      · exact StateDocument.remove_withSchema
      · rfl
      · rfl
  · cases resolved.requireArg "key" with
    | error refusal => rfl
    | ok key =>
      cases resolved.requireArg "prefix" with
      | error refusal => rfl
      | ok front =>
        cases resolved.requireArg "suffix" with
        | error refusal => rfl
        | ok back =>
          simp only [bind, Except.bind, hget]
          cases document.get key with
          | none => split_ifs <;> rfl
          | some value => exact StateDocument.put_withSchema
  · cases resolved.requireArg "key" with
    | error refusal => rfl
    | ok key =>
      cases resolved.requireArg "prefix" with
      | error refusal => rfl
      | ok front =>
        cases resolved.requireArg "suffix" with
        | error refusal => rfl
        | ok back =>
          simp only [bind, Except.bind, hget]
          cases document.get key with
          | none => rfl
          | some text =>
            dsimp only
            cases stripFraming front back text with
            | none => rfl
            | some value => exact StateDocument.put_withSchema
  · cases resolved.requireArg "key" with
    | error refusal => rfl
    | ok key =>
      simp only [bind, Except.bind, hget]
      cases document.get key with
      | none => rfl
      | some value => exact StateDocument.put_withSchema

/-! ## A path and its reversal -/

section Path
variable (digestOf : Json → Digest)

/-- Every step starts at a positive schema and can be taken back from the document it is applied to. -/
def Invertible : StateDocument → List MigrationStepSpec → Prop
  | _, [] => True
  | document, spec :: path =>
    (spec.source ≠ 0 ∧ ∀ resolved, resolveMigrationStep spec = .ok resolved → resolved.Recoverable document) ∧
      ∀ migrated record, migrateStep digestOf document spec = .ok (migrated, record) → Invertible migrated path

variable {digestOf} {document migrated working : StateDocument} {spec : MigrationStepSpec} {record : MigrationStepRecord}

/-- What a step that went through has checked and done. -/
theorem migrateStep_cases (h : migrateStep digestOf document spec = .ok (migrated, record)) :
    spec.source = document.schema ∧ ∃ resolved applied, resolveMigrationStep spec = .ok resolved ∧
      applyForward resolved document = .ok applied ∧ applied.setSchema spec.target = .ok migrated := by
  unfold migrateStep at h
  obtain ⟨_, hsource, h⟩ := Result.bind_eq_ok.mp h
  obtain ⟨resolved, hresolved, h⟩ := Result.bind_eq_ok.mp h
  obtain ⟨_, _, h⟩ := Result.bind_eq_ok.mp h
  obtain ⟨applied, happlied, h⟩ := Result.bind_eq_ok.mp h
  obtain ⟨migrated', hset, h⟩ := Result.bind_eq_ok.mp h
  cases h
  exact ⟨of_decide_eq_true (refuseUnless_eq_ok.mp hsource), resolved, applied, hresolved, happlied, hset⟩

/-- What a step that was taken back has checked and done. -/
theorem migrateBackStep_cases (h : migrateBackStep digestOf document spec = .ok (migrated, record)) :
    ∃ resolved reverse applied, resolveMigrationStep spec = .ok resolved ∧ reverseMigration resolved = .ok reverse ∧
      applyForward reverse document = .ok applied ∧ applied.setSchema spec.source = .ok migrated := by
  unfold migrateBackStep at h
  obtain ⟨_, _, h⟩ := Result.bind_eq_ok.mp h
  obtain ⟨resolved, hresolved, h⟩ := Result.bind_eq_ok.mp h
  obtain ⟨_, _, h⟩ := Result.bind_eq_ok.mp h
  obtain ⟨reverse, hreverse, h⟩ := Result.bind_eq_ok.mp h
  obtain ⟨applied, happlied, h⟩ := Result.bind_eq_ok.mp h
  obtain ⟨migrated', hset, h⟩ := Result.bind_eq_ok.mp h
  cases h
  exact ⟨resolved, reverse, applied, hresolved, hreverse, happlied, hset⟩

/-- A step taken back from what it made of `document`. -/
theorem back_of_recoverable (hfields : document.FieldsBounded)
    (hspec : spec.reversible = true ∧ spec.irreversibleBoundary = false)
    (hstep : migrateStep digestOf document spec = .ok (migrated, record)) (hsource : spec.source ≠ 0)
    (hrecoverable : ∀ resolved, resolveMigrationStep spec = .ok resolved → resolved.Recoverable document) :
    ∃ record, migrateBackStep digestOf migrated spec = .ok (document, record) := by
  obtain ⟨hat, resolved, applied, hresolved, happlied, hset⟩ := migrateStep_cases hstep
  obtain ⟨reverse, hreverse, hundo⟩ := undo_of_recoverable hfields (hrecoverable resolved hresolved) happlied
  obtain ⟨-, rfl⟩ := StateDocument.setSchema_eq_ok.mp hset
  have hback : applyForward reverse (applied.withSchema spec.target) = .ok (document.withSchema spec.target) := by
    rw [applyForward_withSchema, hundo]
    rfl
  have hschema : (document.withSchema spec.target).setSchema spec.source = .ok document := by
    refine StateDocument.setSchema_eq_ok.mpr ⟨hsource, ?_⟩
    rw [hat]
    rfl
  have hat' : spec.target = (applied.withSchema spec.target).schema := rfl
  unfold migrateBackStep
  simp only [bind, Except.bind, refuseUnless, ← hat', decide_true, if_true, hresolved, hspec.1, hspec.2, Bool.not_true,
    Bool.or_self, Bool.not_false, hreverse, hback, hschema]
  exact ⟨_, rfl⟩

/-- A step taken back from a document that has lost a field, or from which it cannot be taken back. -/
theorem lost_of_back {record' : MigrationStepRecord} {undone : StateDocument}
    (hstep : migrateStep digestOf document spec = .ok (migrated, record))
    (hback : migrateBackStep digestOf working spec = .ok (undone, record'))
    (hbad : Lost migrated working ∨
      working = migrated ∧ ∃ resolved, resolveMigrationStep spec = .ok resolved ∧ ¬ resolved.Recoverable document) :
    Lost document undone := by
  obtain ⟨-, resolved, applied, hresolved, happlied, hset⟩ := migrateStep_cases hstep
  obtain ⟨resolved', reverse, restored, hresolved', hreverse, hrestored, hset'⟩ := migrateBackStep_cases hback
  obtain rfl : resolved = resolved' := Except.ok.inj (hresolved.symm.trans hresolved')
  obtain ⟨-, rfl⟩ := StateDocument.setSchema_eq_ok.mp hset
  obtain ⟨-, rfl⟩ := StateDocument.setSchema_eq_ok.mp hset'
  have hlost : Lost document restored := by
    rcases hbad with hlost | ⟨rfl, resolved', hresolved', hno⟩
    · have hlost : Lost applied working := hlost
      exact hlost.undo happlied hreverse hrestored
    · obtain rfl : resolved = resolved' := Except.ok.inj (hresolved.symm.trans hresolved')
      rw [applyForward_withSchema] at hrestored
      cases hundo : applyForward reverse applied with
      | error refusal =>
        rw [hundo] at hrestored
        cases hrestored
      | ok undone =>
        rw [hundo] at hrestored
        cases hrestored
        have hlost : Lost document undone := lost_of_not_recoverable hno happlied hreverse hundo
        exact hlost
  exact hlost

theorem fieldsBounded_migrateStep (hfields : document.FieldsBounded)
    (hstep : migrateStep digestOf document spec = .ok (migrated, record)) : migrated.FieldsBounded := by
  obtain ⟨-, resolved, applied, -, happlied, hset⟩ := migrateStep_cases hstep
  obtain ⟨-, rfl⟩ := StateDocument.setSchema_eq_ok.mp hset
  have happlied := hfields.applyForward happlied
  exact ⟨happlied.count, happlied.key, happlied.value⟩

/-- A path is taken back step by step while its steps can be; where one cannot, a field is lost for good. -/
theorem migrateBackSteps_reverse {path : List MigrationStepSpec} {final : StateDocument} {records : List MigrationStepRecord}
    (hfields : document.FieldsBounded)
    (hpath : ∀ spec ∈ path, spec.reversible = true ∧ spec.irreversibleBoundary = false)
    (h : migrateSteps digestOf document path = .ok (final, records)) :
    (Invertible digestOf document path → ∃ back, migrateBackSteps digestOf final path.reverse = .ok (document, back)) ∧
      (¬ Invertible digestOf document path →
        ∀ undone back, migrateBackSteps digestOf final path.reverse = .ok (undone, back) → Lost document undone) := by
  induction path generalizing document records with
  | nil =>
    cases h
    exact ⟨fun _ => ⟨[], rfl⟩, fun hno => absurd trivial hno⟩
  | cons spec path ih =>
    obtain ⟨⟨migrated, record⟩, hstep, h⟩ := Result.bind_eq_ok.mp h
    obtain ⟨⟨final', records'⟩, hrest, h⟩ := Result.bind_eq_ok.mp h
    cases h
    have ih := ih (fieldsBounded_migrateStep hfields hstep) (fun s hs => hpath s (List.mem_cons_of_mem _ hs)) hrest
    have hspec := hpath spec List.mem_cons_self
    constructor
    · rintro ⟨⟨hsource, hrecoverable⟩, hinvertible⟩
      have hmiddle := ih.1 (hinvertible migrated record hstep)
      rw [List.reverse_cons]
      exact migrateBackSteps_snoc digestOf |>.mpr
        ⟨migrated, hmiddle, back_of_recoverable hfields hspec hstep hsource hrecoverable⟩
    · intro hno undone back hback
      rw [List.reverse_cons] at hback
      obtain ⟨working, ⟨middle, hmiddle⟩, record', hlast⟩ := (migrateBackSteps_snoc digestOf).mp ⟨back, hback⟩
      by_cases hinvertible : Invertible digestOf migrated path
      · -- The rest of the path is taken back to `migrated`, and the step is the one that cannot be.
        obtain ⟨exact', hexact⟩ := ih.1 hinvertible
        obtain rfl : working = migrated := congrArg Prod.fst (Except.ok.inj (hmiddle.symm.trans hexact))
        have hsource : spec.source ≠ 0 := by
          obtain ⟨_, _, _, -, -, -, hset⟩ := migrateBackStep_cases hlast
          exact (StateDocument.setSchema_eq_ok.mp hset).1
        refine lost_of_back hstep hlast (.inr ⟨rfl, ?_⟩)
        by_contra hall
        push Not at hall
        refine hno ⟨⟨hsource, hall⟩, ?_⟩
        intro migrated' record'' hstep'
        rw [hstep] at hstep'
        cases hstep'
        exact hinvertible
      · exact lost_of_back hstep hlast (.inl (ih.2 hinvertible working middle hmiddle))

/-- A migration over reversible steps is taken back to the document it began with exactly when the path is invertible
there. -/
theorem migrateBackward_restores_iff {path : List MigrationStepSpec} {final : StateDocument} {outcome : MigrationOutcome}
    (hfields : document.FieldsBounded)
    (hpath : ∀ spec ∈ path, spec.reversible = true ∧ spec.irreversibleBoundary = false)
    (h : migrateForward digestOf document path = .ok (final, outcome)) :
    (∃ back, migrateBackward digestOf final path = .ok (document, back)) ↔ Invertible digestOf document path := by
  obtain ⟨⟨final', records⟩, hsteps, h⟩ := Result.bind_eq_ok.mp h
  cases h
  obtain ⟨hrestores, hloses⟩ := migrateBackSteps_reverse hfields hpath hsteps
  constructor
  · rintro ⟨back, hback⟩
    obtain ⟨⟨undone, backRecords⟩, hbacks, hback⟩ := Result.bind_eq_ok.mp hback
    cases hback
    by_contra hno
    exact (hloses hno _ _ hbacks).ne rfl
  · intro hinvertible
    obtain ⟨backRecords, hbacks⟩ := hrestores hinvertible
    exact ⟨_, Result.bind_eq_ok.mpr ⟨(document, backRecords), hbacks, rfl⟩⟩

end Path

namespace Sample

/-- A document at schema 1 with one field. -/
def regionDocument : StateDocument := { schema := 1, fields := SortedMap.empty.insert "region" "eu-west" }

def stepOf (function : String) (args : List (String × Json)) : MigrationStepSpec :=
  { id := ⟨"step", .inr (by decide)⟩, source := 1, target := 2, function := function, parameters := .object args }

def renameRegion : MigrationStepSpec := stepOf "rename_field" [("from", .string "region"), ("to", .string "zone")]

/-- The field is there already. -/
def addRegion : MigrationStepSpec := stepOf "add_field" [("key", .string "region"), ("value", .string "us-east")]

theorem regionDocument_bounded : regionDocument.FieldsBounded := by
  have hentry : ∀ entry ∈ regionDocument.fields.entries, entry = ("region", "eu-west") := fun _ he => List.mem_singleton.mp he
  refine ⟨by decide, ?_, ?_⟩
  · intro entry he
    rw [hentry entry he]
    decide
  · intro entry he
    rw [hentry entry he]
    decide

/-- The document a migration leaves, if it succeeds. -/
def migratedTo (result : Result (StateDocument × MigrationOutcome)) : Option StateDocument := result.toOption.map Prod.fst

theorem eq_ok_of_migratedTo {result : Result (StateDocument × MigrationOutcome)} {document : StateDocument}
    (h : migratedTo result = some document) : ∃ outcome, result = .ok (document, outcome) := by
  cases result with
  | error refusal => cases h
  | ok r =>
    obtain ⟨d, outcome⟩ := r
    cases h
    exact ⟨outcome, rfl⟩

theorem resolve_renameRegion : resolveMigrationStep renameRegion =
    .ok ⟨renameRegion, .renameField, [("from", "region"), ("to", "zone")]⟩ := by rfl

end Sample

open Sample in
/-- A renamed field is renamed back. -/
theorem migrateBackward_restores_sample : ∃ final outcome,
    migrateForward (fun _ => .zero) regionDocument [renameRegion] = .ok (final, outcome) ∧
      ∃ back, migrateBackward (fun _ => .zero) final [renameRegion] = .ok (regionDocument, back) := by
  have hsome : (migratedTo (migrateForward (fun _ => .zero) regionDocument [renameRegion])).isSome = true := by decide +kernel
  obtain ⟨final, hfinal⟩ := Option.isSome_iff_exists.mp hsome
  obtain ⟨outcome, houtcome⟩ := eq_ok_of_migratedTo hfinal
  have hinvertible : Invertible (fun _ => .zero) regionDocument [renameRegion] := by
    refine ⟨⟨by decide, ?_⟩, fun _ _ _ => trivial⟩
    intro resolved hresolved
    rw [resolve_renameRegion] at hresolved
    cases hresolved
    show regionDocument.contains "region" = true
    decide +kernel
  refine ⟨final, outcome, houtcome, (migrateBackward_restores_iff regionDocument_bounded ?_ houtcome).mpr hinvertible⟩
  intro spec hspec
  obtain rfl := List.mem_singleton.mp hspec
  exact ⟨rfl, rfl⟩

open Sample in
/-- A field that was there before it was added is gone when the step is taken back. -/
theorem migrateBackward_loses_field : ¬ ∀ (digestOf : Json → Digest) (document final : StateDocument)
    (path : List MigrationStepSpec) (outcome : MigrationOutcome), document.FieldsBounded →
      (∀ spec ∈ path, spec.reversible = true ∧ spec.irreversibleBoundary = false ∧
        spec.function ∈ ["identity", "add_field", "rename_field", "wrap_value", "unwrap_value"]) →
      migrateForward digestOf document path = .ok (final, outcome) →
      ∃ back, migrateBackward digestOf final path = .ok (document, back) := by
  intro hall
  have hsome : (migratedTo (migrateForward (fun _ => .zero) regionDocument [addRegion])).isSome = true := by decide +kernel
  obtain ⟨final, hfinal⟩ := Option.isSome_iff_exists.mp hsome
  obtain ⟨outcome, houtcome⟩ := eq_ok_of_migratedTo hfinal
  obtain ⟨back, hback⟩ := hall (fun _ => .zero) regionDocument final [addRegion] outcome regionDocument_bounded
    (fun spec hspec => by obtain rfl := List.mem_singleton.mp hspec; exact ⟨rfl, rfl, by decide⟩) houtcome
  have hlost : ((migratedTo (migrateForward (fun _ => .zero) regionDocument [addRegion])).bind fun final =>
      (migratedTo (migrateBackward (fun _ => .zero) final [addRegion])).map (·.contains "region")) = some false := by
    decide +kernel
  rw [hfinal, Option.bind_some, hback] at hlost
  have hheld : regionDocument.contains "region" = true := by decide +kernel
  have hlost : some (regionDocument.contains "region") = some false := hlost
  rw [hheld] at hlost
  cases hlost

end FabricEvolution

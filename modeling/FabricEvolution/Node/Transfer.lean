import FabricEvolution.Node.Bounds
import FabricEvolution.Wire.Sha256

/-!
# Snapshot transfer

* `SnapshotImage.toJson`, `SnapshotBody.fromJson` : the snapshot object as it is sent and as its installer reads it;
* `snapshotText` : the canonical text that a snapshot digest binds, `snapshotText_injective` : it binds schema, position and
  every field;
* `snapshot_transfer` : the unmodified object installs the source's image, any other with its digest is refused and changes
  nothing.
-/

namespace FabricEvolution
open Lib

/-- The digest of a value: the hash of its canonical text. -/
def jsonDigest (floats : FloatText) (value : Json) : Digest := sha256 (value.dump floats)

/-! ## The snapshot object -/

def SnapshotImage.toJson (image : SnapshotImage) : Json :=
  (Json.object []).set "id" (.uint image.id)
    |>.set "lsn" (.uint image.lsn)
    |>.set "schema" (.uint image.schema)
    |>.set "digest" (.string image.digest.toHex)
    |>.set "fields" (.object (image.fields.map fun field => (field.1, (field.2.map Json.string).getD .null)))

def SnapshotBody.fromJson (snapshot : Json) : Option SnapshotBody :=
  if snapshot.isObject then
    some
      { schema := jsonU64 snapshot "schema"
        lsn := jsonU64 snapshot "lsn"
        digest := (jsonString snapshot "digest").map Digest.fromHex
        fields := ((snapshot.find "fields").bind Json.tryObject).map fun members =>
          members.map fun member => (member.1, member.2.tryString) }
  else none

/-- Schema, position and fields of a snapshot object. -/
structure SnapshotContent where
  schema : Option Nat
  lsn : Option Nat
  fields : Option Json

def snapshotContent (snapshot : Json) : SnapshotContent :=
  ⟨jsonU64 snapshot "schema", jsonU64 snapshot "lsn", snapshot.find "fields"⟩

/-- The content of an unmodified image. -/
def contentOf (document : StateDocument) (lsn : Nat) : SnapshotContent :=
  ⟨some document.schema, some lsn, some document.fieldsToJson⟩

theorem members_toJson (document : StateDocument) :
    Json.object (document.members.map fun field => (field.1, (field.2.map Json.string).getD .null)) = document.fieldsToJson := by
  rw [StateDocument.fieldsToJson_eq, StateDocument.members, List.map_map]
  rfl

theorem contentOf_inj {document document' : StateDocument} {lsn lsn' : Nat} (h : contentOf document lsn = contentOf document' lsn') :
    document = document' ∧ lsn = lsn' := by
  obtain ⟨schema, ⟨entries, ascend⟩⟩ := document
  obtain ⟨schema', ⟨entries', ascend'⟩⟩ := document'
  simp only [contentOf, StateDocument.fieldsToJson_eq, SnapshotContent.mk.injEq, Option.some.injEq, Json.object.injEq] at h
  obtain ⟨rfl, rfl, hfields⟩ := h
  have hinjective : Function.Injective fun entry : String × String => (entry.1, Json.string entry.2) := by
    rintro ⟨key, value⟩ ⟨key', value'⟩ heq
    cases heq
    rfl
  obtain rfl := List.map_injective_iff.2 hinjective hfields
  exact ⟨rfl, rfl⟩

/-- A produced object says what its image holds. -/
theorem snapshotContent_toJson {image : SnapshotImage} {document : StateDocument} {lsn : Nat} (hlsn : image.lsn = lsn)
    (hschema : image.schema = document.schema) (hfields : image.fields = document.members) :
    snapshotContent image.toJson = contentOf document lsn := by
  simp [snapshotContent, SnapshotImage.toJson, contentOf, hlsn, hschema, hfields, members_toJson, Json.tryU64]

theorem wellFormed_toJson {image : SnapshotImage} (hid : image.id < 2 ^ 64) (hlsn : image.lsn < 2 ^ 64) (hschema : image.schema < 2 ^ 64)
    (hfields : KeysAscend image.fields) : image.toJson.WellFormed := by
  have hobject : (Json.object (image.fields.map fun field => (field.1, (field.2.map Json.string).getD .null))).WellFormed := by
    refine .object ?_ fun member hmember => ?_
    · rw [KeysAscend, List.pairwise_map]
      exact hfields
    · obtain ⟨⟨key, _ | value⟩, -, rfl⟩ := List.mem_map.1 hmember
      · exact .null
      · exact .string value
  have hempty : (Json.object []).WellFormed := .object List.Pairwise.nil fun _ h => absurd h List.not_mem_nil
  exact ((((hempty.set _ (.uint hid)).set _ (.uint hlsn)).set _ (.uint hschema)).set _ (.string _)).set _ hobject

theorem fromJson_toJson (image : SnapshotImage) :
    SnapshotBody.fromJson image.toJson =
      some ⟨some image.schema, some image.lsn, some (some image.digest), some image.fields⟩ := by
  have hobject : image.toJson.isObject = true := Json.isObject_set _ _ _
  have hfields : (image.fields.map fun field => (field.1, ((field.2.map Json.string).getD .null).tryString)) = image.fields := by
    have hone : ∀ field ∈ image.fields, (field.1, ((field.2.map Json.string).getD .null).tryString) = field := by
      rintro ⟨key, _ | value⟩ - <;> rfl
    rw [List.map_congr_left hone, List.map_id']
  rw [SnapshotBody.fromJson, if_pos hobject]
  simp [SnapshotImage.toJson, Json.tryU64, Json.tryString, Json.tryObject, Digest.fromHex_toHex, Function.comp_def]
  simpa [Json.tryString] using hfields

/-! ## The text under the digest -/

/-- The text whose hash is the digest of a document at a position. -/
def snapshotText (floats : FloatText) (document : StateDocument) (lsn : Nat) : Bytes :=
  ((Json.object []).set "schema" (.uint document.schema)
    |>.set "lsn" (.uint lsn)
    |>.set "fields" document.fieldsToJson).dump floats

theorem snapshotDigest_eq (floats : FloatText) (document : StateDocument) (lsn : Nat) :
    NodeState.snapshotDigest (jsonDigest floats) document lsn = sha256 (snapshotText floats document lsn) := rfl

/-- Limits that every bounded document is within. -/
def documentLimits : JsonParseLimits := { maxContainerEntries := maxStateFields }

theorem fits_fieldsToJson {document : StateDocument} {depth : Nat} (h : document.Bounded)
    (hdepth : depth + 1 ≤ documentLimits.maxDepth) : Json.Fits documentLimits depth document.fieldsToJson := by
  rw [StateDocument.fieldsToJson_eq]
  exact Json.fits_strings hdepth document.fields.ascend h.count fun field hfield =>
    ⟨(h.key field hfield).2.trans (by decide), (h.value field hfield).trans (by decide)⟩

theorem fits_snapshot {document : StateDocument} {lsn : Nat} (h : document.Bounded) (hlsn : lsn < 2 ^ 64) :
    Json.Fits documentLimits 0 ((Json.object []).set "schema" (.uint document.schema)
      |>.set "lsn" (.uint lsn)
      |>.set "fields" document.fieldsToJson) := by
  have hschema : document.schema < 2 ^ 64 := h.schema_le.trans_lt (by decide)
  have hshape : ((Json.object []).set "schema" (.uint document.schema) |>.set "lsn" (.uint lsn)
      |>.set "fields" document.fieldsToJson) =
      .object [("fields", document.fieldsToJson), ("lsn", .uint lsn), ("schema", .uint document.schema)] := rfl
  have hnil : KeysAscend ([] : List (String × Json)) := List.Pairwise.nil
  have hascend : KeysAscend [("fields", document.fieldsToJson), ("lsn", .uint lsn), ("schema", .uint document.schema)] :=
    ((hnil.insert "schema" (.uint document.schema)).insert "lsn" (.uint lsn)).insert "fields" document.fieldsToJson
  rw [hshape]
  refine .object (Nat.zero_le _) (by show 3 ≤ maxStateFields; decide) hascend ?_ ?_
  · rintro member hmember
    simp only [List.mem_cons, List.not_mem_nil, or_false] at hmember
    rcases hmember with rfl | rfl | rfl
    · exact show "fields".length ≤ documentLimits.maxStringBytes by decide
    · exact show "lsn".length ≤ documentLimits.maxStringBytes by decide
    · exact show "schema".length ≤ documentLimits.maxStringBytes by decide
  · rintro member hmember
    simp only [List.mem_cons, List.not_mem_nil, or_false] at hmember
    rcases hmember with rfl | rfl | rfl
    · exact fits_fieldsToJson h (by decide)
    · exact .uint (by decide) hlsn
    · exact .uint (by decide) hschema

/-- The text binds the schema, the position and every key and value. -/
theorem snapshotText_injective {floats : FloatText} {document document' : StateDocument} {lsn lsn' : Nat} (h : document.Bounded)
    (h' : document'.Bounded) (hlsn : lsn < 2 ^ 64) (hlsn' : lsn' < 2 ^ 64)
    (htext : snapshotText floats document lsn = snapshotText floats document' lsn') : contentOf document lsn = contentOf document' lsn' := by
  have hjson := dump_injective (fits_snapshot h hlsn) (fits_snapshot h' hlsn') htext
  have hschema := congrArg (jsonU64 · "schema") hjson
  have hposition := congrArg (jsonU64 · "lsn") hjson
  have hfields := congrArg (Json.find · "fields") hjson
  simp only [jsonU64_set, Json.find_set, Json.tryU64] at hschema hposition hfields
  simp only [contentOf]
  simpa using And.intro (by simpa using hschema) (And.intro (by simpa using hposition) (by simpa using hfields))

/-! ## Transfer -/

namespace NodeState
variable {floats : FloatText} {io io' : NodeIo} {source source' successor : NodeState} {handoff : Nat} {image : SnapshotImage}
  {expected : SourceBinding}

/-- What the snapshot handler answers with. -/
theorem snapshot_ok {digestOf : Json → Digest} {asked : Option Nat}
    (h : source.snapshot digestOf io asked = (source', .ok (.snapshot handoff image))) :
    asked = some handoff ∧ handoff ≠ 0 ∧ nextId source.lastSnapshotId = some image.id ∧ image.lsn = source.lsn ∧
      image.schema = source.document.schema ∧ image.digest = snapshotDigest digestOf source.document source.lsn ∧
      image.fields = if (source.takeFault "node.snapshot.corrupt").2.isNone then source.document.members
        else assocInsert "__corrupted__" (some "true") source.document.members := by
  unfold snapshot at h
  split at h
  · cases h
  · rename_i handoff' hparse
    obtain ⟨hasked, hpos⟩ := Option.filter_eq_some_iff.mp (orRefuse_eq_ok.mp hparse)
    split_ifs at h
    · cases h
    · cases h
    · obtain ⟨node, corrupted, htake⟩ : ∃ node corrupted, source.takeFault "node.snapshot.corrupt" = (node, corrupted) :=
        ⟨_, _, rfl⟩
      have hsame : node.document = source.document ∧ node.lsn = source.lsn ∧ node.lastSnapshotId = source.lastSnapshotId := by
        unfold takeFault at htake
        dsimp only at htake
        split at htake <;> cases htake <;> exact ⟨rfl, rfl, rfl⟩
      obtain ⟨hdocument, hlsn, hlast⟩ := hsame
      rw [htake] at h ⊢
      dsimp only at h
      split at h
      · cases h
      · rename_i id hnext
        obtain ⟨-, hanswer⟩ := Prod.mk.inj h
        unfold saveThen at h
        split at h
        · cases h
        · cases h
          dsimp only
          rw [hdocument, hlsn]
          exact ⟨hasked, by simpa using hpos, hlast ▸ hnext, rfl, rfl, rfl, rfl⟩

theorem jsonU64_lt {object : Json} {key : String} {value : Nat} (hobject : object.WellFormed)
    (h : jsonU64 object key = some value) : value < 2 ^ 64 := by
  obtain ⟨member, hfind, hvalue⟩ := Option.bind_eq_some_iff.mp h
  cases hobject.find hfind with
  | uint hmax =>
    cases hvalue
    exact hmax
  | int hmin hmax =>
    simp only [Json.tryU64, Option.ite_none_right_eq_some, Option.some.injEq] at hvalue
    omega
  | _ => cases hvalue

/-- What is read from an object with other content than the source's is not what the source's digest was made of. -/
theorem not_readSnapshot {document : StateDocument} {lsn lsn' : Nat} {object : Json} {body : SnapshotBody} {incoming : StateDocument}
    {digest : Digest} (h : document.Bounded) (hlsn : lsn < 2 ^ 64) (hobject : object.WellFormed)
    (hbody : SnapshotBody.fromJson object = some body)
    (hdigest : jsonString object "digest" = some (snapshotDigest (jsonDigest floats) document lsn).toHex)
    (hcontent : snapshotContent object ≠ contentOf document lsn)
    (hsha : ∀ document' lsn', snapshotContent object = contentOf document' lsn' →
      Separates sha256 (snapshotText floats document' lsn') (snapshotText floats document lsn)) :
    readSnapshot (jsonDigest floats) expected body ≠ .ok (incoming, lsn', digest) := by
  intro hread
  obtain ⟨fields, refuse, hschema, hpos, hle, hposition, hrecorded, hfields, hput, hcomputed, -⟩ := readSnapshot_ok hread
  unfold SnapshotBody.fromJson at hbody
  split_ifs at hbody
  cases hbody
  dsimp only at hschema hposition hrecorded hfields
  -- The fields the installer reads are the members of the object, every one a string.
  obtain ⟨members, hmembers, rfl⟩ := Option.map_eq_some_iff.mp hfields
  obtain ⟨fieldsJson, hfind, hobj⟩ := Option.bind_eq_some_iff.mp hmembers
  obtain rfl : fieldsJson = .object members := by
    cases fieldsJson <;> cases hobj
    rfl
  have hascend : KeysAscend members := by
    cases hobject.find hfind with
    | object hascend _ => exact hascend
  have hread : incoming.members = members.map fun member => (member.1, member.2.tryString) := by
    refine StateDocument.members_of_putAll ?_ hput
    rw [KeysAscend, List.pairwise_map]
    exact hascend
  have hall : incoming.fieldsToJson = .object members := by
    have hone : ∀ member ∈ members, (member.1, (member.2.tryString.map Json.string).getD .null) = member := by
      intro member hmember
      have hmem : (member.1, member.2.tryString) ∈ incoming.members := hread ▸ List.mem_map_of_mem hmember
      obtain ⟨entry, -, hentry⟩ := List.mem_map.1 hmem
      obtain ⟨key, value⟩ := member
      cases value with
      | string text => rfl
      | _ => cases (Prod.mk.inj hentry).2
    rw [← members_toJson, hread, List.map_map]
    exact congrArg Json.object ((List.map_congr_left hone).trans (List.map_id' _))
  have hsame : snapshotContent object = contentOf incoming lsn' := by
    rw [snapshotContent, contentOf, hschema, hposition, hfind, hall]
  -- The digests are equal, so the texts are, so the contents are.
  have hnumber : lsn' < 2 ^ 64 := jsonU64_lt hobject hposition
  rw [hdigest, Option.map_some, Digest.fromHex_toHex, Option.some_inj, Option.some_inj] at hrecorded
  have htext := hsha incoming lsn' hsame (by rw [← snapshotDigest_eq, ← snapshotDigest_eq, ← hcomputed, hrecorded])
  have hincoming : incoming.Bounded := (StateDocument.bounded_empty hpos hle).putAll hput
  exact hcontent (hsame.trans (snapshotText_injective hincoming h hnumber hlsn htext))

/-- The image of a bounded document is read as the document. -/
theorem readSnapshot_image {document : StateDocument} {lsn : Nat} (h : document.Bounded)
    (hschema : expected.schema = document.schema) :
    readSnapshot (jsonDigest floats) expected ⟨some document.schema, some lsn,
      some (some (snapshotDigest (jsonDigest floats) document lsn)), some document.members⟩ =
        .ok (document, lsn, snapshotDigest (jsonDigest floats) document lsn) := by
  have hput := h.putAll_members
  have hfilter : (some document.schema).filter (fun schema => schema ≠ 0 && schema ≤ maxU32) = some document.schema := by
    have := h.schema_pos
    simp [Option.filter, h.schema_le]
    omega
  unfold readSnapshot
  simp only [hfilter, orRefuse, hput, bind, Except.bind, pure, Except.pure, refuseUnless, hschema, decide_true, if_true]

end NodeState

/-- An unmodified snapshot object leaves a successor prepared for the handoff and the source schema with the source's schema,
fields and position; an object with other content under the same digest is refused, and the successor is as it was. -/
theorem snapshot_transfer {floats : FloatText} {io : NodeIo} {source source' successor : NodeState} {handoff : Nat}
    {image : SnapshotImage} {expected : SourceBinding} (hdocument : source.document.Bounded) (hlsn : source.lsn < 2 ^ 64)
    (hproduced : source.snapshot (jsonDigest floats) io (some handoff) = (source', .ok (.snapshot handoff image)))
    (hunmodified : image.fields = source.document.members)
    (hprepared : successor.expectedSource = some expected) (hhandoff : expected.handoff = handoff)
    (hschema : expected.schema = source.document.schema) (io' : NodeIo) :
    (∀ successor' answer, successor.installSnapshot (jsonDigest floats) io' (some handoff) (SnapshotBody.fromJson image.toJson) =
        (successor', answer) →
      successor'.document = source.document ∧ successor'.lsn = source.lsn ∧
        (io'.truncate = .ok () → io'.save = .ok () → answer = .ok (.installed source.lsn source.document.schema image.digest))) ∧
      ∀ object : Json, object.WellFormed → jsonString object "digest" = jsonString image.toJson "digest" →
        snapshotContent object ≠ snapshotContent image.toJson →
        (∀ document lsn, snapshotContent object = contentOf document lsn →
          Separates sha256 (snapshotText floats document lsn) (snapshotText floats source.document source.lsn)) →
        ∃ refusal, successor.installSnapshot (jsonDigest floats) io' (some handoff) (SnapshotBody.fromJson object) =
          (successor, .error refusal) := by
  obtain ⟨-, hpos, -, hlsnImage, hschemaImage, hdigest, -⟩ := NodeState.snapshot_ok hproduced
  have hfor : successor.preparedFor handoff = .ok expected := by
    simp [NodeState.preparedFor, hprepared, hhandoff]
  have hparse : parseHandoffId (some handoff) = .ok handoff := by
    simp [parseHandoffId, Option.filter, hpos]
  constructor
  · rintro successor' answer hinstall
    have hread : NodeState.readSnapshot (jsonDigest floats) expected ⟨some source.document.schema, some source.lsn,
        some (some (NodeState.snapshotDigest (jsonDigest floats) source.document source.lsn)), some source.document.members⟩ = _ :=
      NodeState.readSnapshot_image hdocument hschema
    rw [fromJson_toJson, hlsnImage, hschemaImage, hdigest, hunmodified] at hinstall
    simp only [NodeState.installSnapshot, hparse, hfor, orRefuse, hread, bind, Except.bind] at hinstall
    split at hinstall
    · cases hinstall
      refine ⟨rfl, rfl, fun htruncate => ?_⟩
      rename_i hfailed
      rw [htruncate] at hfailed
      cases hfailed
    · unfold NodeState.saveThen NodeState.saveState at hinstall
      cases hsave : io'.save with
      | error refusal =>
        simp only [hsave] at hinstall
        cases hinstall
        exact ⟨rfl, rfl, fun _ hsaved => by cases hsaved⟩
      | ok u =>
        simp only [hsave] at hinstall
        cases hinstall
        exact ⟨rfl, rfl, fun _ _ => by rw [hdigest]⟩
  · intro object hobject hsame hcontent hsha
    have hdigest' : jsonString image.toJson "digest" = some image.digest.toHex := by
      simp [SnapshotImage.toJson, Json.tryString]
    rw [hdigest', hdigest] at hsame
    rw [snapshotContent_toJson hlsnImage hschemaImage hunmodified] at hcontent
    simp only [NodeState.installSnapshot, hparse, hfor, bind, Except.bind]
    cases hbody : SnapshotBody.fromJson object with
    | none => exact ⟨_, rfl⟩
    | some body =>
      simp only [orRefuse]
      cases hread : NodeState.readSnapshot (jsonDigest floats) expected body with
      | error refusal => exact ⟨refusal, rfl⟩
      | ok content =>
        exact absurd hread (NodeState.not_readSnapshot hdocument hlsn hobject hbody hsame hcontent hsha)

namespace Sample

/-- Numbers are all that the sample's texts hold. -/
def noFloats : FloatText := ⟨fun _ => none, fun _ => none⟩

def oneField : StateDocument := { schema := 1, fields := SortedMap.empty.insert "key" "value" }

def sourceNode : NodeState := { grantedNode with document := oneField, lsn := 7 }

def sourceImage : SnapshotImage :=
  { id := 1, lsn := 7, schema := 1, digest := NodeState.snapshotDigest (jsonDigest noFloats) oneField 7
    fields := oneField.members }

def sourceBinding : SourceBinding := ⟨incarnation 1, 1, 2, tokens 0, 1, 1⟩

def preparedNode : NodeState := { booted with expectedSource := some sourceBinding }

/-- The source's object with another value under the same digest. -/
def tamperedObject : Json := ({ sourceImage with fields := [("key", some "other")] } : SnapshotImage).toJson

def otherField : StateDocument := { schema := 1, fields := SortedMap.empty.insert "key" "other" }

end Sample

open Sample in
theorem snapshot_transfer_sample :
    (∀ successor' answer, preparedNode.installSnapshot (jsonDigest noFloats) {} (some 1) (SnapshotBody.fromJson sourceImage.toJson) =
        (successor', answer) → successor'.document = oneField ∧ successor'.lsn = 7) ∧
      ∃ refusal, preparedNode.installSnapshot (jsonDigest noFloats) {} (some 1) (SnapshotBody.fromJson tamperedObject) =
        (preparedNode, .error refusal) := by
  have hdocument : oneField.Bounded := by
    have hput : (StateDocument.mk 1 .empty).put "key" "value" = .ok oneField := rfl
    exact (StateDocument.bounded_empty (by decide) (by decide)).put hput
  have hwellFormed : tamperedObject.WellFormed :=
    wellFormed_toJson (by decide) (by decide) (by decide) (List.pairwise_singleton _ _)
  have hcontent : snapshotContent tamperedObject = contentOf otherField 7 := snapshotContent_toJson rfl rfl rfl
  have hdiffers : sha256 (snapshotText noFloats otherField 7) ≠ sha256 (snapshotText noFloats oneField 7) := by decide +kernel
  have htransfer := @snapshot_transfer noFloats {} sourceNode _ preparedNode 1 sourceImage sourceBinding hdocument (by decide) rfl rfl
    rfl rfl rfl {}
  refine ⟨fun successor' answer h => ?_, htransfer.2 tamperedObject hwellFormed ?_ ?_ ?_⟩
  · obtain ⟨hfields, hlsn, -⟩ := htransfer.1 successor' answer h
    exact ⟨hfields, hlsn⟩
  · rfl
  · rw [hcontent, snapshotContent_toJson (show sourceImage.lsn = 7 from rfl) rfl rfl]
    intro h
    have hvalue := congrArg (StateDocument.get · "key") (contentOf_inj h).1
    exact absurd hvalue (by decide)
  · rintro document lsn hdescribes
    obtain ⟨rfl, rfl⟩ := contentOf_inj (hcontent.symm.trans hdescribes)
    exact fun h => absurd h hdiffers

end FabricEvolution

import FabricEvolution.Persistence.RecordLog
import FabricEvolution.Wire.Sha256

/-!
# Integrity files

A payload behind a header with its length, CRC-32 and SHA-256, and the digest of the payload it replaces.

* `encodeIntegrityFile`, `verifyIntegrityBytes` : the bytes of such a file, and their verification;
* `verify_encode` : what is encoded verifies, to the same payload;
* `writeIntegrityFile`, `readIntegrityFile`, `readIntegrityFileWithRecovery` : the contents of a file after a write whose
  file effects succeed, and what is read from a file and its backup copy;
* `read_of_write` : what is written is read back.
-/

namespace FabricEvolution
open Lib

def integrityMagic : Bytes := ['F', 'A', 'B', 'E', 'V', 'O', '1', byteOf 0]

namespace Digest

def toBytes (digest : Digest) : Bytes := digest.bytes.map fun byte => byteOf byte.val

/-- The digest that thirty-two bytes spell. -/
def ofBytes (bytes : Bytes) : Digest :=
  if h : (bytes.map fun c => Fin.ofNat 256 (byteValue c)).length = 32 then ⟨bytes.map fun c => Fin.ofNat 256 (byteValue c), h⟩
  else .zero

@[simp] theorem length_toBytes (digest : Digest) : digest.toBytes.length = 32 := by
  rw [toBytes, List.length_map, digest.length_bytes]

@[simp] theorem ofBytes_toBytes (digest : Digest) : ofBytes digest.toBytes = digest := by
  have hbytes : (digest.toBytes.map fun c => Fin.ofNat 256 (byteValue c)) = digest.bytes := by
    rw [toBytes, List.map_map]
    refine List.map_id'' (fun byte => ?_) _
    apply Fin.ext
    show byteValue (byteOf byte.val) % 256 = byte.val
    rw [byteValue_byteOf, Nat.mod_mod, Nat.mod_eq_of_lt byte.isLt]
  unfold ofBytes
  rw [dif_pos (by rw [hbytes, digest.length_bytes])]
  simp only [hbytes]

end Digest

/-! ## Encoding -/

def integrityHeader (payload : Bytes) (previousDigest : Digest) : Bytes :=
  integrityMagic ++ leBytes 4 formatVersion ++ leBytes 4 integrityHeaderBytes ++ leBytes 8 payload.length ++
    leBytes 4 (crc32 payload).toNat ++ leBytes 4 0 ++ (sha256 payload).toBytes ++ previousDigest.toBytes ++
    List.replicate 32 (byteOf 0)

def encodeIntegrityFile (payload : Bytes) (previousDigest : Digest) : Bytes := integrityHeader payload previousDigest ++ payload

/-! ## Verification -/

structure IntegrityFileInfo where
  formatVersion : Nat
  payloadBytes : Nat
  payloadCrc32 : Nat
  payloadDigest : Digest
  previousDigest : Digest

def verifyIntegrityBytes (path : String) (raw : Bytes) : Result (Bytes × IntegrityFileInfo) :=
  if raw.length < integrityHeaderBytes then
    .error ⟨.integrityFailure, "integrity file is shorter than its header",
      .ofPairs [("path", .string path), ("bytes", .uint raw.length)]⟩
  else if raw.take 8 ≠ integrityMagic then
    .error ⟨.integrityFailure, "integrity file magic mismatch", .ofPairs [("path", .string path)]⟩
  else
    let version := readLe ((raw.drop 8).take 4)
    let headerBytes := readLe ((raw.drop 12).take 4)
    let payloadBytes := readLe ((raw.drop 16).take 8)
    let payloadCrc := readLe ((raw.drop 24).take 4)
    let recordedDigest := Digest.ofBytes ((raw.drop 32).take 32)
    let payload := raw.drop integrityHeaderBytes
    if version ≠ formatVersion then
      .error ⟨.integrityFailure, "unsupported integrity file format version",
        .ofPairs [("path", .string path), ("found", .uint version), ("expected", .uint formatVersion)]⟩
    else if headerBytes ≠ integrityHeaderBytes then
      .error ⟨.integrityFailure, "integrity file header size is not the declared size",
        .ofPairs [("path", .string path), ("header_bytes", .uint headerBytes)]⟩
    else if payloadBytes > maxIntegrityPayloadBytes then
      .error (.plain .boundsExceeded "integrity file payload exceeds the permitted size")
    else if payloadBytes + integrityHeaderBytes ≠ raw.length then
      .error ⟨.integrityFailure, "integrity file length does not match the declared payload size",
        .ofPairs [("path", .string path), ("declared", .uint payloadBytes), ("actual", .uint raw.length)]⟩
    else if (crc32 payload).toNat ≠ payloadCrc then
      .error ⟨.integrityFailure, "integrity file payload CRC mismatch",
        .ofPairs [("path", .string path), ("recorded", .uint payloadCrc), ("computed", .uint (crc32 payload).toNat)]⟩
    else if sha256 payload ≠ recordedDigest then
      .error ⟨.integrityFailure, "integrity file payload digest mismatch",
        .ofPairs [("path", .string path), ("recorded", .string recordedDigest.toHex),
          ("computed", .string (sha256 payload).toHex)]⟩
    else .ok (payload,
      { formatVersion := version, payloadBytes, payloadCrc32 := payloadCrc, payloadDigest := recordedDigest,
        previousDigest := Digest.ofBytes ((raw.drop 64).take 32) })

@[simp] theorem length_integrityHeader (payload : Bytes) (previousDigest : Digest) :
    (integrityHeader payload previousDigest).length = integrityHeaderBytes := by
  simp [integrityHeader, integrityMagic, integrityHeaderBytes]

@[simp] theorem length_encodeIntegrityFile (payload : Bytes) (previousDigest : Digest) :
    (encodeIntegrityFile payload previousDigest).length = payload.length + integrityHeaderBytes := by
  rw [encodeIntegrityFile, List.length_append, length_integrityHeader, Nat.add_comm]

/-- What is encoded verifies, to the same payload. -/
theorem verify_encode (path : String) {payload : Bytes} (previousDigest : Digest) (h : payload.length ≤ maxIntegrityPayloadBytes) :
    ∃ info, verifyIntegrityBytes path (encodeIntegrityFile payload previousDigest) = .ok (payload, info) ∧
      info.payloadDigest = sha256 payload := by
  have hlength : payload.length < 256 ^ 8 := h.trans_lt (by decide)
  have hcrc : (crc32 payload).toNat < 256 ^ 4 := (crc32 payload).isLt
  set raw := encodeIntegrityFile payload previousDigest with hraw
  have hsize : raw.length = payload.length + integrityHeaderBytes := length_encodeIntegrityFile payload previousDigest
  have hpayload : raw.drop integrityHeaderBytes = payload := List.drop_left' (length_integrityHeader payload previousDigest)
  have hfields : raw.take 8 = integrityMagic ∧ (raw.drop 8).take 4 = leBytes 4 formatVersion ∧
      (raw.drop 12).take 4 = leBytes 4 integrityHeaderBytes ∧ (raw.drop 16).take 8 = leBytes 8 payload.length ∧
      (raw.drop 24).take 4 = leBytes 4 (crc32 payload).toNat ∧ (raw.drop 32).take 32 = (sha256 payload).toBytes := by
    refine ⟨?_, ?_, ?_, ?_, ?_, ?_⟩ <;>
      simp [hraw, encodeIntegrityFile, integrityHeader, integrityMagic, List.take_append, List.drop_append,
        List.drop_eq_nil_of_le]
  obtain ⟨hmagic, hversion, hheader, hlengthField, hcrcField, hdigest⟩ := hfields
  unfold verifyIntegrityBytes
  rw [if_neg (by omega), if_neg (by simp [hmagic]), hversion, hheader, hlengthField, hcrcField, hdigest, hpayload,
    readLe_leBytes (by decide), readLe_leBytes (by decide), readLe_leBytes hlength, readLe_leBytes hcrc, Digest.ofBytes_toBytes]
  dsimp only
  rw [if_neg (by simp), if_neg (by simp), if_neg (by omega), if_neg (by omega), if_neg (by simp), if_neg (by simp)]
  exact ⟨_, rfl, rfl⟩

/-! ## Files -/

def readIntegrityFile (path : String) (contents : Option Bytes) : Result (Bytes × IntegrityFileInfo) := do
  let contents ← orRefuse contents ⟨.ioFailure, "cannot open file for reading", .ofPairs [("path", .string path)]⟩
  let raw ← readBinaryFile path contents
  verifyIntegrityBytes path raw

/-- The digest of the payload that is replaced; zero if there is none or it does not verify. -/
def replacedDigest (path : String) (existing : Option Bytes) : Digest :=
  match readIntegrityFile path existing with
  | .ok (_, info) => info.payloadDigest
  | .error _ => .zero

/-- What is installed in place of `existing`. -/
def writeIntegrityFile (path : String) (existing : Option Bytes) (payload : Bytes) : Result Bytes :=
  if payload.length > maxIntegrityPayloadBytes then
    .error ⟨.boundsExceeded, "integrity file payload exceeds the permitted size",
      .ofPairs [("path", .string path), ("bytes", .uint payload.length)]⟩
  else .ok (encodeIntegrityFile payload (replacedDigest path existing))

structure RecoveryOutcome where
  payload : Bytes
  fromBackup : Bool

def backupPath (path : String) : String := path ++ ".prev"

def readIntegrityFileWithRecovery (path : String) (primary backup : Option Bytes) (allowBackup : Bool) :
    Result RecoveryOutcome :=
  match readIntegrityFile path primary with
  | .ok (payload, _) => .ok ⟨payload, false⟩
  | .error refusal =>
    if !allowBackup then .error refusal
    else if backup.isNone then
      .error { refusal with message := refusal.message ++ " (no backup copy is available)" }
    else
      match readIntegrityFile (backupPath path) backup with
      | .error fallback => .error ⟨fallback.code, "primary record is damaged and the backup is unusable: " ++ fallback.message,
          .ofPairs [("primary", .string refusal.toString), ("backup", .string fallback.toString)]⟩
      | .ok (payload, _) => .ok ⟨payload, true⟩

/-- What is written is read back, whatever it replaced and whatever the backup copy holds. -/
theorem read_of_write {path : String} {existing : Option Bytes} {payload contents : Bytes}
    (h : writeIntegrityFile path existing payload = .ok contents) (backup : Option Bytes) (allowBackup : Bool) :
    readIntegrityFileWithRecovery path (some contents) backup allowBackup = .ok ⟨payload, false⟩ := by
  unfold writeIntegrityFile at h
  split_ifs at h with hsize
  cases h
  have hpayload : payload.length ≤ maxIntegrityPayloadBytes := Nat.le_of_not_lt hsize
  obtain ⟨info, hverify, -⟩ := verify_encode path (replacedDigest path existing) hpayload
  have hlength := length_encodeIntegrityFile payload (replacedDigest path existing)
  have hread : readIntegrityFile path (some (encodeIntegrityFile payload (replacedDigest path existing))) =
      .ok (payload, info) := by
    show (readBinaryFile path _ >>= fun raw => verifyIntegrityBytes path raw) = _
    rw [readBinaryFile, if_neg (by omega)]
    exact hverify
  unfold readIntegrityFileWithRecovery
  rw [hread]

end FabricEvolution

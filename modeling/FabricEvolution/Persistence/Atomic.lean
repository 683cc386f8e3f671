import FabricEvolution.Persistence.Files

/-!
# Integrity files and crashes

* `crashing` : effects that meet the disk, and what must hold of the files after a crash before or during each;
* `Resists` : what holds after a crash, also if some files are lost; `demand_resists` : effects on those files keep it;
* `previousDigest_triple`, `installFile_triple`, `writeIntegrityFile_triple` : the steps of a write;
* `verify_eq_ok_length` : a file that verifies has the length that its header says;
* `integrity_file_crash_atomic` : after a crash at any point of a write the old or the new payload is recovered.
-/

namespace FabricEvolution
open Lib

/-! ## Crashes -/

/-- Effects that meet the disk as the operating system answers. -/
def fileExec (o : FileOp) (_ : Unit) (disk : Disk) (answer : o.Answer) (disk' : Disk) : Prop :=
  ∃ choice, o.exec choice disk = (answer, disk')

/-- Effects of which each may be cut short, and what then holds of the files. -/
def crashing (after : Directory → Prop) : Effects Unit FileOp FileOp.Answer Disk where
  env disk disk' := disk' = disk
  mid o _ disk := ∀ files, disk.Torn o.tears files → after files
  exec := fileExec

/-- The files that a crash may leave where this is left of a program. -/
def CrashesTo {α : Type} (rest : Prog Unit FileOp FileOp.Answer α) (disk : Disk) (files : Directory) : Prop :=
  match rest with
  | .op o _ _ => disk.Torn o.tears files
  | .ret _ => disk.Torn [] files

/-- What holds after a crash, even if the files in `lost` hold anything. -/
def Resists (after : Directory → Prop) (lost : FilePath → Prop) (disk : Disk) : Prop :=
  ∀ files, (∀ path, ¬ lost path → disk.unsynced path = false → files path = disk.files path) → after files

section
variable {after : Directory → Prop} {lost : FilePath → Prop} {disk disk' : Disk} {o : FileOp}

theorem Resists.mono {lost' : FilePath → Prop} (h : Resists after lost disk) (hsub : ∀ path, lost' path → lost path) :
    Resists after lost' disk :=
  fun files hfiles => h files fun path hpath => hfiles path fun h' => hpath (hsub path h')

theorem FileOp.touches_of_tears {path : FilePath} (h : path ∈ o.tears) : path ∈ o.touches := by
  cases o <;> simp_all [tears, touches]

/-- An effect on lost files changes nothing for the others. -/
theorem Resists.exec (h : Resists after lost disk) (ho : ∀ path ∈ o.touches, lost path) {choice : FileChoice} {answer : o.Answer}
    (hexec : o.exec choice disk = (answer, disk')) : Resists after lost disk' := by
  intro files hfiles
  refine h files fun path hpath hsynced => ?_
  have hother := FileOp.exec_other (fun h' => hpath (ho path h')) choice disk
  rw [hexec] at hother
  rw [← hother.1]
  apply hfiles path hpath
  rw [hother.2]
  exact hsynced

theorem Resists.mid (h : Resists after lost disk) (ho : ∀ path ∈ o.touches, lost path) : (crashing after).mid o () disk :=
  fun files htorn => h files fun path hpath hsynced =>
    htorn path hsynced fun h' => hpath (ho path (FileOp.touches_of_tears h'))

theorem Resists.torn {written : List FilePath} {files : Directory} (h : Resists after lost disk) (hwritten : ∀ path ∈ written, lost path)
    (htorn : disk.Torn written files) : after files :=
  h files fun path hpath hsynced => htorn path hsynced fun h' => hpath (hwritten path h')

end

/-! ## Rules -/

namespace FileProgram
variable {after : Directory → Prop} {lost : FilePath → Prop} {I : Unit → Disk → Prop} {o : FileOp}

theorem perform_triple {Q : o.Answer → Unit → Disk → Prop} {Err : Unit → Disk → Prop}
    (hmid : ∀ disk, I () disk → (crashing after).mid o () disk)
    (h : ∀ disk choice answer disk', I () disk → o.exec choice disk = (answer, disk') → Q answer () disk') :
    Triple (crashing after) I (Eff.perform o : FileProgram _) (Triple.ends Q Err) := by
  refine Triple.perform fun c disk hi disk₀ henv => ?_
  obtain rfl : disk₀ = disk := henv
  refine ⟨hmid disk₀ hi, fun answer disk' hexec => ?_⟩
  obtain ⟨choice, hexec⟩ := hexec
  exact h disk₀ choice answer disk' hi hexec

theorem demand_triple {refuse : IoFault → Status} {Q : o.Value → Unit → Disk → Prop} {Err : Unit → Disk → Prop}
    (hmid : ∀ disk, I () disk → (crashing after).mid o () disk)
    (hok : ∀ disk choice value disk', I () disk → o.exec choice disk = (.ok value, disk') → Q value () disk')
    (herr : ∀ disk choice fault disk', I () disk → o.exec choice disk = (.error fault, disk') → Err () disk') :
    Triple (crashing after) I (demand o refuse) (Triple.ends Q Err) := by
  let Told : o.Answer → Unit → Disk → Prop := fun answer c disk =>
    (∀ value, answer = .ok value → Q value c disk) ∧ ∀ fault, answer = .error fault → Err c disk
  have hperform : Triple (crashing after) I (Eff.perform o : FileProgram _) (Triple.ends Told Err) := by
    refine perform_triple hmid fun disk choice answer disk' hi hexec => ⟨?_, ?_⟩
    · rintro value rfl
      exact hok disk choice value disk' hi hexec
    · rintro fault rfl
      exact herr disk choice fault disk' hi hexec
  refine Triple.bind hperform fun answer => ?_
  cases answer with
  | ok value => exact Triple.pure fun c disk h => h.1 value rfl
  | error fault => exact Triple.throw fun c disk h => h.2 fault rfl

theorem perform_resists (ho : ∀ path ∈ o.touches, lost path) : Triple (crashing after) (fun _ => Resists after lost)
    (Eff.perform o : FileProgram _) (Triple.ends (fun _ _ => Resists after lost) fun _ => Resists after lost) :=
  perform_triple (fun _ h => h.mid ho) fun _ _ _ _ h hexec => h.exec ho hexec

theorem demand_resists {refuse : IoFault → Status} (ho : ∀ path ∈ o.touches, lost path) :
    Triple (crashing after) (fun _ => Resists after lost) (demand o refuse)
      (Triple.ends (fun _ _ => Resists after lost) fun _ => Resists after lost) :=
  demand_triple (fun _ h => h.mid ho) (fun _ _ _ _ h hexec => h.exec ho hexec) fun _ _ _ _ h hexec => h.exec ho hexec

/-! ### Reading -/

theorem exec_probe {path : FilePath} {choice : FileChoice} {disk disk' : Disk} {answer : FileOp.Answer (.probe path)}
    (h : FileOp.exec (.probe path) choice disk = (answer, disk')) : disk' = disk := by
  cases choice <;> cases h <;> rfl

theorem exec_read {path : FilePath} {choice : FileChoice} {disk disk' : Disk} {answer : FileOp.Answer (.read path)}
    (h : FileOp.exec (.read path) choice disk = (answer, disk')) :
    disk' = disk ∧ ∀ contents, answer = .ok contents → disk.files path = some contents := by
  cases choice with
  | failed fault written =>
    cases h
    exact ⟨rfl, fun contents h => by cases h⟩
  | done =>
    rw [FileOp.exec] at h
    split at h <;> cases h
    · exact ⟨rfl, fun contents h => by cases h⟩
    · rename_i contents hfile
      refine ⟨rfl, fun contents' h => ?_⟩
      cases h
      exact hfile

theorem pathExists_triple {path : FilePath} (hmid : ∀ disk, I () disk → (crashing after).mid (.probe path) () disk) :
    Triple (crashing after) I (pathExists path) (Triple.ends (fun _ => I) I) := by
  have hperform : Triple (crashing after) I (Eff.perform (.probe path) : FileProgram _) (Triple.ends (fun _ => I) I) := by
    refine perform_triple hmid fun disk choice answer disk' hi hexec => ?_
    rw [exec_probe hexec]
    exact hi
  refine Triple.bind hperform fun answer => ?_
  cases answer with
  | ok found => exact Triple.pure fun c disk h => h
  | error fault => exact Triple.pure fun c disk h => h

/-- What is read is what the file says. -/
theorem readIntegrityFile_triple {path : FilePath} (hmid : ∀ disk, I () disk → (crashing after).mid (.read path) () disk) :
    Triple (crashing after) I (readIntegrityFile path) (Triple.ends (fun result c disk => I c disk ∧
      FabricEvolution.readIntegrityFile path.text (disk.files path) = .ok result) I) := by
  refine Triple.bind (S := fun contents c disk => I c disk ∧ disk.files path = some contents) ?_ fun contents => ?_
  · refine demand_triple hmid ?_ ?_
    · intro disk choice contents disk' hi hexec
      obtain ⟨rfl, hcontents⟩ := exec_read hexec
      exact ⟨hi, hcontents contents rfl⟩
    · intro disk choice fault disk' hi hexec
      rw [(exec_read hexec).1]
      exact hi
  · refine Triple.lift fun c disk h => ?_
    cases hresult : FabricEvolution.readIntegrityFile path.text (some contents) with
    | ok result =>
      refine ⟨h.1, ?_⟩
      rw [h.2, hresult]
    | error refusal => exact h.1

/-! ### Writing -/

/-- Before a write over `existing`: the temporary file may be lost, and all but the file itself where that verifies. -/
structure Ready (after : Directory → Prop) (name : String) (process : Nat) (existing : Option Bytes) (disk : Disk) : Prop where
  unchanged : disk.files (.main name) = existing
  temporary : Resists after (· = .temporary name process) disk
  verified : ∀ result, FabricEvolution.readIntegrityFile name existing = .ok result → Resists after (· ≠ .main name) disk

variable {name : String} {process : Nat} {existing : Option Bytes}

/-- The digest of the payload that is replaced, or none where it was not read. -/
theorem previousDigest_triple {keepBackup : Bool} :
    Triple (crashing after) (fun _ => Ready after name process existing) (previousDigest name keepBackup)
      (Triple.ends (fun previous _ disk => Resists after (· = .temporary name process) disk ∧
        (previous = replacedDigest name existing ∨ previous = .zero)) fun _ => Resists after (· = .temporary name process)) := by
  have hmid : ∀ {o : FileOp}, o.touches = [] → ∀ disk, Ready after name process existing disk →
      (crashing after).mid o () disk := by
    intro o ho disk h
    refine h.temporary.mid ?_
    rw [ho]
    exact fun path hpath => absurd hpath List.not_mem_nil
  refine Triple.bind (S := fun _ _ => Ready after name process existing) ((pathExists_triple (hmid rfl)).post ?_) fun found => ?_
  · rintro (refusal | found) c disk h
    · exact h.temporary
    · exact h
  · cases found with
    | false => exact Triple.pure fun c disk h => ⟨h.temporary, .inr rfl⟩
    | true =>
      refine Triple.bind (S := fun previous _ disk => Ready after name process existing disk ∧
        ∀ result, previous = .ok result → FabricEvolution.readIntegrityFile name existing = .ok result) ?_ fun previous => ?_
      · refine Triple.attempt ((readIntegrityFile_triple (hmid rfl)).post ?_)
        rintro (refusal | result) c disk h
        · exact ⟨h, fun result hresult => by cases hresult⟩
        · refine ⟨h.1, fun result' hresult => ?_⟩
          rw [← Except.ok.inj hresult, ← h.1.unchanged]
          exact h.2
      · cases previous with
        | error refusal => exact Triple.pure fun c disk h => ⟨h.1.temporary, .inr rfl⟩
        | ok previous =>
          have htemporary : ∀ disk, Resists after (· ≠ .main name) disk → Resists after (· = .temporary name process) disk :=
            fun disk h => h.mono fun path hpath => by rw [hpath]; exact fun heq => by cases heq
          by_cases hread : FabricEvolution.readIntegrityFile name existing = .ok previous
          swap
          · exact fun c disk h => absurd (h.2 previous rfl) hread
          have hdigest : previous.2.payloadDigest = replacedDigest name existing := by
            rw [replacedDigest, hread]
          refine Triple.bind (S := fun _ _ => Resists after (· ≠ .main name)) ?_ fun _ =>
            Triple.pure fun c disk h => ⟨htemporary disk h, .inl hdigest⟩
          refine Triple.pre (P := fun _ => Resists after (· ≠ .main name)) ?_ fun c disk h => h.1.verified previous hread
          unfold Eff.whenever
          split_ifs
          · refine Triple.post (demand_resists ?_) ?_
            · intro path hpath
              rw [List.mem_singleton.mp hpath]
              exact fun heq => by cases heq
            · rintro (refusal | u) c disk h
              · exact htemporary disk h
              · exact h
          · exact Triple.pure fun c disk h => h

/-- The file is replaced, by the whole of its new contents. -/
def Installed (name : String) (contents : Bytes) (disk : Disk) : Prop :=
  disk.files (.main name) = some contents ∧ disk.unsynced (.main name) = false

theorem installFile_triple {contents : Bytes} : Triple (crashing after) (fun _ => Resists after (· = .temporary name process))
    (installFile process name contents)
    (Triple.ends (fun _ _ => Installed name contents) fun _ => Resists after (· = .temporary name process)) := by
  have htouch : ∀ path ∈ [FilePath.temporary name process], path = .temporary name process := fun path h => List.mem_singleton.mp h
  have hmid : ∀ {o : FileOp}, o.touches = [.temporary name process] → ∀ disk, Resists after (· = .temporary name process) disk →
      (crashing after).mid o () disk := fun ho disk h => h.mid (by rw [ho]; exact htouch)
  have hkept : ∀ {o : FileOp} {choice : FileChoice} {answer : o.Answer} {disk disk' : Disk}, o.exec choice disk = (answer, disk') →
      Resists after (· = .temporary name process) disk → o.touches = [.temporary name process] →
      Resists after (· = .temporary name process) disk' := fun hexec h ho => h.exec (by rw [ho]; exact htouch) hexec
  -- The temporary file is created empty, ...
  refine Triple.bind (S := fun _ _ disk => Resists after (· = .temporary name process) disk ∧
    disk.files (.temporary name process) = some []) ?_ fun _ => ?_
  · refine demand_triple (hmid rfl) ?_ fun disk choice fault disk' h hexec => hkept hexec h rfl
    intro disk choice u disk' h hexec
    refine ⟨hkept hexec h rfl, ?_⟩
    cases choice with
    | failed fault written => cases hexec
    | done =>
      cases hexec
      exact Disk.files_put_same ..
  refine Triple.bind (S := fun outcome _ disk => (∀ u, outcome = .ok u → Installed name contents disk) ∧
    ∀ refusal, outcome = .error refusal → Resists after (· = .temporary name process) disk) ?_ fun outcome => ?_
  · refine Triple.attempt (Triple.post (Q := Triple.ends (fun _ _ => Installed name contents)
      fun _ => Resists after (· = .temporary name process)) ?_ ?_)
    -- ... filled, ...
    · refine Triple.bind (S := fun _ _ disk => Resists after (· = .temporary name process) disk ∧
        disk.files (.temporary name process) = some contents) ?_ fun _ => ?_
      · refine demand_triple (fun disk h => hmid rfl disk h.1) ?_ fun disk choice fault disk' h hexec => hkept hexec h.1 rfl
        intro disk choice u disk' h hexec
        refine ⟨hkept hexec h.1 rfl, ?_⟩
        cases choice with
        | failed fault written => cases hexec
        | done =>
          cases hexec
          rw [Disk.files_put_same, h.2]
          rfl
      -- ... synced, ...
      · refine Triple.bind (S := fun _ _ disk => Resists after (· = .temporary name process) disk ∧
          disk.files (.temporary name process) = some contents ∧ disk.unsynced (.temporary name process) = false) ?_ fun _ => ?_
        · refine demand_triple (fun disk h => hmid rfl disk h.1) ?_ fun disk choice fault disk' h hexec => hkept hexec h.1 rfl
          intro disk choice u disk' h hexec
          refine ⟨hkept hexec h.1 rfl, ?_⟩
          cases choice with
          | failed fault written => cases hexec
          | done =>
            cases hexec
            exact ⟨(Disk.files_put_same ..).trans h.2, Disk.unsynced_put_same ..⟩
        -- ... and renamed, before or after which a crash finds the old or the new file.
        · refine demand_triple (fun disk h files htorn => h.1.torn (fun _ h' => absurd h' List.not_mem_nil) htorn) ?_ ?_
          · intro disk choice u disk' h hexec
            cases choice with
            | failed fault written => cases hexec
            | done =>
              simp only [FileOp.exec, h.2.1] at hexec
              cases hexec
              exact ⟨Disk.files_put_same .., (Disk.unsynced_put_same ..).trans h.2.2⟩
          · intro disk choice fault disk' h hexec
            cases choice with
            | failed fault' written =>
              cases hexec
              exact h.1
            | done =>
              simp only [FileOp.exec, h.2.1] at hexec
              cases hexec
    · rintro (refusal | u) c disk h
      · exact ⟨fun u hu => (by cases hu), fun _ _ => h⟩
      · exact ⟨fun _ _ => h, fun refusal hrefusal => by cases hrefusal⟩
  · cases outcome with
    | ok u => exact Triple.pure fun c disk h => h.1 u rfl
    | error refusal =>
      refine Triple.bind (S := fun _ _ => Resists after (· = .temporary name process)) ?_ fun _ => Triple.throw fun c disk h => h
      exact (perform_resists (o := .remove _) htouch).pre fun c disk h => h.2 refusal rfl

/-- A write that succeeds installs what is written over the file as it was, or over one that was not read. -/
theorem writeIntegrityFile_triple {payload : Bytes} {keepBackup : Bool} :
    Triple (crashing after) (fun _ => Ready after name process existing) (writeIntegrityFile process name payload keepBackup)
      (Triple.ends (fun _ _ disk => ∃ read contents, (read = existing ∨ read = none) ∧
          FabricEvolution.writeIntegrityFile name read payload = .ok contents ∧ Installed name contents disk)
        fun _ => Resists after (· = .temporary name process)) := by
  unfold writeIntegrityFile
  split_ifs with hlarge
  · exact Triple.throw fun c disk h => h.temporary
  · refine Triple.bind previousDigest_triple fun previous => ?_
    by_cases hprevious : previous = replacedDigest name existing ∨ previous = .zero
    swap
    · exact fun c disk h => absurd h.2 hprevious
    refine Triple.conseq installFile_triple (fun c disk h => h.1) ?_
    rintro (refusal | u) c disk h
    · exact h
    · rcases hprevious with rfl | rfl
      · exact ⟨existing, _, .inl rfl, if_neg hlarge, h⟩
      · exact ⟨none, _, .inr rfl, if_neg hlarge, h⟩

end FileProgram

/-! ## Files that verify -/

theorem verify_eq_ok_length {path : String} {raw : Bytes} {result : Bytes × IntegrityFileInfo}
    (h : verifyIntegrityBytes path raw = .ok result) :
    integrityHeaderBytes ≤ raw.length ∧ readLe ((raw.drop 16).take 8) + integrityHeaderBytes = raw.length := by
  unfold verifyIntegrityBytes at h
  dsimp only at h
  split_ifs at h with hheader _ _ _ _ hlength
  exact ⟨Nat.le_of_not_lt hheader, not_not.mp hlength⟩

/-- Of the texts that begin alike, only one verifies. -/
theorem verify_cut {path path' : String} {raw raw' : Bytes} {result result' : Bytes × IntegrityFileInfo}
    (hcutOff : raw <+: raw') (h : verifyIntegrityBytes path raw = .ok result) (h' : verifyIntegrityBytes path' raw' = .ok result') :
    raw = raw' := by
  obtain ⟨hheader, hlength⟩ := verify_eq_ok_length h
  obtain ⟨-, hlength'⟩ := verify_eq_ok_length h'
  apply hcutOff.eq_of_length
  obtain ⟨rest, rfl⟩ := hcutOff
  have hfield : ((raw ++ rest).drop 16).take 8 = (raw.drop 16).take 8 := by
    have hlong : 24 ≤ raw.length := le_trans (by decide) hheader
    rw [List.drop_append_of_le_length (by omega), List.take_append_of_le_length]
    rw [List.length_drop]
    omega
  rw [hfield] at hlength'
  omega

/-! ## Recovery after a crash -/

/-- What is recovered from a file and its backup copy. -/
def recovered (name : String) (allowBackup : Bool) (files : Directory) : Result RecoveryOutcome :=
  readIntegrityFileWithRecovery name (files (.main name)) (files (.backup name)) allowBackup

theorem recovered_of_main {name : String} {files : Directory} {payload : Bytes} {info : IntegrityFileInfo}
    (h : readIntegrityFile name (files (.main name)) = .ok (payload, info)) (allowBackup : Bool) :
    recovered name allowBackup files = .ok ⟨payload, false⟩ := by
  rw [recovered, readIntegrityFileWithRecovery, h]

theorem read_encoded (name : String) {payload : Bytes} (previous : Digest) (h : payload.length ≤ maxIntegrityPayloadBytes) :
    ∃ info, readIntegrityFile name (some (encodeIntegrityFile payload previous)) = .ok (payload, info) := by
  obtain ⟨info, hverify, -⟩ := verify_encode name previous h
  have hlength := length_encodeIntegrityFile payload previous
  refine ⟨info, ?_⟩
  show (readBinaryFile name _ >>= fun raw => verifyIntegrityBytes name raw) = _
  rw [readBinaryFile, if_neg (by omega)]
  exact hverify

/-- The files from which something is recovered are ready for a write. -/
theorem ready_of_recovered {name : String} {process : Nat} {allowBackup : Bool} {files : Directory} {old : RecoveryOutcome}
    {after : Directory → Prop} (hold : recovered name allowBackup files = .ok old)
    (hafter : ∀ files' outcome, recovered name allowBackup files' = .ok outcome → outcome.payload = old.payload → after files') :
    FileProgram.Ready after name process (files (.main name)) (.settled files) := by
  cases hmain : readIntegrityFile name (files (.main name)) with
  | ok result =>
    obtain ⟨payload, info⟩ := result
    have hsame : recovered name allowBackup files = .ok ⟨payload, false⟩ := recovered_of_main hmain allowBackup
    rw [hold] at hsame
    cases hsame
    -- The file itself is enough.
    have hresists : Resists after (· ≠ .main name) (.settled files) := by
      intro files' hfiles
      have hkept : files' (.main name) = files (.main name) := hfiles _ (not_not.mpr rfl) rfl
      rw [← hkept] at hmain
      exact hafter files' _ (recovered_of_main hmain allowBackup) rfl
    refine ⟨rfl, hresists.mono fun path hpath => ?_, fun _ _ => hresists⟩
    rw [hpath]
    exact fun heq => by cases heq
  | error refusal =>
    refine ⟨rfl, fun files' hfiles => ?_, fun result hresult => ?_⟩
    · have hkept : files' (.main name) = files (.main name) := hfiles _ (fun heq => by cases heq) rfl
      have hkept' : files' (.backup name) = files (.backup name) := hfiles _ (fun heq => by cases heq) rfl
      have hsame : recovered name allowBackup files' = recovered name allowBackup files := by
        rw [recovered, recovered, hkept, hkept']
      exact hafter files' old (hsame.trans hold) rfl
    · rw [hmain] at hresult
      cases hresult

/-- From files from which a payload is recovered, a write that crashes at any point leaves files from which the old or the new payload
is recovered, and the new one once the write has succeeded. An encoded file verifies, to its payload; what is properly shorter or longer
than it does not. -/
theorem integrity_file_crash_atomic :
    (∀ (name : String) (process : Nat) (payload : Bytes) (keepBackup allowBackup : Bool) (files : Directory) (old : RecoveryOutcome),
      recovered name allowBackup files = .ok old →
      ∀ rest disk, Prog.Reaches fileExec (FileProgram.writeIntegrityFile process name payload keepBackup ()) (.settled files) rest disk →
      ∀ files', CrashesTo rest disk files' → ∃ outcome, recovered name allowBackup files' = .ok outcome ∧
        (outcome.payload = old.payload ∨ outcome.payload = payload) ∧ ∀ u s, rest = .ret (.ok u, s) → outcome.payload = payload) ∧
    ∀ (path : String) (payload : Bytes) (previous : Digest), payload.length ≤ maxIntegrityPayloadBytes →
      (∃ info, verifyIntegrityBytes path (encodeIntegrityFile payload previous) = .ok (payload, info)) ∧
      ∀ raw, raw ≠ encodeIntegrityFile payload previous →
        raw <+: encodeIntegrityFile payload previous ∨ encodeIntegrityFile payload previous <+: raw →
        ∃ refusal, verifyIntegrityBytes path raw = .error refusal := by
  refine ⟨fun name process payload keepBackup allowBackup files old hold rest disk hreaches files' hcrash => ?_,
    fun path payload previous hsize => ⟨?_, fun raw hne hcutOff => ?_⟩⟩
  · let after : Directory → Prop := fun files' => ∃ outcome, recovered name allowBackup files' = .ok outcome ∧
      (outcome.payload = old.payload ∨ outcome.payload = payload)
    have hready : FileProgram.Ready after name process (files (.main name)) (.settled files) :=
      ready_of_recovered hold fun files' outcome houtcome hpayload => ⟨outcome, houtcome, .inl hpayload⟩
    have hrest := Prog.wp_reaches (E := crashing after) (fun _ => rfl)
      (FileProgram.writeIntegrityFile_triple () _ hready) hreaches
    match rest, hrest, hcrash with
    | .op o c k, hrest, hcrash =>
      obtain ⟨outcome, houtcome, hpayload⟩ := (hrest disk rfl).1 files' hcrash
      exact ⟨outcome, houtcome, hpayload, fun u s h => by cases h⟩
    | .ret (.error refusal, s), hrest, hcrash =>
      obtain ⟨outcome, houtcome, hpayload⟩ := Resists.torn hrest (fun _ h => absurd h List.not_mem_nil) hcrash
      exact ⟨outcome, houtcome, hpayload, fun u s h => by cases h⟩
    | .ret (.ok u, s), hrest, hcrash =>
      obtain ⟨read, contents, -, hwritten, hinstalled, hsynced⟩ := hrest
      have hfile : files' (.main name) = some contents := (hcrash _ hsynced List.not_mem_nil).trans hinstalled
      have hrecovered := read_of_write hwritten (files' (.backup name)) allowBackup
      rw [← hfile] at hrecovered
      exact ⟨_, hrecovered, .inr rfl, fun _ _ _ => rfl⟩
  · obtain ⟨info, hverify, -⟩ := verify_encode path previous hsize
    exact ⟨info, hverify⟩
  · obtain ⟨info, hverify, -⟩ := verify_encode path previous hsize
    cases hraw : verifyIntegrityBytes path raw with
    | error refusal => exact ⟨refusal, rfl⟩
    | ok result =>
      rcases hcutOff with hcutOff | hcutOff
      · exact absurd (verify_cut hcutOff hraw hverify) hne
      · exact absurd (verify_cut hcutOff hverify hraw).symm hne

/-- A backup copy without its file: a write that succeeds replaces what was recovered from the copy. -/
theorem integrity_file_crash_atomic_sample : ∃ (files files' : Directory) (outcome outcome' : RecoveryOutcome),
    recovered "state" true files = .ok outcome ∧ outcome.payload = ['a'] ∧
      recovered "state" true files' = .ok outcome' ∧ outcome'.payload = ['b'] ∧
      ∃ info, verifyIntegrityBytes "state" (encodeIntegrityFile ['b'] .zero) = .ok (['b'], info) := by
  obtain ⟨hcrash, hverify⟩ := integrity_file_crash_atomic
  let files : Directory := fun path => if path = .backup "state" then some (encodeIntegrityFile ['a'] .zero) else none
  have hold : recovered "state" true files = .ok ⟨['a'], true⟩ := by
    obtain ⟨info, hread⟩ := read_encoded (backupPath "state") .zero (show ['a'].length ≤ maxIntegrityPayloadBytes by decide)
    have hfallback : readIntegrityFile (backupPath "state") (files (.backup "state")) = .ok (['a'], info) := hread
    have hmain : ∃ refusal, readIntegrityFile "state" (files (.main "state")) = .error refusal := ⟨_, rfl⟩
    obtain ⟨refusal, hmain⟩ := hmain
    rw [recovered, readIntegrityFileWithRecovery, hmain]
    simp only [hfallback]
    rfl
  have hrun : ∃ disk, Prog.Reaches fileExec (FileProgram.writeIntegrityFile 1 "state" ['b'] true ()) (.settled files)
      (.ret (.ok (), ())) disk :=
    ⟨_, .step ⟨.done, rfl⟩ (.step ⟨.done, rfl⟩ (.step ⟨.done, rfl⟩ (.step ⟨.done, rfl⟩ (.step ⟨.done, rfl⟩ (.refl _ _)))))⟩
  obtain ⟨disk, hrun⟩ := hrun
  obtain ⟨outcome', houtcome', -, hnew⟩ := hcrash "state" 1 ['b'] true true files _ hold _ disk hrun disk.files fun _ _ _ => rfl
  exact ⟨files, disk.files, _, outcome', hold, rfl, houtcome', hnew () () rfl, (hverify "state" ['b'] .zero (by decide)).1⟩

end FabricEvolution

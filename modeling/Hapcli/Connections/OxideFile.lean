/-
  Subject:   The container of an `.oxide` file (`oxide_file/format.rs`, `oxide_file/crypto.rs`).

  The JSON codec of the metadata, the key derivation, the cipher and the codec of the payload are
  parameters. A slice that is out of bounds would stop the program (`Checked`).

  * **`container_round_trips_iff`** -- a file comes back as it was just if it has the current version
    of the key derivation; `second_kdf_is_forgotten` -- one of the other can no longer be decrypted.
-/
import Hapcli.Lib.Slices
import Hapcli.Modem.Crc
import Hapcli.Rust.Text

namespace Hapcli.Connections.Oxide

open Hapcli.Lib Hapcli.Rust Hapcli.Modem

/-! ## 1. The header -/

/-- `OxideFileError`, as far as reading, writing and decrypting meet it. -/
inductive OxideFileError
  | invalidMagic
  | unsupportedVersion (version : BitVec 32)
  | unsupportedKdfVersion (version : BitVec 32)
  | invalidFormat (text : Str)
  | decryptionFailed
  | checksumMismatch
  | cryptoError
  | json (text : Str)
  | msgPack (text : Str)
  deriving DecidableEq

/-- `[u8; N]`. -/
abbrev Block (n : Nat) := { bytes : List UInt8 // bytes.length = n }

def magic : Block 5 := ⟨[0x4f, 0x58, 0x49, 0x44, 0x45], rfl⟩

def version : BitVec 32 := 1

/-- `SALT_LEN`, `NONCE_LEN`, `TAG_LEN`. -/
def saltLen : Nat := 32
def nonceLen : Nat := 12
def tagLen : Nat := 16

/-- `kdf_flags`. -/
def kdfV1 : BitVec 32 := 0x0001
def kdfV2 : BitVec 32 := 0x0002
def kdfVersionMask : BitVec 32 := 0x00FF
def currentKdf : BitVec 32 := kdfV1

structure FileHeader where
  magic : Block 5
  version : BitVec 32
  flags : BitVec 32
  metadataLength : BitVec 32
  encryptedDataLength : BitVec 32
  deriving DecidableEq

namespace FileHeader

def new (metadataLength encryptedDataLength : BitVec 32) : FileHeader where
  magic := Oxide.magic
  version := Oxide.version
  flags := currentKdf
  metadataLength
  encryptedDataLength

def kdfVersion (header : FileHeader) : BitVec 32 := header.flags &&& kdfVersionMask

/-- The fields one after the other fill the 21 bytes. -/
def toBytes (header : FileHeader) : List UInt8 :=
  header.magic.1 ++ u32ToLeBytes header.version ++ u32ToLeBytes header.flags ++
    u32ToLeBytes header.metadataLength ++ u32ToLeBytes header.encryptedDataLength

/-- `u32::from_le_bytes(data[start..stop].try_into()?)`. -/
def readU32 (data : List UInt8) (start stop : Nat) (failure : String) :
    Checked OxideFileError (BitVec 32) := do
  match ← slice data start stop with
  | [b0, b1, b2, b3] => pure (u32FromLeBytes b0 b1 b2 b3)
  | _ => throw (.invalidFormat failure.toList)

def fromBytes (data : List UInt8) : Checked OxideFileError FileHeader := do
  Checked.ensure (21 ≤ data.length) (.invalidFormat "Header too short".toList)
  let found ← slice data 0 5
  Checked.ensure (found = Oxide.magic.1) .invalidMagic
  let version ← readU32 data 5 9 "Failed to read version"
  Checked.ensure (version = Oxide.version) (.unsupportedVersion version)
  let flags ← readU32 data 9 13 "Failed to read flags"
  let metadataLength ← readU32 data 13 17 "Failed to read metadata length"
  let encryptedDataLength ← readU32 data 17 21 "Failed to read encrypted data length"
  pure { magic := Oxide.magic, version, flags, metadataLength, encryptedDataLength }

theorem readU32_of_slice {data : List UInt8} {start stop : Nat} {value : BitVec 32}
    (h : slice data start stop = some (u32ToLeBytes value)) (failure : String) :
    (readU32 data start stop failure).run = some (.ok value) := by
  unfold readU32
  rw [Checked.bind_of_ok (Checked.lift_of h)]
  exact congrArg (fun v => some (Except.ok v)) (u32FromLeBytes_toLeBytes value)

theorem total_readU32 {data : List UInt8} {start stop : Nat} (h : start ≤ stop)
    (hstop : stop ≤ data.length) (failure : String) : (readU32 data start stop failure).Total := by
  refine (Checked.total_lift (slice_of_le h hstop)).bind fun part _ => ?_
  split
  · exact Checked.total_ok _
  · exact Checked.total_error _

theorem fromBytes_toBytes (metadataLength encryptedDataLength : BitVec 32) :
    (fromBytes (new metadataLength encryptedDataLength).toBytes).run =
      some (.ok (new metadataLength encryptedDataLength)) := by
  let data := (new metadataLength encryptedDataLength).toBytes
  have hmagic : slice data 0 5 = some Oxide.magic.1 := rfl
  have hversion : slice data 5 9 = some (u32ToLeBytes Oxide.version) := rfl
  have hflags : slice data 9 13 = some (u32ToLeBytes currentKdf) := rfl
  have hmetadata : slice data 13 17 = some (u32ToLeBytes metadataLength) := rfl
  have hdata : slice data 17 21 = some (u32ToLeBytes encryptedDataLength) := rfl
  show (fromBytes data).run = _
  unfold fromBytes
  rw [Checked.bind_of_ok (Checked.ensure_of (show 21 ≤ data.length from le_rfl)),
    Checked.bind_of_ok (Checked.lift_of hmagic), Checked.bind_of_ok (Checked.ensure_of rfl),
    Checked.bind_of_ok (readU32_of_slice hversion _), Checked.bind_of_ok (Checked.ensure_of rfl),
    Checked.bind_of_ok (readU32_of_slice hflags _),
    Checked.bind_of_ok (readU32_of_slice hmetadata _),
    Checked.bind_of_ok (readU32_of_slice hdata _)]
  rfl

theorem fromBytes_total (data : List UInt8) : (fromBytes data).Total := by
  refine (Checked.total_ensure _ _).bind fun _ hlength => ?_
  have hlength := Checked.of_ensure hlength
  refine (Checked.total_lift (slice_of_le (Nat.zero_le 5) (by omega))).bind fun found _ => ?_
  refine (Checked.total_ensure _ _).bind fun _ _ => ?_
  refine (total_readU32 (by decide) (by omega) _).bind fun version _ => ?_
  refine (Checked.total_ensure _ _).bind fun _ _ => ?_
  refine (total_readU32 (by decide) (by omega) _).bind fun flags _ => ?_
  refine (total_readU32 (by decide) (by omega) _).bind fun metadataLength _ => ?_
  refine (total_readU32 (by decide) (by omega) _).bind fun encryptedDataLength _ => ?_
  exact Checked.total_ok _

end FileHeader

/-! ## 2. The file -/

/-- What is used of `serde_json` for the metadata. -/
structure MetadataCodec (μ : Type) where
  toVec : μ → Except OxideFileError (List UInt8)
  fromSlice : List UInt8 → Except OxideFileError μ

/-- What was written is read back. -/
def MetadataCodec.Inverts {μ : Type} (codec : MetadataCodec μ) : Prop :=
  ∀ metadata json, codec.toVec metadata = .ok json → codec.fromSlice json = .ok metadata

structure OxideFile (μ : Type) where
  metadata : μ
  salt : Block saltLen
  nonce : Block nonceLen
  encryptedData : List UInt8
  tag : Block tagLen
  kdfVersion : BitVec 32
  deriving DecidableEq

/-- `Cursor::read_exact` into `n` bytes: what is read, and what is left. -/
def readExact (rest : List UInt8) (n : Nat) (failure : String) :
    Checked OxideFileError (Block n × List UInt8) :=
  if h : n ≤ rest.length then pure (⟨rest.take n, List.length_take_of_le h⟩, rest.drop n)
  else throw (.invalidFormat failure.toList)

/-- `usize::saturating_add`. -/
def saturatingAdd (a b : Nat) : Nat := min (a + b) u64Max

/-- The length of a file, by its header. -/
def expectedLen (header : FileHeader) : Nat :=
  saturatingAdd (saturatingAdd (saturatingAdd (saturatingAdd (saturatingAdd 21 saltLen) nonceLen)
    header.metadataLength.toNat) header.encryptedDataLength.toNat) tagLen

namespace OxideFile

variable {μ : Type} (codec : MetadataCodec μ)

def toBytes (file : OxideFile μ) : Except OxideFileError (List UInt8) := do
  let metadataJson ← codec.toVec file.metadata
  let header := FileHeader.new (.ofNat 32 metadataJson.length) (.ofNat 32 file.encryptedData.length)
  pure (header.toBytes ++ file.salt.1 ++ file.nonce.1 ++ metadataJson ++ file.encryptedData ++
    file.tag.1)

def fromBytes (data : List UInt8) : Checked OxideFileError (OxideFile μ) := do
  let (headerBytes, rest) ← readExact data 21 "Failed to read header"
  let header ← FileHeader.fromBytes headerBytes.1
  Checked.ensure (expectedLen header ≤ data.length)
    (.invalidFormat "File is shorter than header lengths".toList)
  let (salt, rest) ← readExact rest saltLen "Failed to read salt"
  let (nonce, rest) ← readExact rest nonceLen "Failed to read nonce"
  let (metadataBytes, rest) ←
    readExact rest header.metadataLength.toNat "Failed to read metadata"
  let metadata ← liftM (codec.fromSlice metadataBytes.1)
  let (encryptedData, rest) ←
    readExact rest header.encryptedDataLength.toNat "Failed to read encrypted data"
  let (tag, _) ← readExact rest tagLen "Failed to read tag"
  pure { metadata, salt, nonce, encryptedData := encryptedData.1, tag,
         kdfVersion := header.kdfVersion }

end OxideFile

/-! ## 3. Reading stops nowhere -/

theorem readExact_append {part rest : List UInt8} {n : Nat} (h : part.length = n)
    (failure : String) : (readExact (part ++ rest) n failure).run = some (.ok (⟨part, h⟩, rest)) := by
  subst h
  have hle : part.length ≤ (part ++ rest).length := by
    rw [List.length_append]
    exact Nat.le_add_right _ _
  unfold readExact
  rw [dif_pos hle]
  simp only [List.take_left, List.drop_left]
  rfl

theorem total_readExact (rest : List UInt8) (n : Nat) (failure : String) :
    (readExact rest n failure).Total := by
  unfold readExact
  split
  · exact Checked.total_ok _
  · exact Checked.total_error _

theorem total_except {α ε : Type} (result : Except ε α) : (liftM result : Checked ε α).Total :=
  ⟨result, rfl⟩

/-- Every byte string is read to a result or an error, and from no byte outside of it. -/
theorem fromBytes_total {μ : Type} (codec : MetadataCodec μ) (data : List UInt8) :
    (OxideFile.fromBytes codec data).Total := by
  refine (total_readExact _ _ _).bind fun _ _ => ?_
  refine (FileHeader.fromBytes_total _).bind fun header _ => ?_
  refine (Checked.total_ensure _ _).bind fun _ _ => ?_
  refine (total_readExact _ _ _).bind fun _ _ => ?_
  refine (total_readExact _ _ _).bind fun _ _ => ?_
  refine (total_readExact _ _ _).bind fun _ _ => ?_
  refine (total_except _).bind fun metadata _ => ?_
  refine (total_readExact _ _ _).bind fun _ _ => ?_
  refine (total_readExact _ _ _).bind fun _ _ => ?_
  exact Checked.total_ok _

/-! ## 4. What is read back -/

theorem expectedLen_eq (header : FileHeader) : expectedLen header =
    81 + header.metadataLength.toNat + header.encryptedDataLength.toNat := by
  have hmetadata := header.metadataLength.isLt
  have hdata := header.encryptedDataLength.isLt
  simp only [expectedLen, saturatingAdd, saltLen, nonceLen, tagLen, u64Max]
  omega

theorem kdfVersion_new (metadataLength encryptedDataLength : BitVec 32) :
    (FileHeader.new metadataLength encryptedDataLength).kdfVersion = kdfV1 := by
  show currentKdf &&& kdfVersionMask = kdfV1
  decide

/-- A file that was written is read back with the current version of the key derivation. -/
theorem fromBytes_toBytes {μ : Type} {codec : MetadataCodec μ} (hcodec : codec.Inverts)
    {file : OxideFile μ} {json : List UInt8} (hjson : codec.toVec file.metadata = .ok json)
    (hmetadata : json.length < 2 ^ 32) (hdata : file.encryptedData.length < 2 ^ 32) :
    ∃ bytes, file.toBytes codec = .ok bytes ∧
      (OxideFile.fromBytes codec bytes).run = some (.ok { file with kdfVersion := kdfV1 }) := by
  let header := FileHeader.new (.ofNat 32 json.length) (.ofNat 32 file.encryptedData.length)
  have hmetadataLength : json.length = header.metadataLength.toNat :=
    (BitVec.toNat_ofNat _ _).symm ▸ (Nat.mod_eq_of_lt hmetadata).symm
  have hdataLength : file.encryptedData.length = header.encryptedDataLength.toNat :=
    (BitVec.toNat_ofNat _ _).symm ▸ (Nat.mod_eq_of_lt hdata).symm
  refine ⟨header.toBytes ++ (file.salt.1 ++ (file.nonce.1 ++ (json ++ (file.encryptedData ++
    (file.tag.1 ++ []))))), ?_, ?_⟩
  · unfold OxideFile.toBytes
    rw [hjson]
    simp only [List.append_assoc, List.append_nil]
    rfl
  · have hlong : expectedLen header ≤ (header.toBytes ++ (file.salt.1 ++ (file.nonce.1 ++ (json ++
        (file.encryptedData ++ (file.tag.1 ++ [])))))).length := by
      have hheader : header.toBytes.length = 21 := rfl
      have hsalt : file.salt.1.length = 32 := file.salt.2
      have hnonce : file.nonce.1.length = 12 := file.nonce.2
      have htag : file.tag.1.length = 16 := file.tag.2
      rw [expectedLen_eq]
      simp only [List.length_append, List.length_nil]
      omega
    unfold OxideFile.fromBytes
    rw [Checked.bind_of_ok (readExact_append (show header.toBytes.length = 21 from rfl) _)]
    dsimp only
    rw [Checked.bind_of_ok (FileHeader.fromBytes_toBytes _ _),
      Checked.bind_of_ok (Checked.ensure_of hlong),
      Checked.bind_of_ok (readExact_append file.salt.2 _)]
    dsimp only
    rw [Checked.bind_of_ok (readExact_append file.nonce.2 _)]
    dsimp only
    rw [Checked.bind_of_ok (readExact_append hmetadataLength _)]
    dsimp only
    rw [hcodec file.metadata json hjson,
      Checked.bind_of_ok (show (liftM (Except.ok file.metadata) : Checked OxideFileError μ).run =
        some (.ok file.metadata) from rfl),
      Checked.bind_of_ok (readExact_append hdataLength _)]
    dsimp only
    rw [Checked.bind_of_ok (readExact_append file.tag.2 _)]
    dsimp only
    rw [kdfVersion_new]
    rfl

/-! ## 5. Decrypting -/

structure KdfParams where
  memoryCost : Nat
  iterations : Nat
  parallelism : Nat
  deriving DecidableEq

def KdfParams.forVersion (version : BitVec 32) : Except OxideFileError KdfParams :=
  if version = kdfV1 ∨ version = 0 then
    .ok { memoryCost := 262144, iterations := 4, parallelism := 4 }
  else if version = kdfV2 then .ok { memoryCost := 524288, iterations := 6, parallelism := 4 }
  else .error (.unsupportedKdfVersion version)

/-- What is used of `argon2`, `chacha20poly1305`, `rmp_serde` and `verify_checksum`, for a payload
    of any type. -/
structure Crypto (π : Type) where
  hashPassword : KdfParams → Str → List UInt8 → Option (Block 32)
  decrypt : Block 32 → List UInt8 → List UInt8 → Option (List UInt8)
  fromSlice : List UInt8 → Except Str π
  verifyChecksum : π → Except OxideFileError Unit

variable {μ π : Type}

def deriveKey (crypto : Crypto π) (password : Str) (salt : List UInt8) (kdfVersion : BitVec 32) :
    Except OxideFileError (Block 32) := do
  let kdf ← KdfParams.forVersion kdfVersion
  match crypto.hashPassword kdf password salt with
  | some key => pure key
  | none => throw .cryptoError

def decryptOxideFile (crypto : Crypto π) (file : OxideFile μ) (password : Str) :
    Except OxideFileError π := do
  let key ← deriveKey crypto password file.salt.1 file.kdfVersion
  match crypto.decrypt key file.nonce.1 (file.encryptedData ++ file.tag.1) with
  | none => throw .decryptionFailed
  | some plaintext =>
    match crypto.fromSlice plaintext with
    | .error text => throw (.msgPack text)
    | .ok payload =>
      crypto.verifyChecksum payload
      pure payload

/-- The file comes back in every field, and gives the same with every password. -/
def RoundTrips (codec : MetadataCodec μ) (crypto : Crypto π) (file : OxideFile μ) : Prop :=
  ∃ bytes copy, file.toBytes codec = .ok bytes ∧
    (OxideFile.fromBytes codec bytes).run = some (.ok copy) ∧ copy = file ∧
      ∀ password, decryptOxideFile crypto copy password = decryptOxideFile crypto file password

/-- **Reading stops at no byte string, and a file of a version that keys can be derived for comes back
    as it was just if that is the current version.** -/
theorem container_round_trips_iff {codec : MetadataCodec μ} (hcodec : codec.Inverts)
    (crypto : Crypto π) :
    (∀ data, (OxideFile.fromBytes codec data).Total) ∧
      ∀ (file : OxideFile μ) (json : List UInt8), codec.toVec file.metadata = .ok json →
        (∃ params, KdfParams.forVersion file.kdfVersion = .ok params) → json.length < 2 ^ 32 →
        file.encryptedData.length < 2 ^ 32 →
        (RoundTrips codec crypto file ↔ file.kdfVersion = kdfV1) := by
  refine ⟨fromBytes_total codec, fun file json hjson _ hmetadata hdata => ?_⟩
  obtain ⟨bytes, hbytes, hread⟩ := fromBytes_toBytes hcodec hjson hmetadata hdata
  constructor
  · rintro ⟨bytes', copy, hbytes', hread', rfl, -⟩
    obtain rfl : bytes = bytes' := Except.ok.inj (hbytes.symm.trans hbytes')
    have hcopy := Except.ok.inj (Option.some.inj (hread.symm.trans hread'))
    exact (congrArg OxideFile.kdfVersion hcopy).symm
  · intro hversion
    refine ⟨bytes, { file with kdfVersion := kdfV1 }, hbytes, hread, ?_, fun password => ?_⟩
    · rw [← hversion]
    · rw [← hversion]

/-! ## 6. A file of the second version -/

/-- Metadata without content. -/
def unitCodec : MetadataCodec Unit where
  toVec _ := .ok [0x7b, 0x7d]
  fromSlice _ := .ok ()

/-- A cipher that lets everything pass that comes with the key of 524288 and 6 rounds. -/
def secondOnly : Crypto Unit where
  hashPassword params _ _ := some ⟨List.replicate 32 (UInt8.ofNat params.iterations), rfl⟩
  decrypt key _ _ := if key.1.head? = some 6 then some [] else none
  fromSlice _ := .ok ()
  verifyChecksum _ := .ok ()

/-- An empty file of some version. -/
def emptyFile (kdfVersion : BitVec 32) : OxideFile Unit where
  metadata := ()
  salt := ⟨List.replicate saltLen 0, rfl⟩
  nonce := ⟨List.replicate nonceLen 0, rfl⟩
  encryptedData := []
  tag := ⟨List.replicate tagLen 0, rfl⟩
  kdfVersion

theorem unitCodec_inverts : unitCodec.Inverts := fun _ _ _ => rfl

theorem container_round_trips_current : RoundTrips unitCodec secondOnly (emptyFile kdfV1) :=
  ((container_round_trips_iff unitCodec_inverts secondOnly).2 (emptyFile kdfV1) [0x7b, 0x7d] rfl
    ⟨_, rfl⟩ (by decide) (by decide)).mpr rfl

/-- **The version is forgotten**: a file of the second version is written without it, and what is read
    back can no longer be decrypted. -/
theorem second_kdf_is_forgotten :
    decryptOxideFile secondOnly (emptyFile kdfV2) "secret".toList = .ok () ∧
      (∃ bytes, (emptyFile kdfV2).toBytes unitCodec = .ok bytes ∧
        (OxideFile.fromBytes unitCodec bytes).run = some (.ok (emptyFile kdfV1))) ∧
      decryptOxideFile secondOnly (emptyFile kdfV1) "secret".toList = .error .decryptionFailed ∧
      ¬ RoundTrips unitCodec secondOnly (emptyFile kdfV2) := by
  have hwritten : ∃ bytes, (emptyFile kdfV2).toBytes unitCodec = .ok bytes ∧
      (OxideFile.fromBytes unitCodec bytes).run = some (.ok (emptyFile kdfV1)) :=
    fromBytes_toBytes unitCodec_inverts rfl (by decide) (by decide)
  obtain ⟨bytes, hbytes, hread⟩ := hwritten
  refine ⟨rfl, ⟨bytes, hbytes, hread⟩, rfl, ?_⟩
  rintro ⟨bytes', copy, hbytes', hread', rfl, -⟩
  obtain rfl : bytes = bytes' := Except.ok.inj (hbytes.symm.trans hbytes')
  have hcopy := Except.ok.inj (Option.some.inj (hread.symm.trans hread'))
  exact absurd (congrArg OxideFile.kdfVersion hcopy) (by decide)

/-! ## 7. The checksum -/

/-- `EncryptedPayload`; its records are of any types. -/
structure EncryptedPayload (κ σ τ : Type) where
  version : BitVec 32
  connections : List κ
  appSettingsJson : Option Str := none
  quickCommandsJson : Option Str := none
  serialProfilesJson : Option Str := none
  remoteDesktopProfilesJson : Option Str := none
  pluginSettings : List σ := []
  portableSecrets : List τ := []
  checksum : Str := []

/-- `rmp_serde::to_vec_named` for the records. -/
structure RecordCodec (κ σ τ : Type) where
  connection : κ → Except OxideFileError (List UInt8)
  pluginSetting : σ → Except OxideFileError (List UInt8)
  portableSecret : τ → Except OxideFileError (List UInt8)

/-- `(len as u64).to_le_bytes()`. -/
def lenBytes (n : Nat) : List UInt8 :=
  u32ToLeBytes (.ofNat 32 n) ++ u32ToLeBytes (.ofNat 32 (n / 2 ^ 32))

section Checksum

variable {κ σ τ : Type} (codec : RecordCodec κ σ τ) (payload : EncryptedPayload κ σ τ)

def encodeEach {α : Type} (encode : α → Except OxideFileError (List UInt8)) (records : List α) :
    Except OxideFileError (List UInt8) :=
  return (← records.mapM encode).flatten

/-- What `compute_checksum`, and `compute_legacy_checksum`, give to SHA-256. -/
def checksumInput : Except OxideFileError (List UInt8) :=
  if payload.version ≤ 1 ∧ payload.appSettingsJson.isNone ∧ payload.pluginSettings = [] ∧
      payload.portableSecrets = [] then encodeEach codec.connection payload.connections
  else do
    let connections ← encodeEach codec.connection payload.connections
    let appSettings := match payload.appSettingsJson with
      | some json => 1 :: asBytes json
      | none => [0]
    let pluginSettings ← encodeEach codec.pluginSetting payload.pluginSettings
    let portableSecrets ← encodeEach codec.portableSecret payload.portableSecrets
    return u32ToLeBytes payload.version ++ lenBytes payload.connections.length ++ connections ++
      appSettings ++ lenBytes payload.pluginSettings.length ++ pluginSettings ++
      lenBytes payload.portableSecrets.length ++ portableSecrets

/-- `compute_checksum`, with `sha256:` and the hexadecimal digits of the hash. -/
def computeChecksum (hexSha256 : List UInt8 → Str) : Except OxideFileError Str :=
  return "sha256:".toList ++ hexSha256 (← checksumInput codec payload)

def verifyChecksum (hexSha256 : List UInt8 → Str) : Except OxideFileError Unit := do
  if (← computeChecksum codec payload hexSha256) = payload.checksum then pure ()
  else throw .checksumMismatch

/-- The checksum tells the payload from every other of its version. -/
def Covered : Prop :=
  ∀ other, other.version = payload.version →
    checksumInput codec other = checksumInput codec payload →
      { other with checksum := payload.checksum } = payload

/-- **No payload is covered by its checksum**: with other quick commands, serial profiles or
    remote-desktop profiles it has the same, and verifies as before. -/
theorem no_payload_covered :
    (∀ (hexSha256 : List UInt8 → Str) (quickCommandsJson serialProfilesJson
        remoteDesktopProfilesJson : Option Str),
      verifyChecksum codec { payload with
        quickCommandsJson, serialProfilesJson, remoteDesktopProfilesJson } hexSha256 =
      verifyChecksum codec payload hexSha256) ∧ ¬Covered codec payload := by
  refine ⟨fun _ _ _ _ => rfl, fun h => ?_⟩
  have hlonger := h { payload with
    quickCommandsJson := some (' ' :: payload.quickCommandsJson.getD []) } rfl rfl
  have hquick := congrArg EncryptedPayload.quickCommandsJson hlonger
  cases hjson : payload.quickCommandsJson with
  | none => rw [hjson] at hquick; cases hquick
  | some json =>
    rw [hjson] at hquick
    exact List.cons_ne_self _ _ (Option.some.inj hquick)

end Checksum

/-- A payload of a connection gets other quick commands. -/
theorem quick_commands_unchecked :
    let codec : RecordCodec Unit Empty Empty := ⟨fun _ => .ok [0x80], nofun, nofun⟩
    checksumInput codec { version := 2, connections := [()], quickCommandsJson := some ['1'] } =
        checksumInput codec { version := 2, connections := [()], quickCommandsJson := some ['2'] } ∧
      ¬Covered codec { version := 2, connections := [()], quickCommandsJson := some ['1'] } := by
  refine ⟨rfl, fun h => ?_⟩
  have hother := h { version := 2, connections := [()], quickCommandsJson := some ['2'] } rfl rfl
  exact absurd (congrArg EncryptedPayload.quickCommandsJson hother) (by decide)

end Hapcli.Connections.Oxide

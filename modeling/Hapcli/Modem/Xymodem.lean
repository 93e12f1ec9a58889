/-
  Subject:   XMODEM/YMODEM blocks and the YMODEM file header (`xymodem.rs`).

  * `BlockWire useCrc block w` -- `w` is the block on the wire, check bytes included;
    `parseBlock_ok_iff` -- **a parser accepts exactly that**.
-/
import Hapcli.Modem.Zmodem

namespace Hapcli.Modem

open Hapcli.Rust

/-! ## 1. Blocks -/

def soh : UInt8 := 0x01
def stx : UInt8 := 0x02
def eot : UInt8 := 0x04
def ack : UInt8 := 0x06
def nak : UInt8 := 0x15
def can : UInt8 := 0x18
def wantCrc : UInt8 := 0x43
def cpmeof : UInt8 := 0x1a

inductive XyBlockSize where
  | bytes128
  | bytes1024
  deriving DecidableEq

namespace XyBlockSize

def len : XyBlockSize → Nat
  | bytes128 => 128
  | bytes1024 => 1024

def marker : XyBlockSize → UInt8
  | bytes128 => soh
  | bytes1024 => stx

def fromMarker (marker : UInt8) : Option XyBlockSize :=
  if marker = soh then some bytes128 else if marker = stx then some bytes1024 else none

theorem fromMarker_eq_some {m : UInt8} {size : XyBlockSize} :
    fromMarker m = some size ↔ m = size.marker := by
  cases size <;> simp only [fromMarker, marker] <;> split_ifs <;> simp_all [soh, stx]

@[simp] theorem fromMarker_marker (size : XyBlockSize) : fromMarker size.marker = some size :=
  (fromMarker_eq_some).mpr rfl

theorem len_pos (size : XyBlockSize) : 0 < size.len := by
  cases size <;> decide

end XyBlockSize

structure XyBlock where
  number : UInt8
  size : XyBlockSize
  payload : List UInt8
  deriving DecidableEq

/-- The sum of the bytes, modulo 256. -/
def checksum (payload : List UInt8) : UInt8 := payload.foldl (· + ·) 0

/-- The check bytes behind a payload. -/
def blockCheck (useCrc : Bool) (payload : List UInt8) : List UInt8 :=
  if useCrc then [crcHigh (crc16Xmodem payload), crcLow (crc16Xmodem payload)]
  else [checksum payload]

/-- How many there are. -/
def checkLen (useCrc : Bool) : Nat := if useCrc then 2 else 1

@[simp] theorem length_blockCheck (useCrc : Bool) (payload : List UInt8) :
    (blockCheck useCrc payload).length = checkLen useCrc := by
  cases useCrc <;> rfl

namespace XyBlock

/-- `XyBlock::new`: the payload, padded to the block size. -/
def new (number : UInt8) (size : XyBlockSize) (payload : List UInt8) : Except ModemError XyBlock :=
  if payload.length > size.len then .error .invalidLength
  else .ok ⟨number, size, payload ++ List.replicate (size.len - payload.length) cpmeof⟩

/-- The block with the given check bytes behind it. -/
def encodeWith (check : List UInt8) (block : XyBlock) : List UInt8 :=
  [block.size.marker, block.number, ~~~ block.number] ++ block.payload ++ check

def encodeCrc (block : XyBlock) : List UInt8 := block.encodeWith (blockCheck true block.payload)

def encodeChecksum (block : XyBlock) : List UInt8 := block.encodeWith (blockCheck false block.payload)

/-- What `parse_crc` and `parse_checksum` share; the check and its error are the parameters. -/
def parseWith (checks : Nat) (valid : List UInt8 → List UInt8 → Bool) (bad : ModemError) :
    List UInt8 → Except ModemError XyBlock
  | marker :: number :: complement :: rest =>
    match XyBlockSize.fromMarker marker with
    | none => .error .invalidMarker
    | some size =>
      if rest.length < size.len + checks then .error .incomplete
      else if rest.length ≠ size.len + checks then .error .invalidLength
      else if number + complement ≠ 0xff then .error .invalidBlockNumber
      else if ¬ valid (rest.take size.len) (rest.drop size.len) then .error bad
      else .ok ⟨number, size, rest.take size.len⟩
  | _ => .error .incomplete

def parseCrc : List UInt8 → Except ModemError XyBlock :=
  parseWith 2 (fun payload check =>
    crc16Xmodem payload == u16FromBeBytes (check.getD 0 0) (check.getD 1 0)) .invalidCrc

def parseChecksum : List UInt8 → Except ModemError XyBlock :=
  parseWith 1 (fun payload check => checksum payload == check.getD 0 0) .invalidChecksum

/-- The encoder of a check mode. -/
def encode (useCrc : Bool) (block : XyBlock) : List UInt8 :=
  if useCrc then block.encodeCrc else block.encodeChecksum

/-- The parser of a check mode. -/
def parse (useCrc : Bool) (bytes : List UInt8) : Except ModemError XyBlock :=
  if useCrc then parseCrc bytes else parseChecksum bytes

end XyBlock

/-- **`w` is the block on the wire**: marker, number and its complement, a payload of the marker's
    size, the payload's check bytes. -/
structure BlockWire (useCrc : Bool) (block : XyBlock) (w : List UInt8) : Prop where
  size : block.payload.length = block.size.len
  wire : w = block.encodeWith (blockCheck useCrc block.payload)

theorem number_add_complement (number complement : UInt8) :
    number + complement = 0xff ↔ complement = ~~~ number := by
  have h1 := number.toNat_lt
  have h2 := complement.toNat_lt
  have h3 : (~~~ number).toNat = 255 - number.toNat := by simp
  rw [← UInt8.toNat_inj, ← UInt8.toNat_inj, UInt8.toNat_add, h3]
  have h4 : (0xff : UInt8).toNat = 255 := rfl
  omega

theorem parseWith_ok_iff {checks : Nat} (valid : List UInt8 → List UInt8 → Bool) {bad : ModemError}
    (expected : List UInt8 → List UInt8) (hlen : ∀ payload, (expected payload).length = checks)
    (hvalid : ∀ payload check, check.length = checks →
      (valid payload check = true ↔ check = expected payload))
    {bytes : List UInt8} {block : XyBlock} :
    XyBlock.parseWith checks valid bad bytes = .ok block ↔
      block.payload.length = block.size.len ∧
        bytes = block.encodeWith (expected block.payload) := by
  constructor
  · intro h
    match bytes with
    | [] | [_] | [_, _] => cases h
    | marker :: number :: complement :: rest =>
      unfold XyBlock.parseWith at h
      dsimp only at h
      split at h
      · cases h
      · rename_i size hsize
        split_ifs at h with h1 h2 h3 h4
        cases h
        have hl : rest.length = size.len + checks := not_not.mp h2
        have hc : (rest.drop size.len).length = checks := by
          rw [List.length_drop]
          omega
        rw [XyBlockSize.fromMarker_eq_some] at hsize
        refine ⟨?_, ?_⟩
        · change (rest.take size.len).length = size.len
          rw [List.length_take]
          omega
        · have he := (hvalid _ _ hc).mp h4
          simp only [XyBlock.encodeWith, ← he, hsize]
          rw [(number_add_complement _ _).mp (not_not.mp h3)]
          simp
  · rintro ⟨hsize, rfl⟩
    obtain ⟨number, size, payload⟩ := block
    have hsize : payload.length = size.len := hsize
    have htake : (payload ++ expected payload).take size.len = payload := by
      rw [← hsize, List.take_left]
    have hdrop : (payload ++ expected payload).drop size.len = expected payload := by
      rw [← hsize, List.drop_left]
    have hl : (payload ++ expected payload).length = size.len + checks := by
      rw [List.length_append, hlen, hsize]
    simp only [XyBlock.encodeWith, List.cons_append, List.nil_append, XyBlock.parseWith,
      XyBlockSize.fromMarker_marker, htake, hdrop, hl, Nat.lt_irrefl, if_false, ne_eq, not_true,
      (number_add_complement number _).mpr rfl, (hvalid payload _ (hlen payload)).mpr rfl]

variable {bytes payload : List UInt8}

theorem checksum_valid_iff {check : List UInt8} (h : check.length = 1) :
    (checksum payload == check.getD 0 0) = true ↔ check = blockCheck false payload := by
  obtain ⟨c, rfl⟩ := List.length_eq_one_iff.mp h
  simp only [List.getD_cons_zero, beq_iff_eq, blockCheck, Bool.false_eq_true, if_false]
  rw [List.cons_eq_cons, and_iff_left rfl, eq_comm]

theorem crc_valid_iff {check : List UInt8} (h : check.length = 2) :
    (crc16Xmodem payload == u16FromBeBytes (check.getD 0 0) (check.getD 1 0)) = true ↔
      check = blockCheck true payload := by
  obtain ⟨c, d, rfl⟩ : ∃ c d, check = [c, d] := ⟨_, _, List.eq_getElem_of_length_eq_two check h⟩
  simp only [List.getD_cons_zero, List.getD_cons_succ, beq_iff_eq, blockCheck, if_true]
  rw [eq_comm, u16FromBeBytes_eq_iff]
  simp

theorem parseBlock_ok_iff {useCrc : Bool} {block : XyBlock} :
    XyBlock.parse useCrc bytes = .ok block ↔ BlockWire useCrc block bytes := by
  have key : XyBlock.parse useCrc bytes = .ok block ↔ block.payload.length = block.size.len ∧
      bytes = block.encodeWith (blockCheck useCrc block.payload) := by
    cases useCrc with
    | false => exact parseWith_ok_iff _ (blockCheck false) (fun _ => rfl) fun _ _ => checksum_valid_iff
    | true => exact parseWith_ok_iff _ (blockCheck true) (fun _ => rfl) fun _ _ => crc_valid_iff
  exact key.trans ⟨fun h => ⟨h.1, h.2⟩, fun h => ⟨h.size, h.wire⟩⟩

theorem encode_eq (useCrc : Bool) (block : XyBlock) :
    block.encode useCrc = block.encodeWith (blockCheck useCrc block.payload) := by
  cases useCrc <;> rfl

theorem new_full {number : UInt8} {size : XyBlockSize} (h : payload.length = size.len) :
    XyBlock.new number size payload = .ok ⟨number, size, payload⟩ := by
  simp [XyBlock.new, h]

/-! ## 2. The YMODEM file header -/

structure YmodemFileHeader where
  fileName : Str
  fileSize : Option Nat
  deriving DecidableEq

def validateYmodemFileName (fileName : Str) : Except ModemError Unit :=
  let isPlainName := pathFileName fileName == some fileName
  if fileName = [] ∨ fileName = ['.'] ∨ fileName = ['.', '.'] ∨
      fileName.any (fun c => c == '/' || c == '\\') ∨ isAbsolutePath fileName ∨ ¬ isPlainName
  then .error .invalidFileName
  else .ok ()

namespace YmodemFileHeader

def new (fileName : Str) (fileSize : Option Nat) : Except ModemError YmodemFileHeader := do
  validateYmodemFileName fileName
  return ⟨fileName, fileSize⟩

/-- The zeros that fill block 0 behind `bytes`. -/
def padBlock0 (bytes : List UInt8) : List UInt8 :=
  bytes ++ List.replicate (XyBlockSize.bytes128.len - bytes.length) 0

/-- `encode_block0_payload`: the name, a zero, the size in decimal, zeros. -/
def encodeBlock0Payload (header : YmodemFileHeader) : Except ModemError (List UInt8) :=
  let nameBytes := asBytes header.fileName
  if nameBytes = [] ∨ nameBytes.length ≥ XyBlockSize.bytes128.len then .error .invalidFileName
  else match header.fileSize with
    | none => .ok (padBlock0 nameBytes)
    | some fileSize =>
      let sizeText := asBytes (numToString fileSize)
      if nameBytes.length + 1 + sizeText.length ≥ XyBlockSize.bytes128.len then
        .error .invalidLength
      else .ok (padBlock0 (nameBytes ++ [0] ++ sizeText))

/-- The size behind the name: the bytes up to a blank or a zero, if there are any. -/
def parseBlock0Size (metadata : List UInt8) : Except ModemError (Option Nat) :=
  let sizeEnd := (metadata.findIdx? fun byte => byte == 0x20 || byte == 0).getD metadata.length
  if sizeEnd = 0 then .ok none
  else match parseU64 (fromUtf8Lossy (metadata.take sizeEnd)) with
    | some fileSize => .ok (some fileSize)
    | none => .error .invalidLength

def parseBlock0Payload (payload : List UInt8) : Except ModemError (Option YmodemFileHeader) :=
  match payload.findIdx? (· == 0) with
  | none => .error .invalidLength
  | some nul =>
    if nul = 0 then .ok none
    else do
      let fileName := fromUtf8Lossy (payload.take nul)
      validateYmodemFileName fileName
      let fileSize ← parseBlock0Size (payload.drop (nul + 1))
      return some ⟨fileName, fileSize⟩

end YmodemFileHeader

theorem length_padBlock0 (h : bytes.length ≤ XyBlockSize.bytes128.len) :
    (YmodemFileHeader.padBlock0 bytes).length = XyBlockSize.bytes128.len := by
  rw [YmodemFileHeader.padBlock0, List.length_append, List.length_replicate]
  omega

theorem validateYmodemFileName_ok_iff {name : Str} :
    validateYmodemFileName name = .ok () ↔
      name ≠ [] ∧ name ≠ ['.'] ∧ name ≠ ['.', '.'] ∧ '/' ∉ name ∧ '\\' ∉ name := by
  have hany : name.any (fun c => c == '/' || c == '\\') = true ↔ '/' ∈ name ∨ '\\' ∈ name := by
    simp only [List.any_eq_true, Bool.or_eq_true, beq_iff_eq]
    constructor
    · rintro ⟨c, hc, rfl | rfl⟩
      · exact .inl hc
      · exact .inr hc
    · rintro (h | h)
      · exact ⟨_, h, .inl rfl⟩
      · exact ⟨_, h, .inr rfl⟩
  unfold validateYmodemFileName
  dsimp only
  constructor
  · intro h
    split at h
    · cases h
    · rename_i hc
      simp only [not_or, hany] at hc
      exact ⟨hc.1, hc.2.1, hc.2.2.1, hc.2.2.2.1.1, hc.2.2.2.1.2⟩
  · rintro ⟨h1, h2, h3, h4, h5⟩
    have habs : isAbsolutePath name = false := by
      cases name with
      | nil => rfl
      | cons c name =>
        rw [isAbsolutePath, List.head?_cons, beq_eq_false_iff_ne]
        rintro hc
        exact h4 (Option.some.inj hc ▸ List.mem_cons_self)
    have hplain : pathFileName name = some name := pathFileName_plain h4 h1 h2 h3
    rw [if_neg]
    simp [h1, h2, h3, hany, h4, h5, habs, hplain]

theorem parseBlock0Size_text {size : Nat} (h : size ≤ u64Max) (zeros : Nat) :
    YmodemFileHeader.parseBlock0Size
      (asBytes (numToString size) ++ List.replicate (zeros + 1) 0) = .ok (some size) := by
  have hbyte : ∀ b ∈ asBytes (numToString size), (b == 0x20 || b == 0) = false := by
    intro b hb
    by_contra hc
    have hb' : b.toNat = 0x20 ∨ b.toNat = 0 := by
      rcases Bool.or_eq_true_iff.mp (Bool.not_eq_false _ ▸ hc) with h | h
      · exact .inl (congrArg UInt8.toNat (beq_iff_eq.mp h))
      · exact .inr (congrArg UInt8.toNat (beq_iff_eq.mp h))
    obtain ⟨c, hcm, hct⟩ := mem_asBytes_ascii (by omega) hb
    have := (isDigit_toNat (isDigit_of_mem_numToString hcm)).1
    omega
  have hidx : (asBytes (numToString size) ++ List.replicate (zeros + 1) (0 : UInt8)).findIdx?
      (fun byte => byte == 0x20 || byte == 0) = some (asBytes (numToString size)).length := by
    rw [List.replicate_succ]
    exact findIdx?_first hbyte rfl
  have hlen : (asBytes (numToString size)).length ≠ 0 := by
    simpa using asBytes_ne_nil (numToString_ne_nil size)
  simp only [YmodemFileHeader.parseBlock0Size, hidx, Option.getD_some, hlen, if_false,
    List.take_left, fromUtf8Lossy_asBytes, parseU64, parseUnsigned_numToString h]

theorem parseBlock0Payload_encode {name : Str} {size : Nat}
    (hname : validateYmodemFileName name = .ok ()) (hnul : '\x00' ∉ name) (hsize : size ≤ u64Max)
    (henc : YmodemFileHeader.encodeBlock0Payload ⟨name, some size⟩ = .ok payload) :
    payload.length = XyBlockSize.bytes128.len ∧
      YmodemFileHeader.parseBlock0Payload payload = .ok (some ⟨name, some size⟩) := by
  unfold YmodemFileHeader.encodeBlock0Payload at henc
  dsimp only at henc
  split_ifs at henc with h1 h2
  cases henc
  obtain ⟨hne, -⟩ := not_or.mp h1
  have hlen : (asBytes name).length ≠ 0 := by simpa using hne
  have htotal : (asBytes name ++ [0] ++ asBytes (numToString size)).length =
      (asBytes name).length + 1 + (asBytes (numToString size)).length := by
    simp only [List.length_append, List.length_singleton]
  obtain ⟨zeros, hz⟩ : ∃ zeros, XyBlockSize.bytes128.len -
      (asBytes name ++ [0] ++ asBytes (numToString size)).length = zeros + 1 :=
    ⟨_, (Nat.succ_pred_eq_of_pos (by omega)).symm⟩
  refine ⟨length_padBlock0 (by omega), ?_⟩
  have hpad : YmodemFileHeader.padBlock0 (asBytes name ++ [0] ++ asBytes (numToString size)) =
      asBytes name ++ 0 :: (asBytes (numToString size) ++ List.replicate (zeros + 1) 0) := by
    rw [YmodemFileHeader.padBlock0, hz]
    simp
  have hidx : (asBytes name ++ (0 : UInt8) ::
      (asBytes (numToString size) ++ List.replicate (zeros + 1) 0)).findIdx? (· == 0) =
        some (asBytes name).length := by
    refine findIdx?_first (fun b hb => ?_) rfl
    rw [beq_eq_false_iff_ne]
    rintro rfl
    exact zero_not_mem_asBytes hnul hb
  rw [hpad]
  simp only [YmodemFileHeader.parseBlock0Payload, hidx, hlen, if_false, List.take_left,
    fromUtf8Lossy_asBytes, hname, List.drop_append]
  rw [show (asBytes name).length + 1 - (asBytes name).length = 1 by omega, List.drop_one,
    List.tail_cons, List.drop_of_length_le (by omega), List.nil_append, parseBlock0Size_text hsize]
  rfl

end Hapcli.Modem

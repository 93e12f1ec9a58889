/-
  Subject:   THE XMODEM/YMODEM CODEC, both ways: blocks in either size and check mode, and block 0.

  * **`xymodemCodec_iff`** -- both block sizes, both checks, and block 0;
  * **`damaged_refused`** -- what a CRC notices.
-/
import Hapcli.Modem.Xymodem

namespace Hapcli.Modem

open Hapcli.Rust YmodemFileHeader

/-! ## 1. Blocks -/

section Blocks

variable {size : XyBlockSize} {number complement : UInt8} {payload check : List UInt8}

theorem parseWith_packet {checks : Nat} {valid : List UInt8 → List UInt8 → Bool} {bad : ModemError}
    (hsize : payload.length = size.len) (hcheck : check.length = checks) :
    XyBlock.parseWith checks valid bad ([size.marker, number, complement] ++ payload ++ check) =
      if complement ≠ ~~~ number then .error .invalidBlockNumber
      else if valid payload check then .ok ⟨number, size, payload⟩ else .error bad := by
  have htake : (payload ++ check).take size.len = payload := by rw [← hsize, List.take_left]
  have hdrop : (payload ++ check).drop size.len = check := by rw [← hsize, List.drop_left]
  have hlength : (payload ++ check).length = size.len + checks := by
    rw [List.length_append, hsize, hcheck]
  have hnumber : number + complement ≠ 0xff ↔ complement ≠ ~~~ number :=
    not_congr (number_add_complement number complement)
  simp only [List.cons_append, List.nil_append, XyBlock.parseWith, XyBlockSize.fromMarker_marker,
    htake, hdrop, hlength, Nat.lt_irrefl, if_false, not_true, ne_eq]
  by_cases hcomplement : complement = ~~~ number
  · rw [if_neg (not_not.mpr ((number_add_complement number complement).mpr hcomplement)),
      if_neg (not_not.mpr hcomplement)]
    cases valid payload check <;> rfl
  · rw [if_pos (hnumber.mpr hcomplement), if_pos hcomplement]

theorem parse_packet (useCrc : Bool) (hsize : payload.length = size.len)
    (hcheck : check.length = checkLen useCrc) :
    XyBlock.parse useCrc ([size.marker, number, complement] ++ payload ++ check) =
      if complement ≠ ~~~ number then .error .invalidBlockNumber
      else if check = blockCheck useCrc payload then .ok ⟨number, size, payload⟩
      else .error (if useCrc then .invalidCrc else .invalidChecksum) := by
  cases useCrc with
  | false =>
    have hone : check.length = 1 := hcheck
    unfold XyBlock.parse XyBlock.parseChecksum
    rw [if_neg Bool.false_ne_true, parseWith_packet hsize hone]
    simp only [checksum_valid_iff hone, Bool.false_eq_true, if_false]
  | true =>
    have htwo : check.length = 2 := hcheck
    unfold XyBlock.parse XyBlock.parseCrc
    rw [if_pos rfl, parseWith_packet hsize htwo]
    simp only [crc_valid_iff htwo, if_true]

theorem length_of_new {data : List UInt8} {block : XyBlock}
    (h : XyBlock.new number size data = .ok block) : block.payload.length = block.size.len := by
  unfold XyBlock.new at h
  split_ifs at h with hlong
  cases h
  simp only [List.length_append, List.length_replicate]
  omega

theorem parse_encode (useCrc : Bool) {data : List UInt8} {block : XyBlock}
    (h : XyBlock.new number size data = .ok block) :
    XyBlock.parse useCrc (block.encode useCrc) = .ok block :=
  parseBlock_ok_iff.mpr ⟨length_of_new h, encode_eq useCrc block⟩

theorem parse_rejects (useCrc : Bool) (hsize : payload.length = size.len)
    (hcheck : check.length = checkLen useCrc)
    (hwrong : complement ≠ ~~~ number ∨ check ≠ blockCheck useCrc payload) :
    ∃ error, XyBlock.parse useCrc ([size.marker, number, complement] ++ payload ++ check) =
      .error error := by
  rw [parse_packet useCrc hsize hcheck]
  by_cases hcomplement : complement = ~~~ number
  · rw [if_neg (not_not.mpr hcomplement), if_neg (hwrong.resolve_left (not_not.mpr hcomplement))]
    exact ⟨_, rfl⟩
  · rw [if_pos hcomplement]
    exact ⟨_, rfl⟩

end Blocks

/-! ## 2. Block 0 -/

section Block0

variable {header : YmodemFileHeader} {payload : List UInt8}

/-- What stands behind the name and its NUL, for each size, and what is read of it. -/
theorem encodeBlock0Payload_ok (hsize : ∀ size ∈ header.fileSize, size ≤ u64Max)
    (h : header.encodeBlock0Payload = .ok payload) :
    ∃ metadata, payload = asBytes header.fileName ++ 0 :: metadata ∧
      parseBlock0Size metadata = .ok header.fileSize := by
  obtain ⟨name, fileSize⟩ := header
  unfold encodeBlock0Payload at h
  dsimp only at h
  cases fileSize with
  | none =>
    dsimp only at h
    split_ifs at h with hname
    cases h
    obtain ⟨zeros, hzeros⟩ : ∃ zeros, XyBlockSize.bytes128.len - (asBytes name).length = zeros + 1 :=
      ⟨_, (Nat.succ_pred_eq_of_pos (by omega)).symm⟩
    refine ⟨List.replicate zeros 0, ?_, ?_⟩
    · rw [padBlock0, hzeros, List.replicate_succ]
    · cases zeros with
      | zero => rfl
      | succ zeros =>
        rw [List.replicate_succ]
        simp [parseBlock0Size, List.findIdx?_cons]
  | some size =>
    dsimp only at h
    split_ifs at h with hname hroom
    cases h
    have htotal : (asBytes name ++ [0] ++ asBytes (numToString size)).length =
        (asBytes name).length + 1 + (asBytes (numToString size)).length := by
      simp only [List.length_append, List.length_singleton]
    obtain ⟨zeros, hzeros⟩ : ∃ zeros, XyBlockSize.bytes128.len -
        (asBytes name ++ [0] ++ asBytes (numToString size)).length = zeros + 1 :=
      ⟨_, (Nat.succ_pred_eq_of_pos (by omega)).symm⟩
    refine ⟨asBytes (numToString size) ++ List.replicate (zeros + 1) 0, ?_,
      parseBlock0Size_text (hsize size rfl) zeros⟩
    rw [padBlock0, hzeros]
    simp

theorem parseBlock0Payload_name {name : Str} (hnul : '\x00' ∉ name) (hname : name ≠ [])
    (metadata : List UInt8) :
    parseBlock0Payload (asBytes name ++ 0 :: metadata) = (do
      validateYmodemFileName name
      let fileSize ← parseBlock0Size metadata
      return some ⟨name, fileSize⟩) := by
  have hidx : (asBytes name ++ 0 :: metadata).findIdx? (· == 0) = some (asBytes name).length := by
    refine findIdx?_first (fun b hb => ?_) rfl
    rw [beq_eq_false_iff_ne]
    rintro rfl
    exact zero_not_mem_asBytes hnul hb
  have hlength : (asBytes name).length ≠ 0 := by simpa using asBytes_ne_nil hname
  have hdrop : (asBytes name ++ 0 :: metadata).drop ((asBytes name).length + 1) = metadata := by
    rw [← List.drop_drop, List.drop_left]
    rfl
  simp only [parseBlock0Payload, hidx, hlength, if_false, List.take_left, fromUtf8Lossy_asBytes, hdrop]

/-- The headers that are read back, of those that are validated and encoded: the names without
    a NUL. -/
theorem parseBlock0Payload_iff
    (hnew : YmodemFileHeader.new header.fileName header.fileSize = .ok header)
    (hsize : ∀ size ∈ header.fileSize, size ≤ u64Max)
    (hencode : header.encodeBlock0Payload = .ok payload) :
    parseBlock0Payload payload = .ok (some header) ↔ '\x00' ∉ header.fileName := by
  obtain ⟨metadata, rfl, hmetadata⟩ := encodeBlock0Payload_ok hsize hencode
  have hvalid : validateYmodemFileName header.fileName = .ok () := by
    unfold YmodemFileHeader.new at hnew
    cases hname : validateYmodemFileName header.fileName with
    | error error => rw [hname] at hnew; cases hnew
    | ok _ => rfl
  constructor
  · intro hparse hmem
    -- the name is read up to its first NUL, and is shorter then
    obtain ⟨before, after, hsplit, hnul⟩ := List.eq_append_cons_of_mem hmem
    have hbytes : asBytes header.fileName ++ 0 :: metadata =
        asBytes before ++ 0 :: (asBytes after ++ 0 :: metadata) := by
      rw [hsplit, asBytes_append, asBytes_cons]
      simp [String.utf8EncodeChar]
    rw [hbytes] at hparse
    cases before with
    | nil => simp [parseBlock0Payload, List.findIdx?_cons] at hparse
    | cons c before =>
      rw [parseBlock0Payload_name hnul (List.cons_ne_nil c before)] at hparse
      cases hvalid' : validateYmodemFileName (c :: before) with
      | error error => simp [hvalid', bind, Except.bind] at hparse
      | ok _ =>
        cases hsize' : parseBlock0Size (asBytes after ++ 0 :: metadata) with
        | error error => simp [hvalid', hsize', bind, Except.bind] at hparse
        | ok fileSize =>
          simp only [hvalid', hsize', bind, Except.bind, pure, Except.pure, Except.ok.injEq,
            Option.some.injEq] at hparse
          have hname := congrArg (fun header => header.fileName.length) hparse
          rw [hsplit] at hname
          simp at hname
  · intro hnul
    have hne : header.fileName ≠ [] := (validateYmodemFileName_ok_iff.mp hvalid).1
    rw [parseBlock0Payload_name hnul hne, hvalid, hmetadata]
    rfl

end Block0

/-- **The codec**: blocks are read back, packets with another complement or check are rejected, and
    a file header is read back exactly if its name has no NUL. -/
theorem xymodemCodec_iff {name : Str} {fileSize : Option Nat} {header : YmodemFileHeader}
    {payload : List UInt8} (hsize : ∀ size ∈ fileSize, size ≤ u64Max)
    (hnew : YmodemFileHeader.new name fileSize = .ok header)
    (hencode : header.encodeBlock0Payload = .ok payload) :
    (∀ useCrc number size data block, XyBlock.new number size data = .ok block →
      XyBlock.parse useCrc (block.encode useCrc) = .ok block) ∧
    (∀ useCrc (size : XyBlockSize) number complement payload check, payload.length = size.len →
      check.length = checkLen useCrc →
      complement ≠ ~~~ number ∨ check ≠ blockCheck useCrc payload →
      ∃ error, XyBlock.parse useCrc ([size.marker, number, complement] ++ payload ++ check) =
        .error error) ∧
    (parseBlock0Payload payload = .ok (some header) ↔ '\x00' ∉ name) := by
  refine ⟨fun useCrc _ _ _ _ => parse_encode useCrc, fun useCrc _ _ _ _ _ => parse_rejects useCrc, ?_⟩
  have hheader : header = ⟨name, fileSize⟩ := by
    unfold YmodemFileHeader.new at hnew
    cases hname : validateYmodemFileName name with
    | error error => rw [hname] at hnew; cases hnew
    | ok _ =>
      rw [hname] at hnew
      cases hnew
      rfl
  subst hheader
  exact parseBlock0Payload_iff hnew hsize hencode

theorem xymodemCodec_iff_file :
    (∀ size ∈ some 5, size ≤ u64Max) ∧ YmodemFileHeader.new ['a'] (some 5) = .ok ⟨['a'], some 5⟩ ∧
      encodeBlock0Payload ⟨['a'], some 5⟩ = .ok (padBlock0 [0x61, 0, 0x35]) ∧
      parseBlock0Payload (padBlock0 [0x61, 0, 0x35]) = .ok (some ⟨['a'], some 5⟩) := by
  have hsize : ∀ size ∈ some 5, size ≤ u64Max := by
    rintro size ⟨⟩
    decide
  have hnew : YmodemFileHeader.new ['a'] (some 5) = .ok ⟨['a'], some 5⟩ := by decide
  have hencode : encodeBlock0Payload ⟨['a'], some 5⟩ = .ok (padBlock0 [0x61, 0, 0x35]) := by
    decide
  exact ⟨hsize, hnew, hencode,
    (xymodemCodec_iff hsize hnew hencode).2.2.mpr (by decide)⟩

/-- A name with a NUL: it is accepted and encoded, and its block 0 is refused. -/
theorem nul_breaks_block0 : ∃ header payload,
    YmodemFileHeader.new ['a', '\x00', 'b'] (some 5) = .ok header ∧
      header.encodeBlock0Payload = .ok payload ∧
      parseBlock0Payload payload = .error .invalidLength :=
  ⟨⟨['a', '\x00', 'b'], some 5⟩, padBlock0 [0x61, 0, 0x62, 0, 0x35], by decide,
    by decide, by decide⟩

/-! ## 3. Damage -/

/-- What follows the block number of an accepted packet. -/
theorem residue_of_parseCrc {head body : List UInt8} {block : XyBlock} (hhead : head.length = 3)
    (h : XyBlock.parse true (head ++ body) = .ok block) : body.foldl crc16XmodemUpdate 0 = 0 := by
  have hwire := (parseBlock_ok_iff.mp h).wire
  rw [XyBlock.encodeWith, List.append_assoc] at hwire
  rw [(List.append_inj hwire hhead).2, List.foldl_append]
  exact (crc16_residue _ _ _).mpr ⟨rfl, rfl⟩

/-- **With a CRC, damage to one byte or two adjacent ones is noticed**, anywhere behind the block
    number. -/
theorem damaged_refused {head before piece piece' after : List UInt8} {block : XyBlock}
    (hhead : head.length = 3) (hshort : piece.length ≤ 2) (hlength : piece'.length = piece.length)
    (hne : piece' ≠ piece)
    (h : XyBlock.parse true (head ++ (before ++ piece ++ after)) = .ok block) :
    ∃ error, XyBlock.parse true (head ++ (before ++ piece' ++ after)) = .error error := by
  cases h' : XyBlock.parse true (head ++ (before ++ piece' ++ after)) with
  | error error => exact ⟨error, rfl⟩
  | ok block' =>
    have hreg := (residue_of_parseCrc hhead h).trans (residue_of_parseCrc hhead h').symm
    simp only [List.foldl_append] at hreg
    have hpiece := foldl_crc16_inj hreg
    refine absurd ?_ hne
    match piece, piece', hlength, hshort, hpiece with
    | [], [], _, _, _ => rfl
    | [b], [b'], _, _, hpiece =>
      rw [(crc16_two_bytes _ (congrArg (crc16XmodemUpdate · 0) hpiece)).1]
    | [b, c], [b', c'], _, _, hpiece =>
      obtain ⟨rfl, rfl⟩ := crc16_two_bytes _ hpiece
      rfl

theorem damaged_refused_block : ∃ error, XyBlock.parse true ([soh, 1, ~~~1] ++
    ([] ++ [7] ++ (List.replicate 127 0 ++ blockCheck true (List.replicate 128 0)))) = .error error :=
  @damaged_refused _ [] [0] [7] _ ⟨1, .bytes128, List.replicate 128 0⟩ rfl (by decide) rfl (by decide)
    (parseBlock_ok_iff.mpr ⟨List.length_replicate,
      by simp [XyBlock.encodeWith, XyBlockSize.marker, List.replicate_succ]⟩)

end Hapcli.Modem

/-
  Subject:   The streaming ZMODEM parsers in front of more bytes and behind noise.

  * **`resynced_iff`** -- the noise behind which an encoded header is found: the scanner takes pads
    three at a time when they come in runs, so a run of three, six, ... pads in front of the ZDLE hides it.
-/
import Hapcli.Modem.ZmodemParse

namespace Hapcli.Modem

open Hapcli.Process Hapcli.Rust Proc ModemProc

/-! ## 1. Data subpackets -/

/-- `read_zmodem_data` run on a channel that holds `bytes` ends with `r` and leaves `rest`. -/
def DataRead (useCrc32 : Bool) (maxPayload : Nat) (bytes : List UInt8)
    (r : Except ModemTransferError ZDataFrame) (rest : List UInt8) : Prop :=
  ∃ n, exec (memoryModemIo (H := Unit)) n (readZmodemData useCrc32 maxPayload) ⟨bytes, []⟩ =
    some (r, ⟨rest, []⟩)

/-- **A data subpacket comes back**, whatever follows it. -/
theorem readZmodemData_writeZdata (payload : List UInt8) (e : ZDataEnd) (useCrc32 esc : Bool)
    {maxPayload : Nat} (h : payload.length ≤ maxPayload) :
    ∃ written, exec (memoryModemIo (H := Unit)) 0 (writeZdata payload e useCrc32 esc) ⟨[], []⟩ =
        some (.ok (), ⟨[], written⟩) ∧
      ∀ rest, DataRead useCrc32 maxPayload (written ++ rest) (.ok ⟨payload, e⟩)
        ((if e = .endWithAck then [xon] else []) ++ rest) := by
  refine ⟨encodeZdata payload e useCrc32 esc, rfl, fun rest => ?_⟩
  rw [encodeZdata_split, List.append_assoc]
  exact (reads_data (subpacketWire_encode payload e useCrc32 esc) h).exec _ []

theorem readZmodemData_writeZdata_bytes :
    [0x18, 0x11, 0x0d, 0x40, 0x7f, 0xff].length ≤ zmodemMaxChunk ∧
    ∃ written, exec (memoryModemIo (H := Unit)) 0
        (writeZdata [0x18, 0x11, 0x0d, 0x40, 0x7f, 0xff] .endWithAck true true) ⟨[], []⟩ =
        some (.ok (), ⟨[], written⟩) ∧
      ∀ rest, DataRead true zmodemMaxChunk (written ++ rest)
        (.ok ⟨[0x18, 0x11, 0x0d, 0x40, 0x7f, 0xff], .endWithAck⟩) ([xon] ++ rest) :=
  have h : [0x18, 0x11, 0x0d, 0x40, 0x7f, 0xff].length ≤ zmodemMaxChunk := by decide
  ⟨h, readZmodemData_writeZdata [0x18, 0x11, 0x0d, 0x40, 0x7f, 0xff] .endWithAck true true h⟩

/-! ## 2. Encoded headers -/

variable (encoding : ZHeaderEncoding)

/-- The header encoders. -/
def encodeHeader (t : ZFrameType) (p : Position) (includeXon esc : Bool) : List UInt8 :=
  match encoding with
  | .hex => encodeHexHeader t p includeXon
  | .bin16 => encodeBin16HeaderWithEscape t p esc
  | .bin32 => encodeBin32HeaderWithEscape t p esc

/-- What an encoder writes behind the header. -/
def behindHeader (includeXon : Bool) : List UInt8 :=
  match encoding with
  | .hex => if includeXon then [xon] else []
  | _ => []

/-- How many pads a header begins with. -/
def introPads : ZHeaderEncoding → Nat
  | .hex => 2
  | _ => 1

/-- The encoding byte of an encoded header. -/
def encodingByte : ZHeaderEncoding → UInt8
  | .hex => zhex
  | .bin16 => zbin
  | .bin32 => zbin32

/-- What stands behind the encoding byte. -/
def headerTail (t : ZFrameType) (p : Position) (esc : Bool) : List UInt8 :=
  match encoding with
  | .hex => (headerPayload t p ++ headerCrc .hex (headerPayload t p)).flatMap pushHexByte ++
      [0x0d, 0x0a ||| 0x80]
  | .bin16 => escaped esc (headerPayload t p ++ augmentedCrc t p)
  | .bin32 => escaped esc (headerPayload t p ++ headerCrc .bin32 (headerPayload t p))

/-- The headers whose check the streaming parser accepts: of the 16-bit ones, those whose augmented
    CRC is the direct one. -/
def Accepted (t : ZFrameType) (p : Position) : Prop :=
  encoding = .bin16 → crc16Xmodem (headerPayload t p) = 0 ∨ crc16Xmodem (headerPayload t p) = 0xf01f#16

section Headers

variable {encoding : ZHeaderEncoding} {t : ZFrameType} {p : Position} {includeXon esc : Bool}

theorem encodeHeader_eq : encodeHeader encoding t p includeXon esc =
    List.replicate (introPads encoding) zpad ++
      zdle :: encodingByte encoding :: headerTail encoding t p esc ++
      behindHeader encoding includeXon := by
  cases encoding with
  | hex => simp [encodeHeader, encodeHexHeader, introPads, encodingByte, headerTail, headerCrc,
      behindHeader, List.replicate]
  | bin16 => simp [encodeHeader, encodeBin16_eq, introPads, encodingByte, headerTail, behindHeader]
  | bin32 => simp [encodeHeader, encodeBin32HeaderWithEscape, introPads, encodingByte, headerTail,
      headerCrc, behindHeader, crc32Ieee]

theorem reads_headerTail : ∃ r, Reads
    (readEncodedHeader (encodingByte encoding) : ModemProc Unit ZHeader)
    (headerTail encoding t p esc) r ∧ (r = .ok ⟨t, p, encoding⟩ ↔ Accepted encoding t p) := by
  cases encoding with
  | hex =>
    have hbody := @HeaderBody.hex t p _ (0x0a ||| 0x80) (by decide)
      (hexBytes_push (headerPayload t p ++ headerCrc .hex (headerPayload t p)))
    obtain ⟨e, w, hbytes, hreads⟩ := reads_headerBody (H := Unit) hbody
    obtain ⟨rfl, rfl⟩ := List.cons.inj hbytes
    exact ⟨_, hreads, iff_of_true rfl nofun⟩
  | bin16 =>
    refine ⟨_, reads_bin16_encoded t p esc, ?_⟩
    by_cases hcrc : crc16Xmodem (headerPayload t p) = 0 ∨ crc16Xmodem (headerPayload t p) = 0xf01f#16
    · rw [if_pos hcrc]
      exact iff_of_true rfl fun _ => hcrc
    · rw [if_neg hcrc]
      exact iff_of_false nofun fun haccepted => hcrc (haccepted rfl)
  | bin32 =>
    have hbody := @HeaderBody.bin32 t p _
      (escapedBytes_escaped esc (headerPayload t p ++ headerCrc .bin32 (headerPayload t p)))
    obtain ⟨e, w, hbytes, hreads⟩ := reads_headerBody (H := Unit) hbody
    obtain ⟨rfl, rfl⟩ := List.cons.inj hbytes
    exact ⟨_, hreads, iff_of_true rfl nofun⟩

end Headers

/-! ## 3. No header in a header -/

/-- The bytes that are no ZDLE: as many as are encoded, where the encoder escapes. -/
def plainCount (bytes : List UInt8) : Nat := bytes.countP (· ≠ zdle)

theorem unescape_zdle : unescape zdle = none := by decide

theorem plainCount_escaped (esc : Bool) (bytes : List UInt8) :
    plainCount (escaped esc bytes) = bytes.length := by
  induction bytes with
  | nil => rfl
  | cons b bytes ih =>
    have hone : plainCount (pushZdleEscapedWithControl esc b) = 1 := by
      rcases pushZdleEscaped_cases esc b with ⟨e, hpush, he⟩ | ⟨hpush, hb⟩
      · have hne : e ≠ zdle := fun heq => by rw [heq, unescape_zdle] at he; cases he
        simp [hpush, plainCount, hne]
      · simp [hpush, plainCount, (not_flowControl_of_plain b hb).2]
    unfold plainCount at ih hone ⊢
    rw [escaped_cons, List.countP_append, hone, ih, List.length_cons]
    omega

variable {w : List UInt8}

variable {bytes : List UInt8} {encoding : ZHeaderEncoding} {esc : Bool} {p : Position}
  {t : ZFrameType}

theorem plainCount_of_escapedBytes (h : EscapedBytes w bytes) : bytes.length ≤ plainCount w := by
  induction h with
  | nil => exact Nat.le_refl 0
  | @cons w w' b bytes h _ ih =>
    obtain ⟨flow, tail, rfl, -, hone⟩ := h
    have htail : 1 ≤ plainCount tail := by
      rcases hone with ⟨rfl, -, hb⟩ | ⟨e, rfl, he⟩
      · simp [plainCount, hb]
      · have hne : e ≠ zdle := fun heq => by rw [heq, unescape_zdle] at he; cases he
        simp [plainCount, hne]
    unfold plainCount at ih htail ⊢
    rw [List.countP_append, List.countP_append, List.length_cons]
    omega

theorem plainCount_header {e : UInt8} (he : e ≠ zdle) (h : EscapedBytes w bytes) :
    bytes.length + 2 ≤ plainCount (zpad :: zdle :: e :: w) := by
  have hlength := plainCount_of_escapedBytes h
  unfold plainCount at hlength ⊢
  rw [List.countP_cons_of_pos (by decide), List.countP_cons_of_neg (by decide),
    List.countP_cons_of_pos (by simpa using he)]
  omega

theorem plainCount_cons_le (b : UInt8) (bytes : List UInt8) : plainCount bytes ≤ plainCount
    (b :: bytes) :=
  (List.sublist_cons_self b bytes).countP_le

/-- How many bytes a binary header encodes. -/
def binaryLength : ZHeaderEncoding → Nat
  | .bin32 => 9
  | _ => 7

theorem plainCount_headerWire {h : ZHeader} (hbinary : h.encoding ≠ .hex) (hwire : HeaderWire h w) :
    binaryLength h.encoding + 2 ≤ plainCount w := by
  have hbody : ∀ {body}, HeaderBody h.frameType h.position h.encoding body →
      binaryLength h.encoding + 2 ≤ plainCount (zpad :: zdle :: body) := by
    obtain ⟨t, p, encoding⟩ := h
    intro body hbody
    cases hbody with
    | hex => exact absurd rfl hbinary
    | bin16 hescaped => exact plainCount_header (by decide) hescaped
    | bin32 hescaped => exact plainCount_header (by decide) hescaped
  cases hwire with
  | onePad h => exact hbody h
  | twoPads h => exact (hbody h).trans (plainCount_cons_le _ _)

theorem plainCount_headerTail (hbinary : encoding ≠ .hex) :
    plainCount (headerTail encoding t p esc) = binaryLength encoding := by
  cases encoding with
  | hex => exact absurd rfl hbinary
  | bin16 => exact plainCount_escaped esc _
  | bin32 => exact plainCount_escaped esc _

theorem zpad_not_mem_hex : zpad ∉ headerTail .hex t p esc := by
  have hnone : hexDigit zpad = none := by decide
  intro hmem
  unfold headerTail at hmem
  rcases List.mem_append.mp hmem with hdigit | hend
  · obtain ⟨b, -, hdigit⟩ := List.mem_flatMap.mp hdigit
    obtain ⟨high, low, n, m, hpush, hhigh, hlow, -⟩ := pushHexByte_digits b
    rw [hpush] at hdigit
    rcases List.mem_cons.mp hdigit with rfl | hdigit
    · cases hnone.symm.trans hhigh
    · cases List.mem_singleton.mp hdigit
      cases hnone.symm.trans hlow
  · revert hend
    decide

theorem not_finds_tail :
    ¬ Reads (readZmodemHeader : ModemProc Unit ZHeader)
      (encodingByte encoding :: headerTail encoding t p esc) (.ok ⟨t, p, encoding⟩) := by
  intro hreads
  obtain ⟨noise, w, hbytes, hwire⟩ := reads_header_inv hreads
  -- the inner header begins with a pad, which the encoding byte is not
  obtain ⟨inner, hinner⟩ : ∃ inner, w = zpad :: inner := by
    cases hwire with
    | onePad => exact ⟨_, rfl⟩
    | twoPads => exact ⟨_, rfl⟩
  obtain ⟨noise, htail⟩ : ∃ rest, headerTail encoding t p esc = rest ++ w := by
    cases noise with
    | nil =>
      rw [hinner, List.nil_append] at hbytes
      have hfirst := (List.cons.inj hbytes).1
      cases encoding <;> exact absurd hfirst (by decide)
    | cons first rest => exact ⟨rest, (List.cons.inj hbytes).2⟩
  by_cases hhex : encoding = .hex
  · subst hhex
    refine @zpad_not_mem_hex esc p t ?_
    rw [htail, hinner]
    exact List.mem_append_right _ List.mem_cons_self
  · -- it would encode more bytes than there are
    have hge := plainCount_headerWire hhex hwire
    have hle : plainCount w ≤ plainCount (headerTail encoding t p esc) := by
      rw [htail]
      exact (List.sublist_append_right noise w).countP_le
    rw [plainCount_headerTail hhex] at hle
    dsimp only at hge
    omega

/-! ## 4. The scanner -/

/-- `read_zmodem_header` reads exactly these bytes and returns the header. -/
def Finds (bytes : List UInt8) (h : ZHeader) : Prop :=
  Reads (readZmodemHeader : ModemProc Unit ZHeader) bytes (.ok h)

section Scanner

variable {h : ZHeader} {x y z : UInt8} {cs : List UInt8}

theorem finds_one (hx : x ≠ zpad) : Finds (x :: cs) h ↔ Finds cs h := by
  have hturn : Reads (readZmodemHeaderTurn () : ModemProc Unit _) [x] (.ok (.again ())) := by
    refine Reads.read ?_
    rw [if_pos hx]
    exact .ret _
  exact hturn.again_iff

theorem finds_two (hy : y ≠ zpad) (hy' : y ≠ zdle) : Finds (zpad :: y :: cs) h ↔ Finds cs h := by
  have hturn : Reads (readZmodemHeaderTurn () : ModemProc Unit _) [zpad, y] (.ok (.again ())) := by
    refine Reads.read ?_
    rw [if_neg (by decide)]
    refine Reads.read ?_
    rw [if_neg hy, if_neg hy']
    exact .ret _
  exact hturn.again_iff

theorem finds_three (hz : z ≠ zdle) : Finds (zpad :: zpad :: z :: cs) h ↔ Finds cs h := by
  have hturn : Reads (readZmodemHeaderTurn () : ModemProc Unit _) [zpad, zpad, z]
      (.ok (.again ())) := by
    refine Reads.read ?_
    rw [if_neg (by decide)]
    refine Reads.read ?_
    rw [if_pos rfl]
    refine Reads.read ?_
    rw [if_pos hz]
    exact .ret _
  exact hturn.again_iff

theorem getLast?_tail {front : List UInt8} (hlast : (x :: front).getLast? ≠ some zpad) :
    front.getLast? ≠ some zpad := by
  cases front with
  | nil => exact nofun
  | cons y front => rwa [List.getLast?_cons_cons] at hlast

theorem finds_front (front : List UInt8) (hnone : zdle ∉ front)
    (hlast : front.getLast? ≠ some zpad) : Finds (front ++ cs) h ↔ Finds cs h := by
  induction hn : front.length using Nat.strongRecOn generalizing front with
  | ind n ih =>
    subst hn
    -- the scanner takes one byte, two or three of it, and is where it began
    cases front with
    | nil => exact Iff.rfl
    | cons x front =>
      rw [List.mem_cons, not_or] at hnone
      have hlast' := getLast?_tail hlast
      by_cases hx : x = zpad
      · subst hx
        cases front with
        | nil => exact absurd rfl hlast
        | cons y front =>
          rw [List.mem_cons, not_or] at hnone
          have hlast'' := getLast?_tail hlast'
          by_cases hy : y = zpad
          · subst hy
            cases front with
            | nil => exact absurd rfl hlast'
            | cons z front =>
              rw [List.mem_cons, not_or] at hnone
              exact (finds_three (Ne.symm hnone.2.2.1)).trans
                (ih _ (by simp only [List.length_cons]; omega) front hnone.2.2.2
                  (getLast?_tail hlast'') rfl)
          · exact (finds_two hy (Ne.symm hnone.2.1)).trans
              (ih _ (by simp only [List.length_cons]; omega) front hnone.2.2 hlast'' rfl)
      · exact (finds_one hx).trans
          (ih _ (by simp only [List.length_cons]; omega) front hnone.2 hlast' rfl)

theorem finds_pads (n : Nat) :
    Finds (List.replicate n zpad ++ cs) h ↔ Finds (List.replicate (n % 3) zpad ++ cs) h := by
  induction n using Nat.strongRecOn with
  | ind n ih =>
    by_cases hlt : n < 3
    · rw [Nat.mod_eq_of_lt hlt]
    · obtain ⟨m, rfl⟩ : ∃ m, n = m + 3 := ⟨n - 3, by omega⟩
      rw [Nat.add_mod_right]
      refine Iff.trans ?_ (ih m (by omega))
      exact finds_three (by decide)

end Scanner

/-! ## 5. Behind noise -/

/-- How many pads the noise ends with. -/
def trailingPads (noise : List UInt8) : Nat := (noise.rtakeWhile (· == zpad)).length

theorem noise_eq (noise : List UInt8) :
    noise = noise.rdropWhile (· == zpad) ++ List.replicate (trailingPads noise) zpad := by
  have hpads : noise.rtakeWhile (· == zpad) = List.replicate (trailingPads noise) zpad := by
    refine List.eq_replicate_iff.mpr ⟨rfl, fun b hb => ?_⟩
    have hpad := List.mem_rtakeWhile_imp hb
    exact eq_of_beq hpad
  rw [← hpads]
  exact List.rdropWhile_append_rtakeWhile.symm

theorem getLast?_rdropWhile (noise : List UInt8) :
    (noise.rdropWhile (· == zpad)).getLast? ≠ some zpad := by
  intro hlast
  obtain ⟨hne, heq⟩ := List.mem_getLast?_eq_getLast hlast
  have hnot := List.rdropWhile_last_not (· == zpad) noise hne
  rw [← heq] at hnot
  exact hnot (beq_self_eq_true zpad)

section Noise

variable {encoding : ZHeaderEncoding} {t : ZFrameType} {p : Position} {includeXon esc : Bool}
  {noise : List UInt8}

/-- Behind a run of pads a header is found unless their number is divisible by three. -/
theorem finds_run_iff (n : Nat) :
    Finds (List.replicate n zpad ++ zdle :: encodingByte encoding :: headerTail encoding t p esc)
      ⟨t, p, encoding⟩ ↔ n % 3 ≠ 0 ∧ Accepted encoding t p := by
  obtain ⟨r, hreads, hr⟩ := @reads_headerTail encoding t p esc
  rw [finds_pads, ← hr]
  have hlt : n % 3 < 3 := Nat.mod_lt n (by decide)
  have hread : ∀ {bytes : List UInt8}, Reads (readZmodemHeader : ModemProc Unit ZHeader) bytes r →
      (Finds bytes ⟨t, p, encoding⟩ ↔ r = .ok ⟨t, p, encoding⟩) := by
    intro bytes hbytes
    constructor
    · intro hfinds
      have htape : bytes ++ [] = bytes ++ [] := rfl
      exact (Reads.det hbytes hfinds htape).2
    · rintro rfl
      exact hbytes
  match n % 3, hlt with
  | 0, _ =>
    refine iff_of_false (fun hfinds => ?_) fun hboth => hboth.1 rfl
    exact not_finds_tail ((finds_one (by decide)).mp hfinds)
  | 1, _ =>
    rw [and_iff_right (by decide)]
    exact hread (Reads.last (reads_headerTurn hreads false))
  | 2, _ =>
    rw [and_iff_right (by decide)]
    exact hread (Reads.last (reads_headerTurn hreads true))

/-- **The header behind the noise is found**: whatever follows it, the parser returns it and leaves
    what follows, the optional XON included. -/
def Resynced (noise : List UInt8) (encoding : ZHeaderEncoding) (t : ZFrameType) (p : Position)
    (includeXon esc : Bool) : Prop :=
  ∀ rest, HeaderRead (noise ++ encodeHeader encoding t p includeXon esc ++ rest)
    (.ok ⟨t, p, encoding⟩) (behindHeader encoding includeXon ++ rest)

theorem resynced_iff_finds : Resynced noise encoding t p includeXon esc ↔
    Finds (noise ++ (List.replicate (introPads encoding) zpad ++
      zdle :: encodingByte encoding :: headerTail encoding t p esc)) ⟨t, p, encoding⟩ := by
  unfold Resynced
  rw [encodeHeader_eq]
  constructor
  · intro hall
    obtain ⟨n, hexec⟩ := hall []
    obtain ⟨bs, hbytes, hreads⟩ := readOnly_header.reads_of_exec hexec
    rw [List.append_nil, List.append_nil, ← List.append_assoc] at hbytes
    rw [List.append_cancel_right hbytes]
    exact hreads
  · intro hfinds rest
    have hread := HeaderRead.of_reads hfinds (behindHeader encoding includeXon ++ rest)
    simpa only [List.append_assoc, List.cons_append] using hread

end Noise

/-- **The noise behind which an encoded header is found**: exactly if the pads that it ends with and
    those of the header are not three, six, ... together. -/
theorem resynced_iff (noise : List UInt8) (hnoise : zdle ∉ noise) (encoding : ZHeaderEncoding)
    (t : ZFrameType) (p : Position) (includeXon esc : Bool) :
    Resynced noise encoding t p includeXon esc ↔
      (trailingPads noise + introPads encoding) % 3 ≠ 0 ∧ Accepted encoding t p := by
  have hfront : zdle ∉ noise.rdropWhile (· == zpad) := fun hmem =>
    hnoise ((List.rdropWhile_prefix (· == zpad) noise).subset hmem)
  rw [resynced_iff_finds, ← @finds_run_iff encoding t p esc]
  conv_lhs => rw [noise_eq noise]
  rw [List.append_assoc, finds_front _ hfront (getLast?_rdropWhile noise), ← List.append_assoc,
    List.replicate_append_replicate]

theorem resynced_iff_two_pads : zdle ∉ [zpad, zpad] ∧
    Resynced [zpad, zpad] .hex .zrqInit ⟨0, 0, 0, 0⟩ true false :=
  have h : zdle ∉ [zpad, zpad] := by decide
  ⟨h, (resynced_iff [zpad, zpad] h .hex .zrqInit ⟨0, 0, 0, 0⟩ true false).mpr ⟨by decide, nofun⟩⟩

theorem one_pad_hides : zdle ∉ [zpad] ∧
    HeaderRead ([zpad] ++ encodeHeader .hex .zrqInit ⟨0, 0, 0, 0⟩ false false ++ [])
      (.error .timeout) [] ∧
    ¬ Resynced [zpad] .hex .zrqInit ⟨0, 0, 0, 0⟩ false false := by
  have hwaits : HeaderRead ([zpad] ++ encodeHeader .hex .zrqInit ⟨0, 0, 0, 0⟩ false false ++ [])
      (.error .timeout) [] := ⟨20, by decide +kernel⟩
  exact ⟨by decide, hwaits, fun hall => nomatch (hall []).det hwaits⟩

end Hapcli.Modem

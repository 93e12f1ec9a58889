/-
  Subject:   `TelnetCodec` (`session/telnet.rs`): the bytes of a telnet server are parted into data
             and replies, read by read.

  The worker calls `filter_server_bytes` on what each read returned, and the codec keeps nothing of
  a read. What one call makes of a stream is therefore not what many calls make of its pieces:

  * `filterChunks_independent_iff` -- **every way of cutting a stream gives the same exactly if the
    stream has no command byte before its last byte**.
-/
import Mathlib.Tactic.Common

namespace Hapcli.Terminal

/-! ## 1. The codec -/

def telnetCommandIac : UInt8 := 255
def telnetCommandDont : UInt8 := 254
def telnetCommandDo : UInt8 := 253
def telnetCommandWont : UInt8 := 252
def telnetCommandWill : UInt8 := 251
def telnetCommandSb : UInt8 := 250
def telnetCommandSe : UInt8 := 240
def telnetOptionBinary : UInt8 := 0
def telnetOptionEcho : UInt8 := 1
def telnetOptionSuppressGoAhead : UInt8 := 3
def telnetOptionTerminalType : UInt8 := 24
def telnetOptionNaws : UInt8 := 31
def telnetTerminalTypeIs : UInt8 := 0
def telnetTerminalTypeSend : UInt8 := 1

/-- `xterm-256color`. -/
def telnetTerminalType : List UInt8 :=
  [0x78, 0x74, 0x65, 0x72, 0x6d, 0x2d, 0x32, 0x35, 0x36, 0x63, 0x6f, 0x6c, 0x6f, 0x72]

structure TelnetCodec where
  cols : UInt16
  rows : UInt16
  deriving DecidableEq

/-- What a call gives: the data, and the replies. -/
abbrev Filtered := List UInt8 × List (List UInt8)

variable (bytes : List UInt8)

/-- `telnet_escape_iac_payload`; `encode_client_data` does the same. -/
def telnetEscapeIacPayload : List UInt8 :=
  bytes.flatMap fun byte => if byte = telnetCommandIac then [byte, telnetCommandIac] else [byte]

namespace TelnetCodec

variable (codec : TelnetCodec)

def nawsMessage : List UInt8 :=
  [telnetCommandIac, telnetCommandSb, telnetOptionNaws] ++
    telnetEscapeIacPayload [(codec.cols >>> 8).toUInt8, codec.cols.toUInt8,
      (codec.rows >>> 8).toUInt8, codec.rows.toUInt8] ++
    [telnetCommandIac, telnetCommandSe]

def negotiationResponses (command option : UInt8) : List (List UInt8) :=
  if command = telnetCommandDo then
    if option ∈ [telnetOptionBinary, telnetOptionSuppressGoAhead, telnetOptionTerminalType,
        telnetOptionNaws] then
      [telnetCommandIac, telnetCommandWill, option] ::
        if option = telnetOptionNaws then [codec.nawsMessage] else []
    else [[telnetCommandIac, telnetCommandWont, option]]
  else if command = telnetCommandWill then
    if option ∈ [telnetOptionBinary, telnetOptionEcho, telnetOptionSuppressGoAhead] then
      [[telnetCommandIac, telnetCommandDo, option]]
    else [[telnetCommandIac, telnetCommandDont, option]]
  else if command = telnetCommandDont then [[telnetCommandIac, telnetCommandWont, option]]
  else if command = telnetCommandWont then [[telnetCommandIac, telnetCommandDont, option]]
  else []

/-- `subnegotiation_responses`, which asks nothing of the codec. -/
def subnegotiationResponses (bytes : List UInt8) : List (List UInt8) :=
  if bytes[0]? = some telnetOptionTerminalType ∧ bytes[1]? = some telnetTerminalTypeSend then
    [[telnetCommandIac, telnetCommandSb, telnetOptionTerminalType, telnetTerminalTypeIs] ++
      telnetTerminalType ++ [telnetCommandIac, telnetCommandSe]]
  else []

end TelnetCodec

/-- The inner loop of `filter_server_bytes`: a subnegotiation and what comes after it, or its last
    byte where it does not end. -/
@[grind] def splitSubnegotiation : List UInt8 → List UInt8 × List UInt8
  | byte :: next :: rest =>
    if byte = telnetCommandIac ∧ next = telnetCommandSe then ([], rest)
    else
      let (subnegotiation, after) := splitSubnegotiation (next :: rest)
      (byte :: subnegotiation, after)
  | rest => ([], rest)

theorem splitSubnegotiation_length : (splitSubnegotiation bytes).2.length ≤ bytes.length := by
  fun_induction splitSubnegotiation bytes with
  | case1 byte next rest h => simp only [List.length_cons]; omega
  | case2 byte next rest h subnegotiation after heq ih =>
    rw [heq] at ih
    simp only [List.length_cons] at ih ⊢
    omega
  | case3 rest => exact Nat.le_refl _

def isNegotiation (command : UInt8) : Bool :=
  command ∈ [telnetCommandDo, telnetCommandDont, telnetCommandWill, telnetCommandWont]

@[grind] def TelnetCodec.filterServerBytes (codec : TelnetCodec) : List UInt8 → Filtered
  | [] => ([], [])
  | byte :: rest =>
    if byte ≠ telnetCommandIac then
      let (data, responses) := codec.filterServerBytes rest
      (byte :: data, responses)
    else match rest with
      | [] => ([], [])
      | command :: rest =>
        if command = telnetCommandIac then
          let (data, responses) := codec.filterServerBytes rest
          (telnetCommandIac :: data, responses)
        else if isNegotiation command then
          match rest with
          | [] => ([], [])
          | option :: rest =>
            let (data, responses) := codec.filterServerBytes rest
            (data, codec.negotiationResponses command option ++ responses)
        else if command = telnetCommandSb then
          let (data, responses) := codec.filterServerBytes (splitSubnegotiation rest).2
          (data, TelnetCodec.subnegotiationResponses (splitSubnegotiation rest).1 ++ responses)
        else codec.filterServerBytes rest
  termination_by bytes => bytes.length
  decreasing_by
    all_goals
      simp only [List.length_cons]
      first
        | omega
        | exact Nat.lt_of_le_of_lt (splitSubnegotiation_length rest) (by omega)

/-- The read loop: one call a chunk. -/
def TelnetCodec.filterChunks (codec : TelnetCodec) (chunks : List (List UInt8)) : Filtered :=
  (chunks.flatMap fun chunk => (codec.filterServerBytes chunk).1,
    chunks.flatMap fun chunk => (codec.filterServerBytes chunk).2)

/-! ## 2. One call, case by case -/

namespace TelnetCodec

variable (codec : TelnetCodec)

theorem filterServerBytes_nil : codec.filterServerBytes [] = ([], []) := by
  rw [filterServerBytes]

theorem filterServerBytes_data {byte : UInt8} (h : byte ≠ telnetCommandIac) (rest : List UInt8) :
    codec.filterServerBytes (byte :: rest) =
      (byte :: (codec.filterServerBytes rest).1, (codec.filterServerBytes rest).2) := by
  rw [filterServerBytes.eq_def]
  dsimp only
  rw [if_pos h]

theorem filterServerBytes_iac : codec.filterServerBytes [telnetCommandIac] = ([], []) := by
  rw [filterServerBytes.eq_def]
  dsimp only
  rw [if_neg (by simp)]

theorem filterServerBytes_doubled (rest : List UInt8) :
    codec.filterServerBytes (telnetCommandIac :: telnetCommandIac :: rest) =
      (telnetCommandIac :: (codec.filterServerBytes rest).1, (codec.filterServerBytes rest).2) := by
  rw [filterServerBytes.eq_def]
  dsimp only
  rw [if_neg (by simp), if_pos rfl]

section

variable (hiac : command ≠ telnetCommandIac) (h : isNegotiation command = true)

include hiac h

theorem filterServerBytes_negotiation (option : UInt8) (rest : List UInt8) :
    codec.filterServerBytes (telnetCommandIac :: command :: option :: rest) =
      ((codec.filterServerBytes rest).1,
        codec.negotiationResponses command option ++ (codec.filterServerBytes rest).2) := by
  rw [filterServerBytes.eq_def]
  dsimp only
  rw [if_neg (by simp), if_neg hiac, if_pos h]

theorem filterServerBytes_negotiation_cut :
    codec.filterServerBytes [telnetCommandIac, command] = ([], []) := by
  rw [filterServerBytes.eq_def]
  dsimp only
  rw [if_neg (by simp), if_neg hiac, if_pos h]

end

theorem filterServerBytes_subnegotiation (rest : List UInt8) :
    codec.filterServerBytes (telnetCommandIac :: telnetCommandSb :: rest) =
      ((codec.filterServerBytes (splitSubnegotiation rest).2).1,
        subnegotiationResponses (splitSubnegotiation rest).1 ++
          (codec.filterServerBytes (splitSubnegotiation rest).2).2) := by
  rw [filterServerBytes.eq_def]
  dsimp only
  rw [if_neg (by simp), if_neg (by decide), if_neg (by decide), if_pos rfl]

theorem filterServerBytes_command {command : UInt8} (hiac : command ≠ telnetCommandIac)
    (h : isNegotiation command = false) (hsb : command ≠ telnetCommandSb) (rest : List UInt8) :
    codec.filterServerBytes (telnetCommandIac :: command :: rest) =
      codec.filterServerBytes rest := by
  rw [filterServerBytes.eq_def]
  dsimp only
  rw [if_neg (by simp), if_neg hiac, if_neg (by simp [h]), if_neg hsb]

end TelnetCodec

/-- How a call reads its bytes, command by command. -/
inductive Commands : List UInt8 → Prop where
  | nil : Commands []
  | data {byte : UInt8} {rest : List UInt8} (hbyte : byte ≠ telnetCommandIac)
      (hrest : Commands rest) : Commands (byte :: rest)
  | iacCut : Commands [telnetCommandIac]
  | doubled {rest : List UInt8} (hrest : Commands rest) :
      Commands (telnetCommandIac :: telnetCommandIac :: rest)
  | negotiation {command option : UInt8} {rest : List UInt8} (hiac : command ≠ telnetCommandIac)
      (hcommand : isNegotiation command = true) (hrest : Commands rest) :
      Commands (telnetCommandIac :: command :: option :: rest)
  | negotiationCut {command : UInt8} (hiac : command ≠ telnetCommandIac)
      (hcommand : isNegotiation command = true) : Commands [telnetCommandIac, command]
  | subnegotiation {rest : List UInt8} (hrest : Commands (splitSubnegotiation rest).2) :
      Commands (telnetCommandIac :: telnetCommandSb :: rest)
  | command {command : UInt8} {rest : List UInt8} (hiac : command ≠ telnetCommandIac)
      (hcommand : isNegotiation command = false) (hsb : command ≠ telnetCommandSb)
      (hrest : Commands rest) : Commands (telnetCommandIac :: command :: rest)

theorem commands : Commands bytes := by
  induction hn : bytes.length using Nat.strongRecOn generalizing bytes with
  | ind n ih =>
    subst hn
    cases bytes with
    | nil => exact .nil
    | cons byte rest =>
      by_cases hbyte : byte = telnetCommandIac
      · subst hbyte
        cases rest with
        | nil => exact .iacCut
        | cons command rest =>
          have hrest : Commands rest := ih _ (by simp only [List.length_cons]; omega) _ rfl
          by_cases hiac : command = telnetCommandIac
          · subst hiac
            exact .doubled hrest
          · cases hcommand : isNegotiation command with
            | true =>
              cases rest with
              | nil => exact .negotiationCut hiac hcommand
              | cons option rest =>
                exact .negotiation hiac hcommand
                  (ih _ (by simp only [List.length_cons]; omega) _ rfl)
            | false =>
              by_cases hsb : command = telnetCommandSb
              · subst hsb
                have hlength := splitSubnegotiation_length rest
                exact .subnegotiation (ih _ (by simp only [List.length_cons]; omega) _ rfl)
              · exact .command hiac hcommand hsb hrest
      · exact .data hbyte (ih _ (by simp only [List.length_cons]; omega) _ rfl)

/-! ## 3. Cuts between commands -/

theorem TelnetCodec.filterChunks_cons (codec : TelnetCodec) (chunk : List UInt8)
    (chunks : List (List UInt8)) :
    codec.filterChunks (chunk :: chunks) =
      ((codec.filterServerBytes chunk).1 ++ (codec.filterChunks chunks).1,
        (codec.filterServerBytes chunk).2 ++ (codec.filterChunks chunks).2) := rfl

/-! ## 4. All cuts -/

section Cuts

variable (codec : TelnetCodec) (bytes : List UInt8)

theorem splitSubnegotiation_suffix : (splitSubnegotiation bytes).2 <:+ bytes := by
  fun_induction splitSubnegotiation bytes with
  | case1 byte next rest _ => exact ⟨[byte, next], rfl⟩
  | case2 byte next rest _ subnegotiation after heq ih =>
    rw [heq] at ih
    exact ih.trans (List.suffix_cons _ _)
  | case3 rest => exact List.suffix_refl _

theorem countP_data_le :
    (codec.filterServerBytes bytes).1.countP (· ≠ telnetCommandIac) ≤
      bytes.countP (· ≠ telnetCommandIac) := by
  induction commands bytes with
  | nil => exact Nat.le_of_eq (by rw [TelnetCodec.filterServerBytes_nil])
  | data hbyte _ ih =>
    rw [codec.filterServerBytes_data hbyte]
    simp only [List.countP_cons]
    omega
  | iacCut =>
    rw [TelnetCodec.filterServerBytes_iac]
    exact Nat.zero_le _
  | doubled _ ih =>
    rw [TelnetCodec.filterServerBytes_doubled]
    simp only [List.countP_cons]
    omega
  | negotiation hiac hcommand _ ih =>
    rw [codec.filterServerBytes_negotiation hiac hcommand]
    simp only [List.countP_cons]
    omega
  | negotiationCut hiac hcommand =>
    rw [codec.filterServerBytes_negotiation_cut hiac hcommand]
    exact Nat.zero_le _
  | @subnegotiation rest _ ih =>
    rw [TelnetCodec.filterServerBytes_subnegotiation]
    have hrest := (splitSubnegotiation_suffix rest).sublist.countP_le (p := (· ≠ telnetCommandIac))
    simp only [List.countP_cons]
    omega
  | command hiac hcommand hsb _ ih =>
    rw [codec.filterServerBytes_command hiac hcommand hsb]
    simp only [List.countP_cons]
    omega

theorem flatten_bytes : (bytes.map fun byte => [byte]).flatten = bytes := by
  induction bytes with
  | nil => rfl
  | cons byte bytes ih => rw [List.map_cons, List.flatten_cons, ih]; rfl

/-- Cut into single bytes, a stream loses its command bytes and nothing else. -/
theorem filterChunks_bytes :
    codec.filterChunks (bytes.map fun byte => [byte]) =
      (bytes.filter (· ≠ telnetCommandIac), []) := by
  induction bytes with
  | nil => rfl
  | cons byte bytes ih =>
    rw [List.map_cons, TelnetCodec.filterChunks_cons, ih]
    by_cases hbyte : byte = telnetCommandIac
    · subst hbyte
      rw [TelnetCodec.filterServerBytes_iac]
      simp
    · rw [codec.filterServerBytes_data hbyte, TelnetCodec.filterServerBytes_nil]
      simp [hbyte]

theorem filterServerBytes_plain {bytes : List UInt8} (h : telnetCommandIac ∉ bytes.dropLast) :
    codec.filterServerBytes bytes = (bytes.filter (· ≠ telnetCommandIac), []) := by
  induction bytes with
  | nil => rw [TelnetCodec.filterServerBytes_nil]; rfl
  | cons byte rest ih =>
    cases rest with
    | nil =>
      have hone := filterChunks_bytes codec [byte]
      rw [List.map_singleton, TelnetCodec.filterChunks_cons] at hone
      simpa [TelnetCodec.filterChunks, Prod.ext_iff] using hone
    | cons next rest =>
      rw [List.dropLast_cons_cons, List.mem_cons, not_or] at h
      have hbyte : byte ≠ telnetCommandIac := Ne.symm h.1
      rw [codec.filterServerBytes_data hbyte, ih h.2]
      simp [hbyte]

theorem filterChunks_plain {chunks : List (List UInt8)}
    (h : telnetCommandIac ∉ chunks.flatten.dropLast) :
    codec.filterChunks chunks = (chunks.flatten.filter (· ≠ telnetCommandIac), []) := by
  induction chunks with
  | nil => rfl
  | cons chunk chunks ih =>
    rw [List.flatten_cons] at h
    have hchunk : telnetCommandIac ∉ chunk.dropLast := by
      intro hmem
      by_cases hrest : chunks.flatten = []
      · rw [hrest, List.append_nil] at h
        exact h hmem
      · rw [List.dropLast_append_of_ne_nil hrest] at h
        exact h (List.mem_append.mpr (.inl (List.dropLast_subset _ hmem)))
    have hrest : telnetCommandIac ∉ chunks.flatten.dropLast := by
      intro hmem
      have hne : chunks.flatten ≠ [] := by
        intro hnil
        rw [hnil] at hmem
        cases hmem
      rw [List.dropLast_append_of_ne_nil hne] at h
      exact h (List.mem_append.mpr (.inr hmem))
    rw [TelnetCodec.filterChunks_cons, filterServerBytes_plain codec hchunk, ih hrest,
      List.flatten_cons, List.filter_append, List.nil_append]

theorem data_ne_of_command {bytes : List UInt8} (h : telnetCommandIac ∈ bytes.dropLast) :
    (codec.filterServerBytes bytes).1 ≠ bytes.filter (· ≠ telnetCommandIac) := by
  induction bytes with
  | nil => cases h
  | cons byte rest ih =>
    by_cases hbyte : byte = telnetCommandIac
    · subst hbyte
      intro heq
      have hcount : (codec.filterServerBytes (telnetCommandIac :: rest)).1.countP
          (· ≠ telnetCommandIac) = rest.countP (· ≠ telnetCommandIac) := by
        rw [heq, List.countP_filter]
        simp
      cases commands (telnetCommandIac :: rest) with
      | data hbyte _ => exact hbyte rfl
      | iacCut => cases h
      | @doubled rest _ =>
        rw [TelnetCodec.filterServerBytes_doubled] at heq
        have hmem : telnetCommandIac ∈ telnetCommandIac :: (codec.filterServerBytes rest).1 :=
          List.mem_cons_self
        rw [show telnetCommandIac :: (codec.filterServerBytes rest).1 = _ from heq] at hmem
        simp at hmem
      | @negotiation command option rest hiac hcommand _ =>
        rw [codec.filterServerBytes_negotiation hiac hcommand] at hcount
        have hle := countP_data_le codec rest
        rw [List.countP_cons_of_pos (by simpa using hiac), List.countP_cons] at hcount
        dsimp only at hcount
        omega
      | negotiationCut hiac hcommand =>
        rw [codec.filterServerBytes_negotiation_cut hiac hcommand] at hcount
        simp [hiac] at hcount
      | @subnegotiation rest _ =>
        rw [TelnetCodec.filterServerBytes_subnegotiation] at hcount
        have hle := countP_data_le codec (splitSubnegotiation rest).2
        have hrest := (splitSubnegotiation_suffix rest).sublist.countP_le
          (p := (· ≠ telnetCommandIac))
        rw [List.countP_cons_of_pos (by decide)] at hcount
        dsimp only at hcount
        omega
      | @command command rest hiac hcommand hsb _ =>
        rw [codec.filterServerBytes_command hiac hcommand hsb] at hcount
        have hle := countP_data_le codec rest
        rw [List.countP_cons_of_pos (by simpa using hiac)] at hcount
        omega
    · rw [codec.filterServerBytes_data hbyte]
      cases rest with
      | nil => cases h
      | cons next rest =>
        rw [List.dropLast_cons_cons, List.mem_cons] at h
        have hrest := h.resolve_left (Ne.symm hbyte)
        intro heq
        rw [List.filter_cons_of_pos (by simpa using hbyte)] at heq
        exact ih hrest (List.cons.inj heq).2

end Cuts

/-- **Every way of cutting a stream gives the same exactly if the stream has no command byte before
    its last byte.** -/
theorem filterChunks_independent_iff (codec : TelnetCodec) (bytes : List UInt8) :
    (∀ chunks : List (List UInt8), chunks.flatten = bytes →
      codec.filterChunks chunks = codec.filterServerBytes bytes) ↔
      telnetCommandIac ∉ bytes.dropLast := by
  constructor
  · intro h hmem
    have hbytes := h (bytes.map fun byte => [byte]) (flatten_bytes bytes)
    rw [filterChunks_bytes] at hbytes
    exact data_ne_of_command codec hmem (congrArg Prod.fst hbytes).symm
  · rintro h chunks rfl
    rw [filterChunks_plain codec h, filterServerBytes_plain codec h]

/-- A request for the window size that is cut before its option is not answered, and the option is
    shown. -/
theorem cut_negotiation_is_shown :
    ¬ ∀ chunks : List (List UInt8),
      chunks.flatten = [telnetCommandIac, telnetCommandDo, telnetOptionNaws] →
      (⟨80, 24⟩ : TelnetCodec).filterChunks chunks = (⟨80, 24⟩ : TelnetCodec).filterServerBytes
        [telnetCommandIac, telnetCommandDo, telnetOptionNaws] := by
  intro h
  have hcut := h [[telnetCommandIac, telnetCommandDo], [telnetOptionNaws]] rfl
  have hchunks : (⟨80, 24⟩ : TelnetCodec).filterChunks
      [[telnetCommandIac, telnetCommandDo], [telnetOptionNaws]] = ([telnetOptionNaws], []) := by
    rw [TelnetCodec.filterChunks_cons, TelnetCodec.filterChunks_cons,
      TelnetCodec.filterServerBytes_negotiation_cut _ (by decide) (by decide),
      TelnetCodec.filterServerBytes_data _ (by decide), TelnetCodec.filterServerBytes_nil]
    rfl
  have hwhole : (⟨80, 24⟩ : TelnetCodec).filterServerBytes
      [telnetCommandIac, telnetCommandDo, telnetOptionNaws] =
        ([], [[telnetCommandIac, telnetCommandWill, telnetOptionNaws],
          [telnetCommandIac, telnetCommandSb, telnetOptionNaws, 0, 80, 0, 24, telnetCommandIac,
            telnetCommandSe]]) := by
    rw [TelnetCodec.filterServerBytes_negotiation _ (by decide) (by decide),
      TelnetCodec.filterServerBytes_nil]
    decide
  rw [hchunks, hwhole] at hcut
  cases hcut

end Hapcli.Terminal

/-
  Subject:   What `TelnetCodec` doubles when it writes, and what `filter_server_bytes` makes of it.

  The data stream is parted again exactly (`filterServerBytes_encode`). A subnegotiation is not: the
  loop that looks for its end knows no doubled command byte, so the second half of one is taken for
  the first byte of the end mark.

  * **`escaping_iff`** -- the messages that are consumed whole, those with the window size among them.
-/
import Hapcli.Terminal.Telnet

namespace Hapcli.Terminal

/-! ## 1. Messages -/

def TelnetCodec.encodeClientData (_codec : TelnetCodec) (bytes : List UInt8) : List UInt8 :=
  telnetEscapeIacPayload bytes

/-- A subnegotiation, as `naws_message` writes it. -/
def subnegotiationMessage (option : UInt8) (payload : List UInt8) : List UInt8 :=
  [telnetCommandIac, telnetCommandSb, option] ++ telnetEscapeIacPayload payload ++
    [telnetCommandIac, telnetCommandSe]

/-- The payload of `naws_message`. -/
def TelnetCodec.windowBytes (codec : TelnetCodec) : List UInt8 :=
  [(codec.cols >>> 8).toUInt8, codec.cols.toUInt8, (codec.rows >>> 8).toUInt8, codec.rows.toUInt8]

theorem nawsMessage_eq (codec : TelnetCodec) :
    codec.nawsMessage = subnegotiationMessage telnetOptionNaws codec.windowBytes := rfl

/-- The mark that ends a subnegotiation. -/
def endMark : List UInt8 := [telnetCommandIac, telnetCommandSe]

/-- **The message is consumed whole**: whatever follows it, the loop takes option and payload for the
    subnegotiation and goes on behind the message, which adds no data. -/
structure ConsumedWhole (codec : TelnetCodec) (option : UInt8) (payload : List UInt8) : Prop where
  whole : ∀ later, splitSubnegotiation (option :: telnetEscapeIacPayload payload ++ endMark ++ later) =
    (option :: telnetEscapeIacPayload payload, later)
  noData : ∀ later, (codec.filterServerBytes (subnegotiationMessage option payload ++ later)).1 =
    (codec.filterServerBytes later).1

/-! ## 2. Doubled bytes -/

section Doubling

variable {byte option : UInt8} {bytes payload : List UInt8}

theorem escape_cons_iac (bytes : List UInt8) : telnetEscapeIacPayload (telnetCommandIac :: bytes) =
    telnetCommandIac :: telnetCommandIac :: telnetEscapeIacPayload bytes := rfl

theorem escape_cons (h : byte ≠ telnetCommandIac) (bytes : List UInt8) :
    telnetEscapeIacPayload (byte :: bytes) = byte :: telnetEscapeIacPayload bytes := by
  unfold telnetEscapeIacPayload
  rw [List.flatMap_cons, if_neg h]
  rfl

theorem filterServerBytes_escape (codec : TelnetCodec) (bytes later : List UInt8) :
    codec.filterServerBytes (telnetEscapeIacPayload bytes ++ later) =
      (bytes ++ (codec.filterServerBytes later).1, (codec.filterServerBytes later).2) := by
  induction bytes with
  | nil => rfl
  | cons byte bytes ih =>
    by_cases hbyte : byte = telnetCommandIac
    · subst hbyte
      rw [escape_cons_iac, List.cons_append, List.cons_append,
        TelnetCodec.filterServerBytes_doubled, ih]
      rfl
    · rw [escape_cons hbyte, List.cons_append, codec.filterServerBytes_data hbyte, ih]
      rfl

theorem filterServerBytes_encode (codec reader : TelnetCodec) (bytes : List UInt8) :
    reader.filterServerBytes (codec.encodeClientData bytes) = (bytes, []) := by
  have h := filterServerBytes_escape reader bytes []
  rwa [List.append_nil, TelnetCodec.filterServerBytes_nil, List.append_nil] at h

theorem endMark_infix_cons {next : UInt8} : endMark <:+: option :: next :: bytes ↔
    (option = telnetCommandIac ∧ next = telnetCommandSe) ∨ endMark <:+: next :: bytes := by
  rw [List.infix_cons_iff, endMark, List.cons_prefix_cons, List.cons_prefix_cons]
  simp only [List.nil_prefix, and_true]
  exact or_congr (and_congr eq_comm eq_comm) Iff.rfl

theorem not_endMark_infix_singleton : ¬ endMark <:+: [option] := fun h => by
  have := h.length_le
  simp [endMark] at this

theorem endMark_infix_escape :
    endMark <:+: option :: telnetEscapeIacPayload payload ↔ endMark <:+: option :: payload := by
  induction payload generalizing option with
  | nil => exact Iff.rfl
  | cons byte payload ih =>
    by_cases hbyte : byte = telnetCommandIac
    · subst hbyte
      have hnot : ¬ (option = telnetCommandIac ∧ telnetCommandIac = telnetCommandSe) := by
        simp [telnetCommandIac, telnetCommandSe]
      have hnot' : ¬ (telnetCommandIac = telnetCommandIac ∧ telnetCommandIac = telnetCommandSe) := by
        simp [telnetCommandIac, telnetCommandSe]
      rw [escape_cons_iac, endMark_infix_cons, endMark_infix_cons, endMark_infix_cons,
        or_iff_right hnot, or_iff_right hnot', or_iff_right hnot]
      exact ih
    · rw [escape_cons hbyte, endMark_infix_cons, endMark_infix_cons, ih]

end Doubling

/-! ## 3. Where a subnegotiation ends -/

section Ends

variable {codec : TelnetCodec} {option : UInt8} {payload : List UInt8}

theorem split_end (later : List UInt8) : splitSubnegotiation (endMark ++ later) = ([], later) := by
  rw [endMark, List.cons_append, List.cons_append, splitSubnegotiation, if_pos ⟨rfl, rfl⟩]
  rfl

theorem split_step {byte next : UInt8} (rest : List UInt8)
    (h : ¬ (byte = telnetCommandIac ∧ next = telnetCommandSe)) :
    splitSubnegotiation (byte :: next :: rest) =
      (byte :: (splitSubnegotiation (next :: rest)).1, (splitSubnegotiation (next :: rest)).2) := by
  rw [splitSubnegotiation, if_neg h]

theorem split_whole {body : List UInt8} (h : ¬ endMark <:+: body) (later : List UInt8) :
    splitSubnegotiation (body ++ endMark ++ later) = (body, later) := by
  induction body with
  | nil => exact split_end later
  | cons byte rest ih =>
    have hrest : ¬ endMark <:+: rest := fun hinfix => h (List.infix_cons_iff.mpr (.inr hinfix))
    cases rest with
    | nil =>
      have hstep : ¬ (byte = telnetCommandIac ∧ telnetCommandIac = telnetCommandSe) := by
        simp [telnetCommandIac, telnetCommandSe]
      have hend := split_end later
      rw [endMark, List.cons_append] at hend
      rw [endMark, List.cons_append, List.nil_append, List.cons_append, List.cons_append,
        split_step _ hstep, hend]
    | cons next rest =>
      have hstep := fun hboth => h ((endMark_infix_cons).mpr (.inl hboth))
      have hnext := ih hrest
      simp only [List.cons_append] at hnext ⊢
      rw [split_step _ hstep, hnext]

/-- Behind an end mark in the payload, all that is left of it is still there. -/
theorem split_cutShort (h : endMark <:+: option :: payload) (later : List UInt8) :
    (splitSubnegotiation (option :: telnetEscapeIacPayload payload ++ later)).2 =
      telnetEscapeIacPayload (splitSubnegotiation (option :: payload)).2 ++ later := by
  induction payload generalizing option with
  | nil => exact absurd h not_endMark_infix_singleton
  | cons byte payload ih =>
    by_cases hbyte : byte = telnetCommandIac
    · subst hbyte
      have hnot : ∀ first, ¬ (first = telnetCommandIac ∧ telnetCommandIac = telnetCommandSe) := by
        simp [telnetCommandIac, telnetCommandSe]
      have hinfix := ((endMark_infix_cons).mp h).resolve_left (hnot option)
      have hrest := ih hinfix
      rw [List.cons_append] at hrest
      rw [escape_cons_iac, List.cons_append, List.cons_append, List.cons_append,
        split_step _ (hnot option), split_step _ (hnot telnetCommandIac), split_step _ (hnot option)]
      exact hrest
    · rw [escape_cons hbyte, List.cons_append, List.cons_append]
      by_cases hend : option = telnetCommandIac ∧ byte = telnetCommandSe
      · rw [splitSubnegotiation, if_pos hend, splitSubnegotiation, if_pos hend]
      · have hrest := ih (((endMark_infix_cons).mp h).resolve_left hend)
        rw [List.cons_append] at hrest
        rw [split_step _ hend, split_step _ hend]
        exact hrest

theorem filterServerBytes_message (later : List UInt8) :
    codec.filterServerBytes (subnegotiationMessage option payload ++ later) =
      ((codec.filterServerBytes (splitSubnegotiation
          (option :: telnetEscapeIacPayload payload ++ endMark ++ later)).2).1,
        TelnetCodec.subnegotiationResponses (splitSubnegotiation
          (option :: telnetEscapeIacPayload payload ++ endMark ++ later)).1 ++
        (codec.filterServerBytes (splitSubnegotiation
          (option :: telnetEscapeIacPayload payload ++ endMark ++ later)).2).2) :=
  codec.filterServerBytes_subnegotiation _

theorem filterServerBytes_endMark (later : List UInt8) :
    codec.filterServerBytes (endMark ++ later) = codec.filterServerBytes later :=
  codec.filterServerBytes_command (by decide) (by decide) (by decide) later

/-- A message that is cut short: what the payload has behind the end mark is data. -/
theorem filterServerBytes_cutShort (h : endMark <:+: option :: payload) (later : List UInt8) :
    (codec.filterServerBytes (subnegotiationMessage option payload ++ later)).1 =
      (splitSubnegotiation (option :: payload)).2 ++ (codec.filterServerBytes later).1 := by
  rw [filterServerBytes_message, List.append_assoc, split_cutShort h, filterServerBytes_escape,
    filterServerBytes_endMark]

/-- The messages that are consumed whole are those without an end mark in option and payload. -/
theorem consumedWhole_iff : ConsumedWhole codec option payload ↔ ¬ endMark <:+: option ::
    payload := by
  constructor
  · intro hwhole hinfix
    have hend := congrArg Prod.snd (hwhole.whole [])
    rw [List.append_assoc, split_cutShort hinfix] at hend
    simp [endMark] at hend
  · intro hnone
    have hwhole := split_whole (mt (endMark_infix_escape).mp hnone)
    refine ⟨hwhole, fun later => ?_⟩
    rw [filterServerBytes_message, hwhole]

end Ends

/-- **Escaping**: which subnegotiations are consumed whole, those with the window size among them;
    and the data that is sent is the data that is read. -/
theorem escaping_iff (reader : TelnetCodec) :
    (∀ option payload, ConsumedWhole reader option payload ↔ ¬ endMark <:+: option :: payload) ∧
    (∀ codec : TelnetCodec, codec.nawsMessage =
        subnegotiationMessage telnetOptionNaws codec.windowBytes ∧
      (ConsumedWhole reader telnetOptionNaws codec.windowBytes ↔ ¬ endMark <:+: codec.windowBytes)) ∧
    ∀ (codec : TelnetCodec) (bytes : List UInt8),
      reader.filterServerBytes (codec.encodeClientData bytes) = (bytes, []) := by
  refine ⟨fun option payload => consumedWhole_iff, fun codec => ⟨nawsMessage_eq codec, ?_⟩,
    fun codec bytes => filterServerBytes_encode codec reader bytes⟩
  rw [consumedWhole_iff, TelnetCodec.windowBytes, endMark_infix_cons, or_iff_right]
  exact fun hboth => absurd hboth.1 (by decide)

/-- A window of 255 columns and 61441 rows: the last byte of its size is shown. -/
theorem window_is_shown :
    ((⟨80, 24⟩ : TelnetCodec).filterServerBytes (⟨255, 61441⟩ : TelnetCodec).nawsMessage).1 = [1] ∧
      ¬ ConsumedWhole ⟨80, 24⟩ telnetOptionNaws (⟨255, 61441⟩ : TelnetCodec).windowBytes := by
  have hinfix : endMark <:+: telnetOptionNaws :: (⟨255, 61441⟩ : TelnetCodec).windowBytes :=
    ⟨[31, 0], [1], by decide⟩
  have hsplit : (splitSubnegotiation
      (telnetOptionNaws :: (⟨255, 61441⟩ : TelnetCodec).windowBytes)).2 = [1] := by decide
  have hdata := @filterServerBytes_cutShort ⟨80, 24⟩ _ _ hinfix []
  rw [List.append_nil, ← nawsMessage_eq, hsplit, TelnetCodec.filterServerBytes_nil] at hdata
  exact ⟨hdata, fun hwhole => (consumedWhole_iff).mp hwhole hinfix⟩

end Hapcli.Terminal

/-
  Subject:   What the stream filter records and what it passes on (`shell_integration.rs`), against
             the framing of the stream.

  Private are the OSC sequences with the code 7719. What the filter holds between two bytes is the
  tail of the framing; what it has recorded are the pieces without the private ones.

  * `Follows.stepByte` -- **a byte moves the framing and the filter alike**;
  * `recording_privacy` -- **what the chunks of a stream leave in the recording**.
-/
import Hapcli.Terminal.ShellFilter
import Mathlib.Data.List.Induction

namespace Hapcli.Terminal

open Hapcli.Rust

/-! ## 1. Payloads that are consumed -/

def consumesText (code data : Str) : Bool :=
  code == hapcliRemoteMetadataOsc || (code == "7".toList && (parseOsc7Cwd data).isSome) ||
    code == "133".toList || code == "633".toList ||
    (code == "1337".toList && (parseOsc1337Cwd data).isSome)

/-- The answer of `handle_osc_payload`: it depends on the payload alone. -/
def consumesOsc (payload : List UInt8) : Bool :=
  match fromUtf8 payload with
  | .error _ => isPrivateHapcliOsc payload
  | .ok text =>
    match splitOnce text [';'] with
    | none => false
    | some (code, data) => consumesText code data

theorem World.handleOscText_fst {T : Type} [Term T] (clock : Nat → Readings) (w : World T)
    (code data : Str) : (w.handleOscText clock code data).1 = consumesText code data := by
  unfold World.handleOscText consumesText
  by_cases hprivate : code = hapcliRemoteMetadataOsc
  · rw [if_pos hprivate]
    simp only [hprivate, beq_self_eq_true, Bool.true_or]
    split
    · rfl
    · rfl
    · split
      · rfl
      · rfl
  rw [if_neg hprivate]
  by_cases h7 : code = "7".toList
  · subst h7
    cases parseOsc7Cwd data with
    | none => rfl
    | some cwd => rfl
  rw [if_neg h7]
  by_cases h633 : code = "633".toList
  · subst h633
    rw [if_pos rfl]
    cases parseOsc633Cwd data with
    | some cwd => rfl
    | none =>
      rw [if_neg (by decide), if_pos rfl]
      dsimp only
      cases parseShellIntegrationEvent .osc633 data (cursorPosition w.term) with
      | none => rfl
      | some event => rfl
  by_cases h133 : code = "133".toList
  · subst h133
    rw [if_neg h633, if_neg (by decide), if_pos rfl]
    dsimp only
    cases parseShellIntegrationEvent .osc133 data (cursorPosition w.term) with
    | none => rfl
    | some event => rfl
  by_cases h1337 : code = "1337".toList
  · subst h1337
    cases parseOsc1337Cwd data with
    | some cwd => rfl
    | none => rfl
  · rw [if_neg h633, if_neg h1337]
    rw [if_neg h133, if_neg h633]
    simp only [beq_eq_false_iff_ne.mpr hprivate, beq_eq_false_iff_ne.mpr h7,
      beq_eq_false_iff_ne.mpr h633, beq_eq_false_iff_ne.mpr h133, beq_eq_false_iff_ne.mpr h1337]
    rfl

theorem World.handleOscPayload_fst {T : Type} [Term T] (clock : Nat → Readings) (w : World T)
    (payload : List UInt8) : (w.handleOscPayload clock payload).1 = consumesOsc payload := by
  unfold World.handleOscPayload consumesOsc
  cases fromUtf8 payload with
  | error message => rfl
  | ok text =>
    dsimp only
    cases splitOnce text [';'] with
    | none => rfl
    | some parts => exact World.handleOscText_fst clock w parts.1 parts.2

variable {payload : List UInt8}

theorem consumesOsc_private (h : isPrivateHapcliOsc payload = true) :
    consumesOsc payload = true := by
  obtain ⟨rest, hrest⟩ := List.isPrefixOf_iff_prefix.mp h
  have hfront : payload = asBytes (hapcliRemoteMetadataOsc ++ [';']) ++ rest := by
    rw [← hrest, asBytes_append]
    rfl
  unfold consumesOsc
  split
  · exact h
  · rename_i text htext
    rw [fromUtf8, hfront, fromUtf8Aux_asBytes] at htext
    cases hdata : fromUtf8Aux (0 + (asBytes (hapcliRemoteMetadataOsc ++ [';'])).length) 0 rest with
    | error message =>
      rw [hdata] at htext
      cases htext
    | ok data =>
      rw [hdata] at htext
      cases htext
      have hsplit : splitOnce (hapcliRemoteMetadataOsc ++ ';' :: data) [';'] =
          some (hapcliRemoteMetadataOsc, data) := splitOnce_front (by decide)
      rw [← List.singleton_append, ← List.append_assoc] at hsplit
      rw [hsplit]
      rfl

/-! ## 2. What a capture holds -/

/-- The capture after the bytes of a payload. -/
def captureOf (payload : List UInt8) : OscCapture := payload.foldl OscCapture.pushPayloadByte .new

theorem captureOf_concat (payload : List UInt8) (byte : UInt8) :
    captureOf (payload ++ [byte]) = (captureOf payload).pushPayloadByte byte := by
  simp [captureOf]

theorem isPrivate_take (payload : List UInt8) :
    isPrivateHapcliOsc (payload.take oscLimit) = isPrivateHapcliOsc payload := by
  have hlimit : (asBytes hapcliRemoteMetadataOsc ++ [0x3b]).length ≤ oscLimit := by decide
  rw [Bool.eq_iff_iff, isPrivateHapcliOsc, isPrivateHapcliOsc, List.isPrefixOf_iff_prefix,
    List.isPrefixOf_iff_prefix, List.prefix_take_iff]
  exact and_iff_left hlimit

theorem isPrivate_append (h : isPrivateHapcliOsc payload = true) (more : List UInt8) :
    isPrivateHapcliOsc (payload ++ more) = true := by
  rw [isPrivateHapcliOsc, List.isPrefixOf_iff_prefix] at h ⊢
  exact h.trans (List.prefix_append payload more)

/-- **What a capture holds**: the payload up to the limit, whether it is private, and all of a public
    sequence. -/
structure Captured (bytes : List UInt8) (capture : OscCapture) : Prop where
  payload : capture.payload = bytes.take oscLimit
  isPrivate : capture.isPrivate = isPrivateHapcliOsc bytes
  raw : isPrivateHapcliOsc bytes = false → capture.raw = esc :: bracket :: bytes
  complete : capture.complete = false
  pendingEscape : capture.pendingEscape = false

theorem Captured.push {capture : OscCapture} (h : Captured payload capture) (byte : UInt8) :
    Captured (payload ++ [byte]) (capture.pushPayloadByte byte) := by
  have hraw : isPrivateHapcliOsc (payload ++ [byte]) = false →
      (if !capture.isPrivate then capture.raw ++ [byte] else capture.raw) =
        esc :: bracket :: (payload ++ [byte]) := by
    intro hpublic
    have hbefore : isPrivateHapcliOsc payload = false := by
      by_contra hprivate
      rw [isPrivate_append (by simpa using hprivate)] at hpublic
      cases hpublic
    simp [h.isPrivate, hbefore, h.raw hbefore]
  have hlength : (payload.take oscLimit).length = min oscLimit payload.length := List.length_take
  unfold OscCapture.pushPayloadByte
  by_cases hroom : capture.payload.length < oscLimit
  · rw [if_pos hroom]
    rw [h.payload] at hroom
    have htake : payload.take oscLimit = payload := List.take_of_length_le (by omega)
    have hpushed : capture.payload ++ [byte] = payload ++ [byte] := by rw [h.payload, htake]
    refine ⟨?_, by rw [hpushed], hraw, h.complete, h.pendingEscape⟩
    rw [hpushed, List.take_of_length_le]
    simp only [List.length_append, List.length_singleton]
    omega
  · rw [if_neg hroom]
    rw [h.payload] at hroom
    have htake : (payload ++ [byte]).take oscLimit = payload.take oscLimit :=
      List.take_append_of_le_length (by omega)
    refine ⟨h.payload.trans htake.symm, ?_, hraw, h.complete, h.pendingEscape⟩
    rw [h.isPrivate, ← isPrivate_take (payload ++ [byte]), htake, isPrivate_take]

theorem captured (payload : List UInt8) : Captured payload (captureOf payload) := by
  induction payload using List.reverseRecOn with
  | nil => exact ⟨rfl, rfl, fun _ => rfl, rfl, rfl⟩
  | append_singleton payload byte ih =>
    rw [captureOf_concat]
    exact ih.push byte

/-! ## 3. The filter follows the framing -/

/-- What may be recorded of a piece: all but a private sequence. -/
def Piece.recorded : Piece → List UInt8
  | .single byte => [byte]
  | .osc payload terminator =>
    if isPrivateHapcliOsc payload then [] else Piece.bytes (.osc payload terminator)

/-- What the parser gets of a piece: all but a sequence that is consumed. -/
def Piece.passedOn : Piece → List UInt8
  | .single byte => [byte]
  | .osc payload terminator =>
    if consumesOsc (payload.take oscLimit) then [] else Piece.bytes (.osc payload terminator)

/-- The escape that may wait at the end of an open payload. -/
def heldEscape (pending : Bool) : List UInt8 := if pending then [esc] else []

variable {tail : List UInt8}

namespace World

variable {T : Type}

/-- What the filter holds back is this tail of a framing. -/
inductive Holds (w : World T) : List UInt8 → Prop
  | nothing (hosc : w.integration.pendingOsc = none) (hescape : w.integration.pendingEscape = false) :
      Holds w []
  | escape (hosc : w.integration.pendingOsc = none) (hescape : w.integration.pendingEscape = true) :
      Holds w [esc]
  | osc (payload : List UInt8) (pending : Bool)
      (hosc : w.integration.pendingOsc =
        some { captureOf payload with pendingEscape := pending })
      (hescape : w.integration.pendingEscape = false)
      (hopen : cutPayload (payload ++ heldEscape pending) = none)
      (hlast : pending = false → payload.getLast? ≠ some esc) :
      Holds w (esc :: bracket :: (payload ++ heldEscape pending))

variable {w : World T}

theorem Holds.frame_eq (h : w.Holds tail) : frame tail = ([], tail) := by
  cases h with
  | nothing => exact frame_nil
  | escape => exact frame_esc
  | osc payload pending hosc hescape hopen hlast => exact frame_open hopen

/-- These pieces were recorded and passed on. -/
structure Moved (w w' : World T) (pieces : List Piece) : Prop where
  recordable : w'.recordable = w.recordable ++ pieces.flatMap Piece.recorded
  parsed : w'.parsed = w.parsed ++ pieces.flatMap Piece.passedOn

theorem Moved.trans {w' w'' : World T} {pieces pieces' : List Piece} (h : Moved w w' pieces)
    (h' : Moved w' w'' pieces') : Moved w w'' (pieces ++ pieces') where
  recordable := by rw [h'.recordable, h.recordable, List.append_assoc, List.flatMap_append]
  parsed := by rw [h'.parsed, h.parsed, List.append_assoc, List.flatMap_append]

theorem moved_nothing {w' : World T} (hrecordable : w'.recordable = w.recordable)
    (hparsed : w'.parsed = w.parsed) : Moved w w' [] :=
  ⟨by simpa using hrecordable, by simpa using hparsed⟩

theorem clears_logs (clock : Nat → Readings) (count : Nat) (w : World T) :
    ((clearSavedHistory clock)^[count] w).recordable = w.recordable ∧
      ((clearSavedHistory clock)^[count] w).parsed = w.parsed := by
  induction count generalizing w with
  | zero => exact ⟨rfl, rfl⟩
  | succ count ih => exact ih (w.clearSavedHistory clock)

variable [Term T] (clock : Nat → Readings)

theorem advanceTerminalBytes_logs (w : World T) (bytes : List UInt8) :
    (w.advanceTerminalBytes clock bytes).recordable = w.recordable ++ bytes ∧
      (w.advanceTerminalBytes clock bytes).parsed = w.parsed ++ bytes := by
  exact clears_logs clock _ _

theorem moved_single (w : World T) (byte : UInt8) :
    Moved w (w.advanceTerminalBytes clock [byte]) [.single byte] := by
  have h := advanceTerminalBytes_logs clock w [byte]
  exact ⟨h.1, h.2⟩

/-- A complete sequence is recorded unless it is private, and passed on unless it is consumed. -/
theorem moved_complete (w : World T) (payload terminator : List UInt8) :
    Moved w (w.complete clock ((captureOf payload).finish terminator)) [.osc payload terminator] := by
  have hcaptured := captured payload
  have hpayload : ((captureOf payload).finish terminator).payload = payload.take oscLimit :=
    hcaptured.payload
  have hprivate : ((captureOf payload).finish terminator).isPrivate = isPrivateHapcliOsc payload :=
    hcaptured.isPrivate
  unfold complete
  dsimp only
  rw [handleOscPayload_fst, hpayload, hprivate]
  have hreports := reports_handleOscPayload clock
    (if !isPrivateHapcliOsc payload then
      (w.hold none).record ((captureOf payload).finish terminator).raw else w.hold none)
    (payload.take oscLimit)
  cases hcase : isPrivateHapcliOsc payload with
  | true =>
    have hconsumed : consumesOsc (payload.take oscLimit) = true :=
      consumesOsc_private (by rw [isPrivate_take]; exact hcase)
    rw [hcase] at hreports
    rw [hconsumed]
    exact ⟨hreports.recordable.trans (by simp [Piece.recorded, hcase, hold]),
      hreports.parsed.trans (by simp [Piece.passedOn, hconsumed, hold])⟩
  | false =>
    have hraw : ((captureOf payload).finish terminator).raw =
        Piece.bytes (.osc payload terminator) := by
      simp [OscCapture.finish, hcaptured.isPrivate, hcase, hcaptured.raw hcase, Piece.bytes]
    rw [hcase] at hreports
    cases hconsumed : consumesOsc (payload.take oscLimit) with
    | true =>
      exact ⟨hreports.recordable.trans (by simp [Piece.recorded, hcase, hold, record, hraw]),
        hreports.parsed.trans (by simp [Piece.passedOn, hconsumed, hold, record])⟩
    | false =>
      refine ⟨hreports.recordable.trans (by simp [Piece.recorded, hcase, hold, record, hraw]), ?_⟩
      simp only [Bool.not_false, if_true, parse, List.flatMap_singleton, Piece.passedOn, hconsumed,
        Bool.false_eq_true, if_false]
      rw [hraw] at hreports ⊢
      exact congrArg (· ++ _) hreports.parsed

theorem follows_groundByte (hosc : w.integration.pendingOsc = none)
    (hescape : w.integration.pendingEscape = false) (byte : UInt8) :
    (w.groundByte clock byte).Holds (frame [byte]).2 ∧
      Moved w (w.groundByte clock byte) (frame [byte]).1 := by
  unfold groundByte
  by_cases hbyte : byte = esc
  · rw [if_pos hbyte, hbyte, frame_esc]
    exact ⟨.escape hosc rfl, moved_nothing rfl rfl⟩
  · rw [if_neg hbyte, frame_single (.inl hbyte), frame_nil]
    have hspares := spares_advanceTerminalBytes clock w [byte]
    exact ⟨.nothing (hspares.pendingOsc.trans hosc) (hspares.pendingEscape.trans hescape),
      moved_single clock w byte⟩

theorem follows_escaped (hosc : w.integration.pendingOsc = none)
    (hescape : w.integration.pendingEscape = true) (byte : UInt8) :
    (w.stepByte clock byte).Holds (frame [esc, byte]).2 ∧
      Moved w (w.stepByte clock byte) (frame [esc, byte]).1 := by
  unfold stepByte
  rw [hosc]
  rw [if_pos hescape]
  by_cases hbyte : byte = bracket
  · rw [if_pos hbyte, hbyte, frame_open rfl]
    exact ⟨.osc [] false rfl rfl rfl (by simp), moved_nothing rfl rfl⟩
  · rw [if_neg hbyte, frame_single (.inr ⟨byte, [], rfl, hbyte⟩)]
    have hspares := spares_advanceTerminalBytes clock (w.holdEscape false) [esc]
    obtain ⟨hholds, hmoved⟩ := follows_groundByte clock (hspares.pendingOsc.trans hosc)
      (hspares.pendingEscape.trans rfl) byte
    have hfirst : Moved w ((w.holdEscape false).advanceTerminalBytes clock [esc]) [.single esc] := by
      have h := moved_single clock (w.holdEscape false) esc
      exact ⟨h.recordable, h.parsed⟩
    exact ⟨hholds, hfirst.trans hmoved⟩

theorem follows_finish (hescape : w.integration.pendingEscape = false)
    (payload terminator : List UInt8) :
    (w.deliver clock ((captureOf payload).finish terminator)).Holds [] ∧
      Moved w (w.deliver clock ((captureOf payload).finish terminator)) [.osc payload terminator] := by
  have hdeliver : w.deliver clock ((captureOf payload).finish terminator) =
      w.complete clock ((captureOf payload).finish terminator) := if_pos rfl
  have hspares := spares_complete clock w ((captureOf payload).finish terminator)
  exact ⟨.nothing hspares.pendingOsc (hspares.pendingEscape.trans hescape),
    moved_complete clock w payload terminator⟩

section

variable (hescape : w.integration.pendingEscape = false)

include hescape

theorem follows_open {pending : Bool} {capture : OscCapture}
    (hcapture : capture = { captureOf payload with pendingEscape := pending })
    (hopen : cutPayload (payload ++ heldEscape pending) = none)
    (hlast : pending = false → payload.getLast? ≠ some esc) :
    (w.deliver clock capture).Holds (esc :: bracket :: (payload ++ heldEscape pending)) ∧
      Moved w (w.deliver clock capture) [] := by
  have hcomplete : capture.complete = false := by
    rw [hcapture]
    exact (captured payload).complete
  have hdeliver : w.deliver clock capture = w.hold (some capture) := by
    simp [deliver, hcomplete]
  rw [hdeliver]
  exact ⟨.osc payload pending (by rw [← hcapture]; rfl) hescape hopen hlast, moved_nothing rfl rfl⟩

theorem follows_plainByte {byte : UInt8}
    (hcut : cutPayload (payload ++ [byte]) = if byte = bel then some (payload, [bel], []) else none) :
    (w.deliver clock ((captureOf payload).plainByte byte)).Holds
        (frame (esc :: bracket :: (payload ++ [byte]))).2 ∧
      Moved w (w.deliver clock ((captureOf payload).plainByte byte))
        (frame (esc :: bracket :: (payload ++ [byte]))).1 := by
  unfold OscCapture.plainByte
  by_cases hbel : byte = bel
  · rw [if_pos hbel] at hcut ⊢
    rw [frame_osc hcut, frame_nil]
    exact follows_finish clock hescape payload [bel]
  · rw [if_neg hbel] at hcut ⊢
    rw [frame_open hcut]
    by_cases hesc : byte = esc
    · rw [if_pos hesc, hesc]
      rw [hesc] at hcut
      exact follows_open clock hescape rfl hcut (by simp)
    · rw [if_neg hesc]
      have hpushed : (captureOf payload).pushPayloadByte byte =
          { captureOf (payload ++ [byte]) with pendingEscape := false } := by
        rw [captureOf_concat, ← (captured payload).pendingEscape,
          ← OscCapture.pushPayloadByte_pendingEscape _ byte]
      have hheld := follows_open clock hescape hpushed (by simpa [heldEscape] using hcut)
        (by simpa using hesc)
      simpa [heldEscape] using hheld

theorem follows_takeByte {pending : Bool}
    (hopen : cutPayload (payload ++ heldEscape pending) = none)
    (hlast : pending = false → payload.getLast? ≠ some esc) (byte : UInt8) :
    (w.deliver clock (({ captureOf payload with pendingEscape := pending } : OscCapture).takeByte
        byte)).Holds (frame (esc :: bracket :: (payload ++ heldEscape pending ++ [byte]))).2 ∧
      Moved w (w.deliver clock (({ captureOf payload with pendingEscape := pending } :
          OscCapture).takeByte byte))
        (frame (esc :: bracket :: (payload ++ heldEscape pending ++ [byte]))).1 := by
  have hcut := cutPayload_concat hopen byte
  have hplain := (captured payload).pendingEscape
  cases pending with
  | false =>
    have hsame : ({ captureOf payload with pendingEscape := false } : OscCapture) =
        captureOf payload := by rw [← hplain]
    simp only [heldEscape, Bool.false_eq_true, if_false, List.append_nil] at hcut ⊢
    rw [hsame, OscCapture.takeByte_plain hplain]
    have hno : ¬(payload.getLast? = some esc ∧ byte = backslash) := fun h => hlast rfl h.1
    rw [if_neg hno] at hcut
    exact follows_plainByte clock hescape hcut
  | true =>
    simp only [heldEscape, if_true] at hcut ⊢
    rw [OscCapture.takeByte_escaped hplain, ← captureOf_concat]
    by_cases hend : byte = backslash
    · have hbel : byte ≠ bel := by
        rw [hend]
        decide
      rw [if_neg hbel, if_pos ⟨by simp, hend⟩, List.dropLast_concat] at hcut
      rw [if_pos hend, frame_osc hcut, frame_nil]
      exact follows_finish clock hescape payload [esc, backslash]
    · have hno : ¬((payload ++ [esc]).getLast? = some esc ∧ byte = backslash) := fun h => hend h.2
      rw [if_neg hno] at hcut
      rw [if_neg hend]
      exact follows_plainByte clock hescape hcut

end

theorem Holds.stepByte (h : w.Holds tail) (byte : UInt8) :
    (w.stepByte clock byte).Holds (frame (tail ++ [byte])).2 ∧
      Moved w (w.stepByte clock byte) (frame (tail ++ [byte])).1 := by
  cases h with
  | nothing hosc hescape =>
    rw [stepByte_ground clock hosc hescape]
    exact follows_groundByte clock hosc hescape byte
  | escape hosc hescape => exact follows_escaped clock hosc hescape byte
  | osc payload pending hosc hescape hopen hlast =>
    have hstep : w.stepByte clock byte = w.deliver clock
        (({ captureOf payload with pendingEscape := pending } : OscCapture).takeByte byte) := by
      simp only [World.stepByte, hosc]
    rw [hstep]
    exact follows_takeByte clock hescape hopen hlast byte

theorem Holds.foldl (h : w.Holds tail) (bytes : List UInt8) :
    (bytes.foldl (World.stepByte clock) w).Holds (frame (tail ++ bytes)).2 ∧
      Moved w (bytes.foldl (World.stepByte clock) w) (frame (tail ++ bytes)).1 := by
  induction bytes generalizing w tail with
  | nil =>
    rw [List.append_nil, h.frame_eq]
    exact ⟨h, moved_nothing rfl rfl⟩
  | cons byte bytes ih =>
    obtain ⟨hstep, hmoved⟩ := h.stepByte clock byte
    obtain ⟨hholds, hlater⟩ := ih hstep
    have hsplit : tail ++ byte :: bytes = tail ++ [byte] ++ bytes := by simp
    rw [hsplit, frame_append (tail ++ [byte]) bytes]
    exact ⟨hholds, hmoved.trans hlater⟩

end World

/-! ## 4. Chunks -/

/-- What is let go of a tail: all but the escape that waits at its end. -/
def released (tail : List UInt8) : List UInt8 :=
  if tail.getLast? = some esc then tail.dropLast else tail

/-- The tail is a public OSC that has grown over the limit. -/
def overlong (tail : List UInt8) : Bool :=
  !isPrivateHapcliOsc (tail.drop 2) && decide (oscLimit + 8 < (released tail).length)

theorem isPrivate_heldEscape (payload : List UInt8) (pending : Bool) :
    isPrivateHapcliOsc (payload ++ heldEscape pending) = isPrivateHapcliOsc payload := by
  cases pending with
  | false => simp [heldEscape]
  | true =>
    cases hprivate : isPrivateHapcliOsc payload with
    | true => exact isPrivate_append hprivate _
    | false =>
      by_contra hnew
      have hprefix := List.isPrefixOf_iff_prefix.mp (eq_true_of_ne_false hnew)
      rcases List.prefix_concat_iff.mp hprefix with heq | hbefore
      · have hlast := congrArg List.getLast? heq
        simp only [List.getLast?_concat, Option.some.injEq] at hlast
        exact absurd hlast (by decide)
      · rw [isPrivateHapcliOsc, List.isPrefixOf_iff_prefix.mpr hbefore] at hprivate
        cases hprivate

theorem released_held {pending : Bool} (hlast : pending = false → payload.getLast? ≠ some esc) :
    released (esc :: bracket :: (payload ++ heldEscape pending)) = esc :: bracket :: payload := by
  cases pending with
  | true =>
    show released ((esc :: bracket :: payload) ++ [esc]) = esc :: bracket :: payload
    rw [released, List.getLast?_concat, if_pos rfl, List.dropLast_concat]
  | false =>
    have hne : (esc :: bracket :: payload).getLast? ≠ some esc := by
      cases payload with
      | nil => decide
      | cons byte rest => simpa using hlast rfl
    show released (esc :: bracket :: (payload ++ [])) = esc :: bracket :: payload
    rw [List.append_nil]
    exact if_neg hne

namespace World

variable {T : Type}

variable {w : World T}

theorem Holds.tidy (h : w.Holds tail) : w.Tidy := by
  cases h with
  | nothing hosc hescape => exact tidy_none hosc
  | escape hosc hescape => exact tidy_none hosc
  | osc payload pending hosc hescape hopen hlast =>
    refine ⟨fun hpending => absurd (hpending.symm.trans hescape) (by decide), fun held hheld => ?_⟩
    rw [hosc] at hheld
    rw [← Option.some.inj hheld]
    exact (captured payload).complete

theorem Holds.short (h : w.Holds tail) (hshort : overlong tail = false) : w.Short := by
  cases h with
  | nothing hosc hescape => exact short_none hosc
  | escape hosc hescape => exact short_none hosc
  | osc payload pending hosc hescape hopen hlast =>
    intro held hheld
    rw [hosc] at hheld
    rw [← Option.some.inj hheld]
    rw [overlong, released_held hlast] at hshort
    have hcaptured := captured payload
    rw [hcaptured.isPrivate]
    cases hprivate : isPrivateHapcliOsc payload with
    | true => rfl
    | false =>
      rw [hcaptured.raw hprivate]
      simpa [isPrivate_heldEscape, hprivate] using hshort

variable [Term T] (clock : Nat → Readings)

theorem Holds.endChunk_overlong (h : w.Holds tail) (hlong : overlong tail = true) :
    w.endChunk.Holds [] ∧ w.endChunk.recordable = w.recordable ++ released tail ∧
      w.endChunk.parsed = w.parsed ++ released tail := by
  cases h with
  | nothing hosc hescape => exact absurd hlong (by decide)
  | escape hosc hescape => exact absurd hlong (by decide)
  | osc payload pending hosc hescape hopen hlast =>
    rw [released_held hlast]
    rw [overlong, released_held hlast] at hlong
    have hcaptured := captured payload
    have hprivate : isPrivateHapcliOsc payload = false := by
      simp only [List.drop_succ_cons, List.drop_zero, isPrivate_heldEscape, Bool.and_eq_true,
        Bool.not_eq_true'] at hlong
      exact hlong.1
    have hreleased : w.endChunk =
        w.release { captureOf payload with pendingEscape := pending } := by
      simp only [World.endChunk, hosc, hcaptured.isPrivate, hprivate, hcaptured.raw hprivate]
      simp only [List.drop_succ_cons, List.drop_zero, isPrivate_heldEscape, hprivate] at hlong
      rw [if_pos hlong]
    rw [hreleased]
    refine ⟨.nothing rfl hescape, ?_, ?_⟩
    · show w.recordable ++ (captureOf payload).raw = _
      rw [hcaptured.raw hprivate]
    · show w.parsed ++ (captureOf payload).raw = _
      rw [hcaptured.raw hprivate]

end World

/-- What the chunks of a stream leave: what is kept of every piece, and an open OSC over the limit,
    behind which reading starts anew. -/
def filtered (kept : Piece → List UInt8) : List UInt8 → List (List UInt8) → List UInt8
  | _, [] => []
  | tail, chunk :: chunks =>
    let framed := frame (tail ++ chunk)
    framed.1.flatMap kept ++
      if overlong framed.2 then framed.2 ++ filtered kept [] chunks
      else filtered kept framed.2 chunks

/-- No chunk ends in an `ESC` inside a public OSC that is over the limit. -/
def ReleasesWhole : List UInt8 → List (List UInt8) → Prop
  | _, [] => True
  | tail, chunk :: chunks =>
    let framed := frame (tail ++ chunk)
    if overlong framed.2 then framed.2.getLast? ≠ some esc ∧ ReleasesWhole [] chunks
    else ReleasesWhole framed.2 chunks

namespace World

variable {T : Type} [Term T] (clock : Nat → Readings)

theorem Holds.advanceChunks (hterm : ParsesInPieces T) (chunks : List (List UInt8)) {w : World T}
    (h : w.Holds tail) (hshort : overlong tail = false) (hwhole : ReleasesWhole tail chunks) :
    (w.advanceChunks clock chunks).recordable =
        w.recordable ++ filtered Piece.recorded tail chunks ∧
      (w.advanceChunks clock chunks).parsed = w.parsed ++ filtered Piece.passedOn tail chunks := by
  induction chunks generalizing w tail with
  | nil => exact ⟨by simp [World.advanceChunks, filtered], by simp [World.advanceChunks, filtered]⟩
  | cons chunk chunks ih =>
    have hchunk := advanceInner_eq clock hterm w h.tidy (h.short hshort) chunk
    obtain ⟨hholds, hmoved⟩ := h.foldl clock chunk
    have hrest : w.advanceChunks clock (chunk :: chunks) =
        ((chunk.foldl (World.stepByte clock) w).endChunk).advanceChunks clock chunks := by
      rw [← hchunk]
      rfl
    rw [hrest]
    unfold filtered
    unfold ReleasesWhole at hwhole
    dsimp only at hwhole ⊢
    cases hlong : overlong (frame (tail ++ chunk)).2 with
    | true =>
      rw [hlong, if_pos rfl] at hwhole
      have hall : released (frame (tail ++ chunk)).2 = (frame (tail ++ chunk)).2 :=
        if_neg hwhole.1
      obtain ⟨hempty, hrecordable, hparsed⟩ := hholds.endChunk_overlong hlong
      obtain ⟨hlater, hlater'⟩ := ih hempty (by decide) hwhole.2
      rw [hlater, hlater', hrecordable, hparsed, hmoved.recordable, hmoved.parsed, hall]
      simp
    | false =>
      rw [hlong] at hwhole
      rw [(hholds.short hlong).endChunk_eq]
      obtain ⟨hlater, hlater'⟩ := ih hholds hlong hwhole
      rw [hlater, hlater', hmoved.recordable, hmoved.parsed]
      simp

end World

namespace World

/-! ### Another terminal

What is held, recorded and passed on depends neither on the terminal nor on the clock. -/

/-- Two filters, each before its own terminal, hold, record and pass on the same. -/
structure Alike {T T' : Type} (w : World T) (w' : World T') : Prop where
  spares : w.integration.Spares w'.integration
  recordable : w'.recordable = w.recordable
  parsed : w'.parsed = w.parsed

section Alike

variable {T T' : Type} {w : World T} {w' : World T'}

theorem Alike.beginCapture (h : Alike w w') : Alike w.beginCapture w'.beginCapture :=
  ⟨⟨rfl, h.spares.pendingEscape⟩, h.recordable, h.parsed⟩

theorem Alike.holdEscape (h : Alike w w') (pending : Bool) :
    Alike (w.holdEscape pending) (w'.holdEscape pending) :=
  ⟨⟨h.spares.pendingOsc, rfl⟩, h.recordable, h.parsed⟩

variable [Term T] [Term T'] (clock clock' : Nat → Readings)

theorem Alike.advanceTerminalBytes (h : Alike w w') (bytes : List UInt8) :
    Alike (w.advanceTerminalBytes clock bytes) (w'.advanceTerminalBytes clock' bytes) := by
  have hspares := spares_advanceTerminalBytes clock w bytes
  have hspares' := spares_advanceTerminalBytes clock' w' bytes
  have hlogs := advanceTerminalBytes_logs clock w bytes
  have hlogs' := advanceTerminalBytes_logs clock' w' bytes
  refine ⟨⟨?_, ?_⟩, ?_, ?_⟩
  · rw [hspares'.pendingOsc, hspares.pendingOsc, h.spares.pendingOsc]
  · rw [hspares'.pendingEscape, hspares.pendingEscape, h.spares.pendingEscape]
  · rw [hlogs'.1, hlogs.1, h.recordable]
  · rw [hlogs'.2, hlogs.2, h.parsed]

theorem Alike.flush (h : Alike w w') (normal : List UInt8) :
    Alike (w.flush clock normal) (w'.flush clock' normal) := by
  unfold World.flush
  split
  · exact h
  · exact h.advanceTerminalBytes clock clock' normal

theorem Alike.complete (h : Alike w w') (capture : OscCapture) :
    Alike (w.complete clock capture) (w'.complete clock' capture) := by
  have hescape : (w'.hold none).integration.pendingEscape = (w.hold none).integration.pendingEscape :=
    h.spares.pendingEscape
  have hheld : Alike (if !capture.isPrivate then (w.hold none).record capture.raw else w.hold none)
      (if !capture.isPrivate then (w'.hold none).record capture.raw else w'.hold none) := by
    split
    · exact ⟨⟨rfl, hescape⟩, congrArg (· ++ capture.raw) h.recordable, h.parsed⟩
    · exact ⟨⟨rfl, hescape⟩, h.recordable, h.parsed⟩
  unfold World.complete
  dsimp only
  rw [handleOscPayload_fst, handleOscPayload_fst]
  generalize (if !capture.isPrivate then (w.hold none).record capture.raw else w.hold none) = held
    at hheld ⊢
  generalize (if !capture.isPrivate then (w'.hold none).record capture.raw else w'.hold none) = held'
    at hheld ⊢
  have hreports := reports_handleOscPayload clock held capture.payload
  have hreports' := reports_handleOscPayload clock' held' capture.payload
  have hafter : Alike (held.handleOscPayload clock capture.payload).2
      (held'.handleOscPayload clock' capture.payload).2 := by
    refine ⟨⟨?_, ?_⟩, ?_, ?_⟩
    · rw [hreports'.spares.pendingOsc, hreports.spares.pendingOsc, hheld.spares.pendingOsc]
    · rw [hreports'.spares.pendingEscape, hreports.spares.pendingEscape, hheld.spares.pendingEscape]
    · rw [hreports'.recordable, hreports.recordable, hheld.recordable]
    · rw [hreports'.parsed, hreports.parsed, hheld.parsed]
  split
  · exact ⟨⟨hafter.spares.pendingOsc, hafter.spares.pendingEscape⟩, hafter.recordable,
      congrArg (· ++ capture.raw) hafter.parsed⟩
  · exact hafter

theorem Alike.settle (h : Alike w w') (capture : OscCapture) :
    Alike (w.settle clock capture) (w'.settle clock' capture) := by
  unfold World.settle
  split
  · exact h.complete clock clock' capture
  · split
    · exact ⟨⟨rfl, h.spares.pendingEscape⟩, congrArg (· ++ capture.raw) h.recordable,
        congrArg (· ++ capture.raw) h.parsed⟩
    · exact ⟨⟨rfl, h.spares.pendingEscape⟩, h.recordable, h.parsed⟩

theorem Alike.advanceLoop (changed : Bool) (normal rest : List UInt8) (h : Alike w w') :
    Alike (World.advanceLoop clock changed normal rest w).2
      (World.advanceLoop clock' changed normal rest w').2 := by
  fun_induction World.advanceLoop clock changed normal rest w generalizing w' with
  | case1 changed normal w =>
    rw [World.advanceLoop.eq_def clock']
    exact h.flush clock clock' normal
  | case2 changed normal w next later capture hosc ih =>
    rw [World.advanceLoop.eq_def clock']
    simp only [h.spares.pendingOsc.trans hosc]
    exact ih ((h.flush clock clock' normal).settle clock clock' _)
  | case3 changed normal w hosc =>
    rw [World.advanceLoop.eq_def clock']
    simp only [h.spares.pendingOsc.trans hosc, if_true]
    exact (h.flush clock clock' normal).holdEscape true
  | case4 changed normal w hosc later ih =>
    rw [World.advanceLoop.eq_def clock']
    simp only [h.spares.pendingOsc.trans hosc, if_true]
    exact ih (h.flush clock clock' normal).beginCapture
  | case5 changed normal w hosc next later hnext ih =>
    rw [World.advanceLoop.eq_def clock']
    simp only [h.spares.pendingOsc.trans hosc, if_true, hnext, if_false]
    exact ih h
  | case6 changed normal w byte later hosc hbyte ih =>
    rw [World.advanceLoop.eq_def clock']
    simp only [h.spares.pendingOsc.trans hosc, hbyte, if_false]
    exact ih h

theorem Alike.advanceInner (h : Alike w w') (bytes : List UInt8) :
    Alike (w.advanceInner clock bytes).2 (w'.advanceInner clock' bytes).2 := by
  unfold World.advanceInner
  rw [h.spares.pendingEscape]
  cases w.integration.pendingEscape with
  | false => exact h.advanceLoop clock clock' false [] bytes
  | true =>
    cases bytes with
    | nil => exact h.advanceLoop clock clock' false [] []
    | cons first rest =>
      dsimp only
      have hheld := h.holdEscape false
      split
      · exact hheld.beginCapture.advanceLoop clock clock' true [] rest
      · exact (hheld.advanceTerminalBytes clock clock' [esc]).advanceLoop clock clock' false [] _

theorem Alike.advanceChunks (chunks : List (List UInt8)) (h : Alike w w') :
    Alike (w.advanceChunks clock chunks) (w'.advanceChunks clock' chunks) := by
  induction chunks generalizing w w' with
  | nil => exact h
  | cons chunk chunks ih => exact ih (h.advanceInner clock clock' chunk)

end Alike

end World

/-! ## 5. Streams -/

/-- No public OSC of the stream is over the limit, neither a complete one nor the one at its end. -/
def PublicWithin (bytes : List UInt8) : Prop :=
  (∀ payload terminator, Piece.osc payload terminator ∈ (frame bytes).1 →
    isPrivateHapcliOsc payload = true ∨ payload.length ≤ oscLimit + 6) ∧
  (isPrivateHapcliOsc ((frame bytes).2.drop 2) = true ∨
    ((frame bytes).2.drop 2).length ≤ oscLimit + 6)

theorem length_released (tail : List UInt8) : (released tail).length ≤ tail.length := by
  unfold released
  split
  · simp
  · exact Nat.le_refl _

variable {bytes : List UInt8}

theorem isPrivate_front {front : List UInt8} (hfront : front <+: bytes)
    (hlong : oscLimit < front.length) (h : isPrivateHapcliOsc bytes = true) :
    isPrivateHapcliOsc front = true := by
  have hlimit : (asBytes hapcliRemoteMetadataOsc ++ [0x3b]).length ≤ oscLimit := by decide
  rw [isPrivateHapcliOsc, List.isPrefixOf_iff_prefix] at h ⊢
  exact List.prefix_of_prefix_length_le h hfront (Nat.le_of_lt (Nat.lt_of_le_of_lt hlimit hlong))

theorem PublicWithin.not_overlong {more : List UInt8} (h : PublicWithin (bytes ++ more)) :
    overlong (frame bytes).2 = false := by
  rcases frame_tail bytes with htail | htail | ⟨later, htail, hopen⟩
  · rw [htail]
    decide
  · rw [htail]
    decide
  · by_contra hne
    have hlong := eq_true_of_ne_false hne
    have hframe := frame_append bytes more
    rw [htail] at hlong hframe
    simp only [overlong, List.drop_succ_cons, List.drop_zero, Bool.and_eq_true, Bool.not_eq_true',
      decide_eq_true_eq] at hlong
    have hlength := length_released (esc :: bracket :: later)
    simp only [List.length_cons] at hlength
    have hlater : oscLimit < later.length := by omega
    obtain ⟨hpieces, hend⟩ := h
    rw [hframe] at hpieces hend
    simp only [List.cons_append] at hpieces hend
    cases hcut : cutPayload (later ++ more) with
    | none =>
      rw [frame_open hcut] at hend
      simp only [List.drop_succ_cons, List.drop_zero, List.length_append] at hend
      rcases hend with hprivate | hle
      · rw [isPrivate_front (List.prefix_append later more) hlater hprivate] at hlong
        exact absurd hlong.1 (by decide)
      · omega
    | some cut =>
      obtain ⟨payload, terminator, behind⟩ := cut
      rw [frame_osc hcut] at hpieces
      have hbytes := cutPayload_bytes hcut
      rcases hpieces payload terminator (by simp) with hprivate | hle
      · have hall : isPrivateHapcliOsc (later ++ more) = true := by
          rw [hbytes, List.append_assoc]
          exact isPrivate_append hprivate _
        rw [isPrivate_front (List.prefix_append later more) hlater hall] at hlong
        exact absurd hlong.1 (by decide)
      · rcases cutPayload_open hopen hcut with hshort | heq
        · omega
        · have hreleased : released (esc :: bracket :: later) = esc :: bracket :: payload := by
            rw [heq]
            exact @released_held payload true (by simp)
          rw [hreleased] at hlong
          simp only [List.length_cons] at hlong
          omega

theorem PublicWithin.filtered (kept : Piece → List UInt8) (chunks : List (List UInt8))
    (h : PublicWithin (bytes ++ chunks.flatten)) :
    ReleasesWhole (frame bytes).2 chunks ∧
      Terminal.filtered kept (frame bytes).2 chunks =
        (frame ((frame bytes).2 ++ chunks.flatten)).1.flatMap kept := by
  induction chunks generalizing bytes with
  | nil =>
    have htail : (frame (frame bytes).2).1 = [] := by
      rcases frame_tail bytes with htail | htail | ⟨later, htail, hopen⟩
      · rw [htail, frame_nil]
      · rw [htail, frame_esc]
      · rw [htail, frame_open hopen]
    exact ⟨trivial, by simp [Terminal.filtered, htail]⟩
  | cons chunk chunks ih =>
    have hassoc : bytes ++ (chunk :: chunks).flatten = bytes ++ chunk ++ chunks.flatten := by simp
    rw [hassoc] at h
    have hshort := h.not_overlong
    obtain ⟨hwhole, hlater⟩ := ih h
    have htail : (frame ((frame bytes).2 ++ chunk)).2 = (frame (bytes ++ chunk)).2 := by
      rw [frame_append bytes chunk]
    have hsplit : (frame bytes).2 ++ (chunk :: chunks).flatten =
        (frame bytes).2 ++ chunk ++ chunks.flatten := by simp
    unfold ReleasesWhole Terminal.filtered
    dsimp only
    rw [htail, hshort, hsplit, frame_append ((frame bytes).2 ++ chunk), htail, hlater]
    exact ⟨hwhole, by simp⟩

/-- **Recording privacy**, for any chunks of any stream: what is recorded, in general and where no
    public OSC is over the limit; and nothing of a private sequence is, nor is it given to the
    parser. -/
theorem recording_privacy {T : Type} [Term T] (clock : Nat → Readings) (term : T)
    (chunks : List (List UInt8)) :
    (ReleasesWhole [] chunks →
      (({ term := term } : World T).advanceChunks clock chunks).recordable =
          filtered Piece.recorded [] chunks ∧
        (({ term := term } : World T).advanceChunks clock chunks).parsed =
          filtered Piece.passedOn [] chunks) ∧
    (PublicWithin chunks.flatten →
      (({ term := term } : World T).advanceChunks clock chunks).recordable =
          (frame chunks.flatten).1.flatMap Piece.recorded ∧
        (({ term := term } : World T).advanceChunks clock chunks).parsed =
          (frame chunks.flatten).1.flatMap Piece.passedOn) ∧
    (∀ payload terminator, isPrivateHapcliOsc payload = true →
      Piece.recorded (.osc payload terminator) = [] ∧
        Piece.passedOn (.osc payload terminator) = []) := by
  have hstart : ({ term := () } : World Unit).Holds [] := .nothing rfl rfl
  have hunit : World.ParsesInPieces Unit := fun _ _ _ => rfl
  have halike : World.Alike ({ term := () } : World Unit) ({ term := term } : World T) :=
    ⟨⟨rfl, rfl⟩, rfl, rfl⟩
  have hsame := halike.advanceChunks clock clock chunks
  have hgeneral (hwhole : ReleasesWhole [] chunks) :=
    hstart.advanceChunks clock hunit chunks (by decide) hwhole
  refine ⟨fun hwhole => ?_, fun hwithin => ?_, fun payload terminator hprivate => ⟨?_, ?_⟩⟩
  · rw [hsame.recordable, hsame.parsed]
    exact hgeneral hwhole
  · have hrecorded := PublicWithin.filtered Piece.recorded chunks
      (by simpa using hwithin : PublicWithin ([] ++ chunks.flatten))
    have hpassed := PublicWithin.filtered Piece.passedOn chunks
      (by simpa using hwithin : PublicWithin ([] ++ chunks.flatten))
    simp only [frame_nil, List.nil_append] at hrecorded hpassed
    rw [hsame.recordable, hsame.parsed, ← hrecorded.2, ← hpassed.2]
    exact hgeneral hrecorded.1
  · simp [Piece.recorded, hprivate]
  · have hconsumed : consumesOsc (payload.take oscLimit) = true :=
      consumesOsc_private (by rw [isPrivate_take]; exact hprivate)
    simp [Piece.passedOn, hconsumed]

theorem publicWithin_short (h : bytes.length ≤ oscLimit + 6) : PublicWithin bytes := by
  have hlength := congrArg List.length (frame_bytes bytes)
  rw [List.length_append] at hlength
  refine ⟨fun payload terminator hmem => .inr ?_, .inr ?_⟩
  · obtain ⟨front, back, hsplit⟩ := List.append_of_mem hmem
    rw [hsplit] at hlength
    simp only [List.flatMap_append, List.flatMap_cons, Piece.bytes, List.length_append,
      List.length_cons] at hlength
    omega
  · rw [List.length_drop]
    omega

/-- A private sequence in two chunks, and a letter behind it. -/
def splitPrivate : List (List UInt8) :=
  [[esc, bracket, 0x37, 0x37], [0x31, 0x39, 0x3b, 0x78, bel, 0x61]]

theorem recording_privacy_split :
    ReleasesWhole [] splitPrivate ∧ PublicWithin splitPrivate.flatten ∧
      filtered Piece.recorded [] splitPrivate = [0x61] ∧
      (({ term := () } : World Unit).advanceChunks
        (fun _ => TerminalShellIntegration.stopped) splitPrivate).recordable = [0x61] ∧
      (({ term := () } : World Unit).advanceChunks
        (fun _ => TerminalShellIntegration.stopped) splitPrivate).parsed = [0x61] := by
  have hwithin : PublicWithin ([] ++ splitPrivate.flatten) := publicWithin_short (by decide)
  obtain ⟨hgeneral, hexact, -⟩ :=
    recording_privacy (fun _ => TerminalShellIntegration.stopped) () splitPrivate
  have hwhole : ReleasesWhole [] splitPrivate := by
    have h := (PublicWithin.filtered Piece.recorded splitPrivate hwithin).1
    rwa [frame_nil] at h
  have hframe : (frame splitPrivate.flatten).1 =
      [.osc [0x37, 0x37, 0x31, 0x39, 0x3b, 0x78] [bel], .single 0x61] := by
    have hcut : cutPayload [0x37, 0x37, 0x31, 0x39, 0x3b, 0x78, bel, 0x61] =
        some ([0x37, 0x37, 0x31, 0x39, 0x3b, 0x78], [bel], [0x61]) := by decide
    have hsingle : frame [0x61] = ([.single 0x61], []) := by
      rw [frame_single (.inl (by decide)), frame_nil]
    show (frame [esc, bracket, 0x37, 0x37, 0x31, 0x39, 0x3b, 0x78, bel, 0x61]).1 = _
    rw [frame_osc hcut, hsingle]
  obtain ⟨hrecorded, hparsed⟩ := hexact hwithin
  rw [hframe] at hrecorded hparsed
  have hconsumed : consumesOsc [0x37, 0x37, 0x31, 0x39, 0x3b, 0x78] = true :=
    consumesOsc_private (by decide)
  refine ⟨hwhole, hwithin, ?_, hrecorded, hparsed.trans ?_⟩
  · exact (hgeneral hwhole).1.symm.trans hrecorded
  · simp only [List.flatMap_cons, List.flatMap_nil, Piece.passedOn]
    rfl

/-- `ESC ]` and so many letters, without an end. -/
def openOsc (n : Nat) : List UInt8 := esc :: bracket :: List.replicate n 0x61

theorem frame_openOsc (n : Nat) : frame (openOsc n) = ([], openOsc n) := by
  refine frame_open (cutPayload_plain fun byte hbyte => ?_)
  rw [List.eq_of_mem_replicate hbyte]
  decide

theorem overlong_openOsc {n : Nat} (h : oscLimit + 6 < n) :
    overlong (openOsc n) = true ∧ (openOsc n).getLast? ≠ some esc := by
  obtain ⟨m, rfl⟩ : ∃ m, n = m + 1 := ⟨n - 1, by omega⟩
  have hlast : (openOsc (m + 1)).getLast? ≠ some esc := by
    rw [openOsc, List.replicate_succ', ← List.cons_append, ← List.cons_append, List.getLast?_concat]
    decide
  refine ⟨?_, hlast⟩
  have hlength : (openOsc (m + 1)).length = m + 1 + 2 := by simp [openOsc]
  rw [overlong, released, if_neg hlast, hlength]
  have hpublic : isPrivateHapcliOsc ((openOsc (m + 1)).drop 2) = false := by
    rfl
  rw [hpublic]
  simp
  omega

/-- **An open OSC over the limit is recorded**: this stream is an incomplete OSC, and all of it is in
    the recording at the end of its only chunk. -/
theorem open_osc_is_recorded : (({ term := () } : World Unit).advanceChunks
        (fun _ => TerminalShellIntegration.stopped) [openOsc (oscLimit + 7)]).recordable ≠
      (frame (openOsc (oscLimit + 7))).1.flatMap Piece.recorded := by
  have hstart : ({ term := () } : World Unit).Holds [] := .nothing rfl rfl
  have hunit : World.ParsesInPieces Unit := fun _ _ _ => rfl
  obtain ⟨hlong, hlast⟩ := @overlong_openOsc (oscLimit + 7) (by omega)
  have hwhole : ReleasesWhole [] [openOsc (oscLimit + 7)] := by
    unfold ReleasesWhole
    simp only [List.nil_append, frame_openOsc, hlong, if_true]
    exact ⟨hlast, trivial⟩
  have hrecorded := (hstart.advanceChunks (fun _ => TerminalShellIntegration.stopped) hunit
    [openOsc (oscLimit + 7)] (by decide) hwhole).1
  rw [hrecorded, frame_openOsc]
  simp only [filtered, List.nil_append, frame_openOsc, hlong, if_true, List.flatMap_nil,
    List.append_nil]
  simp [openOsc]

end Hapcli.Terminal

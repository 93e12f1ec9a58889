/-
  Subject:   How a byte stream is read as single bytes and OSC sequences: `ESC ]`, a payload, and the
             first `BEL` or `ESC \` behind it.

  Nothing here knows a filter or a chunk. `frame` gives the pieces that are complete and the tail
  that is not: nothing, an `ESC`, or an OSC without its end.

  * `frame_append` -- **what follows is framed with the tail**, whatever was framed before.
-/
import Mathlib.Tactic.Common

namespace Hapcli.Terminal

def bel : UInt8 := 0x07
def esc : UInt8 := 0x1b
def backslash : UInt8 := 0x5c
def bracket : UInt8 := 0x5d

/-! ## 1. Payloads -/

/-- A payload, its terminator, and what stands behind them. -/
@[grind] def cutPayload : List UInt8 → Option (List UInt8 × List UInt8 × List UInt8)
  | [] => none
  | byte :: rest =>
    if byte = bel then some ([], [bel], rest)
    else if byte = esc ∧ rest.head? = some backslash then some ([], [esc, backslash], rest.tail)
    else (cutPayload rest).map fun cut => (byte :: cut.1, cut.2)

variable {payload rest terminator : List UInt8}

section

variable (h : cutPayload bytes = some (payload, terminator, rest))

include h

theorem cutPayload_bytes : bytes = payload ++ terminator ++ rest := by
  induction bytes generalizing payload with
  | nil => cases h
  | cons byte bytes ih =>
    unfold cutPayload at h
    split at h
    · cases h
      simp_all
    · split at h
      · rename_i hend
        obtain ⟨later, hlater⟩ : ∃ later, bytes = backslash :: later := by
          cases bytes with
          | nil => cases hend.2
          | cons next later => exact ⟨later, by rw [Option.some.inj hend.2]⟩
        cases h
        simp [hend.1, hlater]
      · obtain ⟨⟨front, ending, behind⟩, hcut, heq⟩ := Option.map_eq_some_iff.mp h
        cases heq
        simp [ih hcut]

theorem cutPayload_length : rest.length < bytes.length ∧ terminator.length ≤ 2 := by
  induction bytes generalizing payload with
  | nil => cases h
  | cons byte bytes ih =>
    unfold cutPayload at h
    split at h
    · cases h
      simp
    · split at h
      · cases h
        simp only [List.length_tail, List.length_cons, List.length_nil]
        omega
      · obtain ⟨⟨front, ending, behind⟩, hcut, heq⟩ := Option.map_eq_some_iff.mp h
        cases heq
        have := ih hcut
        simp only [List.length_cons]
        omega

theorem cutPayload_append (more : List UInt8) :
    cutPayload (bytes ++ more) = some (payload, terminator, rest ++ more) := by
  induction bytes generalizing payload with
  | nil => cases h
  | cons byte bytes ih =>
    unfold cutPayload at h
    rw [List.cons_append]
    unfold cutPayload
    split at h
    · rename_i hbel
      cases h
      rw [if_pos hbel]
    · rename_i hbel
      rw [if_neg hbel]
      split at h
      · rename_i hend
        cases bytes with
        | nil => cases hend.2
        | cons next later =>
          cases h
          rw [if_pos ⟨hend.1, hend.2⟩]
          rfl
      · rename_i hend
        obtain ⟨⟨front, ending, behind⟩, hcut, heq⟩ := Option.map_eq_some_iff.mp h
        cases heq
        have hhead : ¬(byte = esc ∧ (bytes ++ more).head? = some backslash) := by
          cases bytes with
          | nil => cases hcut
          | cons next later => exact hend
        rw [if_neg hhead, ih hcut]
        rfl

end

theorem cutPayload_concat {bytes : List UInt8} (h : cutPayload bytes = none) (byte : UInt8) :
    cutPayload (bytes ++ [byte]) =
      if byte = bel then some (bytes, [bel], [])
      else if bytes.getLast? = some esc ∧ byte = backslash then
        some (bytes.dropLast, [esc, backslash], [])
      else none := by
  induction bytes with
  | nil => simp [cutPayload]
  | cons first rest ih =>
    unfold cutPayload at h
    split at h
    · cases h
    · rename_i hbel
      split at h
      · cases h
      · rename_i hend
        have hopen : cutPayload rest = none := Option.map_eq_none_iff.mp h
        rw [List.cons_append]
        unfold cutPayload
        rw [if_neg hbel]
        cases rest with
        | nil =>
          by_cases hbyte : byte = bel
          · have hback : bel ≠ backslash := by decide
            simp [cutPayload, hbyte, hback]
          · simp [cutPayload, hbyte]
        | cons next later =>
          have hhead : ¬(first = esc ∧ (next :: later ++ [byte]).head? = some backslash) := hend
          rw [if_neg hhead, ih hopen]
          simp only [List.getLast?_cons_cons, List.dropLast_cons_cons]
          split
          · rfl
          · split
            · rfl
            · rfl

/-- An open payload is the front of the one it becomes, but for an `ESC` of the terminator. -/
theorem cutPayload_open {bytes more : List UInt8} (hopen : cutPayload bytes = none)
    (h : cutPayload (bytes ++ more) = some (payload, terminator, rest)) :
    bytes.length ≤ payload.length ∨ bytes = payload ++ [esc] := by
  induction bytes generalizing payload with
  | nil => exact .inl (Nat.zero_le _)
  | cons byte bytes ih =>
    rw [List.cons_append] at h
    unfold cutPayload at hopen h
    split at hopen
    · cases hopen
    · rename_i hbel
      rw [if_neg hbel] at h
      split at hopen
      · cases hopen
      · rename_i hend
        split at h
        · rename_i hend'
          cases bytes with
          | nil =>
            cases h
            exact .inr (by rw [hend'.1]; rfl)
          | cons next later => exact absurd hend' hend
        · obtain ⟨⟨front, ending, behind⟩, hcut, heq⟩ := Option.map_eq_some_iff.mp h
          cases heq
          rcases ih (Option.map_eq_none_iff.mp hopen) hcut with hle | heq
          · exact .inl (Nat.succ_le_succ hle)
          · exact .inr (by rw [heq]; rfl)

theorem cutPayload_plain {bytes : List UInt8} (h : ∀ byte ∈ bytes, byte ≠ bel ∧ byte ≠ esc) :
    cutPayload bytes = none := by
  induction bytes with
  | nil => rfl
  | cons byte bytes ih =>
    have hbyte := h byte List.mem_cons_self
    have hrest := ih fun other hother => h other (List.mem_cons_of_mem _ hother)
    unfold cutPayload
    rw [if_neg hbyte.1, if_neg fun hend => hbyte.2 hend.1, hrest]
    rfl

/-! ## 2. Streams -/

/-- A byte, or an OSC sequence with its end. -/
inductive Piece where
  | single (byte : UInt8)
  | osc (payload terminator : List UInt8)
  deriving DecidableEq

def Piece.bytes : Piece → List UInt8
  | .single byte => [byte]
  | .osc payload terminator => esc :: bracket :: (payload ++ terminator)

/-- The complete pieces of a stream, and the tail that is not complete. -/
@[grind] def frame (bytes : List UInt8) : List Piece × List UInt8 :=
  match bytes with
  | [] => ([], [])
  | byte :: rest =>
    if byte = esc then
      match rest with
      | [] => ([], [esc])
      | next :: later =>
        if next = bracket then
          match _hcut : cutPayload later with
          | some (payload, terminator, behind) =>
            let framed := frame behind
            (.osc payload terminator :: framed.1, framed.2)
          | none => ([], esc :: bracket :: later)
        else
          let framed := frame (next :: later)
          (.single byte :: framed.1, framed.2)
    else
      let framed := frame rest
      (.single byte :: framed.1, framed.2)
termination_by bytes.length
decreasing_by
  · have := cutPayload_length _hcut
    simp only [List.length_cons]
    omega
  · simp
  · simp

/-! The equations of `frame`. -/

@[simp] theorem frame_nil : frame [] = ([], []) := by
  rw [frame]

@[simp] theorem frame_esc : frame [esc] = ([], [esc]) := by
  rw [frame]
  rfl

theorem frame_single {byte : UInt8}
    (h : byte ≠ esc ∨ ∃ next later, rest = next :: later ∧ next ≠ bracket) :
    frame (byte :: rest) = (.single byte :: (frame rest).1, (frame rest).2) := by
  rw [frame.eq_def]
  dsimp only
  by_cases hbyte : byte = esc
  · obtain hne | ⟨next, later, rfl, hnext⟩ := h
    · exact absurd hbyte hne
    · rw [if_pos hbyte]
      dsimp only
      rw [if_neg hnext]
  · rw [if_neg hbyte]

theorem frame_osc {later behind : List UInt8}
    (h : cutPayload later = some (payload, terminator, behind)) :
    frame (esc :: bracket :: later) =
      (.osc payload terminator :: (frame behind).1, (frame behind).2) := by
  rw [frame, if_pos rfl]
  dsimp only
  rw [if_pos rfl]
  split
  · rename_i hcut
    rw [h] at hcut
    cases hcut
    rfl
  · rename_i hcut
    rw [h] at hcut
    cases hcut

variable {later : List UInt8}

theorem frame_open (h : cutPayload later = none) :
    frame (esc :: bracket :: later) = ([], esc :: bracket :: later) := by
  rw [frame, if_pos rfl]
  dsimp only
  rw [if_pos rfl]
  split
  · rename_i hcut
    rw [h] at hcut
    cases hcut
  · rfl

/-- The shapes of a stream: nothing, an `ESC`, an open OSC, a single byte or a complete OSC and
    the rest. An induction over a stream goes by these. -/
theorem frame_induction {motive : List UInt8 → Prop} (nil : motive []) (escape : motive [esc])
    (unfinished : ∀ later, cutPayload later = none → motive (esc :: bracket :: later))
    (single : ∀ byte rest, byte ≠ esc ∨ (∃ next later, rest = next :: later ∧ next ≠ bracket) →
      motive rest → motive (byte :: rest))
    (osc : ∀ later payload terminator behind, cutPayload later = some (payload, terminator, behind) →
      motive behind → motive (esc :: bracket :: later)) (bytes : List UInt8) : motive bytes := by
  induction hlen : bytes.length using Nat.strongRecOn generalizing bytes with
  | _ length ih =>
    subst hlen
    cases bytes with
    | nil => exact nil
    | cons byte rest =>
      have hrest : motive rest := ih rest.length (by simp) rest rfl
      by_cases hbyte : byte = esc
      · subst hbyte
        cases rest with
        | nil => exact escape
        | cons next later =>
          by_cases hnext : next = bracket
          · subst hnext
            cases hcut : cutPayload later with
            | none => exact unfinished later hcut
            | some cut =>
              obtain ⟨payload, terminator, behind⟩ := cut
              have hlength := (cutPayload_length hcut).1
              refine osc later payload terminator behind hcut (ih behind.length ?_ behind rfl)
              simp only [List.length_cons]
              omega
          · exact single esc _ (.inr ⟨next, later, rfl, hnext⟩) hrest
      · exact single byte rest (.inl hbyte) hrest

theorem frame_bytes (bytes : List UInt8) :
    (frame bytes).1.flatMap Piece.bytes ++ (frame bytes).2 = bytes := by
  induction bytes using frame_induction with
  | nil => simp
  | escape => simp
  | unfinished later h => simp [frame_open h]
  | single byte rest h ih => simpa [frame_single h, Piece.bytes] using ih
  | osc later payload terminator behind h ih =>
    rw [frame_osc h]
    simp only [List.flatMap_cons, Piece.bytes, List.append_assoc, ih, List.cons_append]
    rw [cutPayload_bytes h, List.append_assoc]

theorem frame_append (bytes more : List UInt8) :
    frame (bytes ++ more) =
      ((frame bytes).1 ++ (frame ((frame bytes).2 ++ more)).1,
        (frame ((frame bytes).2 ++ more)).2) := by
  induction bytes using frame_induction with
  | nil => simp
  | escape => simp
  | unfinished later h => simp [frame_open h]
  | single byte rest h ih =>
    have hmore : byte ≠ esc ∨ ∃ next later, rest ++ more = next :: later ∧ next ≠ bracket := by
      rcases h with h | ⟨next, later, rfl, hnext⟩
      · exact .inl h
      · exact .inr ⟨next, later ++ more, rfl, hnext⟩
    rw [List.cons_append, frame_single hmore, frame_single h, ih]
    rfl
  | osc later payload terminator behind h ih =>
    rw [List.cons_append, List.cons_append, frame_osc (cutPayload_append h more), frame_osc h, ih]
    rfl

theorem frame_tail (bytes : List UInt8) :
    (frame bytes).2 = [] ∨ (frame bytes).2 = [esc] ∨
      ∃ later, (frame bytes).2 = esc :: bracket :: later ∧ cutPayload later = none := by
  induction bytes using frame_induction with
  | nil => simp
  | escape => simp
  | unfinished later h => exact .inr (.inr ⟨later, by rw [frame_open h], h⟩)
  | single byte rest h ih => rwa [frame_single h]
  | osc later payload terminator behind h ih => rwa [frame_osc h]

end Hapcli.Terminal

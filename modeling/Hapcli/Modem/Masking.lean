/-
  Subject:   `mask_control_strings` on text, cut in any way.

  The masker looks at single bytes. `0x90`, `0x9d` and `0x9f` open a control string, and they are also
  continuation bytes of UTF-8: a text without a control character may be masked from there on.

  * **`leaves_text_iff`** -- the texts that are left alone, however they are cut.
-/
import Hapcli.Modem.ConsumerChunks

namespace Hapcli.Modem

open Hapcli.Rust

namespace ModemDetectionScope

/-! ## 1. Cuts -/

/-- One call of `mask_control_strings` a chunk: the scope behind them, and the masked chunks. -/
def maskChunks : ModemDetectionScope → List (List UInt8) → ModemDetectionScope × List (List UInt8)
  | scope, [] => (scope, [])
  | scope, chunk :: chunks =>
    ((maskChunks (scope.maskControlStrings chunk).1 chunks).1,
      (scope.maskControlStrings chunk).2 :: (maskChunks (scope.maskControlStrings chunk).1 chunks).2)

variable {scope : ModemDetectionScope}

theorem maskControlStrings_append (bytes later : List UInt8) :
    scope.maskControlStrings (bytes ++ later) =
      (((scope.maskControlStrings bytes).1.maskControlStrings later).1,
        (scope.maskControlStrings bytes).2 ++
          ((scope.maskControlStrings bytes).1.maskControlStrings later).2) := by
  induction bytes generalizing scope with
  | nil => rfl
  | cons byte bytes ih => simp only [List.cons_append, maskControlStrings, ih]

theorem maskChunks_flatten (scope : ModemDetectionScope) (chunks : List (List UInt8)) :
    scope.maskControlStrings chunks.flatten =
      ((scope.maskChunks chunks).1, (scope.maskChunks chunks).2.flatten) := by
  induction chunks generalizing scope with
  | nil => rfl
  | cons chunk chunks ih => rw [List.flatten_cons, maskControlStrings_append, ih]; rfl

theorem maskControlStrings_eq_iff {bytes : List UInt8} :
    ground.maskControlStrings bytes = (ground, bytes) ↔ ∀ byte ∈ bytes, ¬ OpensScope byte := by
  refine ⟨fun h => ?_, maskControlStrings_ground⟩
  induction bytes with
  | nil => exact fun _ hmem => absurd hmem List.not_mem_nil
  | cons byte bytes ih =>
    have hmasked : (ground.maskByte byte).2 = byte :=
      (List.cons.inj (congrArg Prod.snd h)).1
    have hbyte : ¬ OpensScope byte := by
      rintro (rfl | rfl | rfl | rfl) <;> revert hmasked <;> decide
    have hstay : ground.maskByte byte = (ground, byte) := by
      simp only [OpensScope, not_or] at hbyte
      simp [maskByte, hbyte]
    simp only [maskControlStrings, hstay, Prod.mk.injEq, List.cons.injEq, true_and] at h
    intro other hother
    rcases List.mem_cons.mp hother with rfl | hrest
    · exact hbyte
    · exact ih (Prod.ext h.1 h.2) other hrest

/-! ## 2. Text -/

/-- A text without ESC and without a C1 control character. -/
def NoControls (text : Str) : Prop :=
  ∀ c ∈ text, c.toNat ≠ 0x1b ∧ ¬ (0x80 ≤ c.toNat ∧ c.toNat ≤ 0x9f)

instance (text : Str) : Decidable (NoControls text) :=
  List.decidableBAll _ text

/-- **The texts that are left alone**, however their bytes are cut, are those whose bytes are none of
    the three that open a control string. -/
theorem leaves_text_iff (text : Str) (h : NoControls text) :
    (∀ chunks : List (List UInt8), chunks.flatten = asBytes text →
      ground.maskChunks chunks = (ground, chunks)) ↔
      ∀ byte ∈ asBytes text, byte ≠ 0x90 ∧ byte ≠ 0x9d ∧ byte ≠ 0x9f := by
  have hopen : (∀ byte ∈ asBytes text, ¬ OpensScope byte) ↔
      ∀ byte ∈ asBytes text, byte ≠ 0x90 ∧ byte ≠ 0x9d ∧ byte ≠ 0x9f := by
    refine forall₂_congr fun byte hbyte => ?_
    have hesc : byte ≠ 0x1b := by
      rintro rfl
      obtain ⟨c, hc, heq⟩ := mem_asBytes_ascii (by decide) hbyte
      exact (h c hc).1 heq
    simp only [OpensScope, not_or, ne_eq, hesc, not_false_eq_true, true_and]
  rw [← hopen]
  constructor
  · intro hall
    have hwhole := hall [asBytes text] (by simp)
    have hflat := maskChunks_flatten ground [asBytes text]
    rw [hwhole] at hflat
    simp only [List.flatten_cons, List.flatten_nil, List.append_nil] at hflat
    exact (maskControlStrings_eq_iff).mp hflat
  · rintro hnone chunks hchunks
    have hbytes : ∀ chunk ∈ chunks, ∀ byte ∈ chunk, ¬ OpensScope byte := fun chunk hchunk byte hbyte =>
      hnone byte (hchunks ▸ List.mem_flatten.mpr ⟨chunk, hchunk, hbyte⟩)
    clear hchunks
    induction chunks with
    | nil => rfl
    | cons chunk chunks ih =>
      have hchunk := maskControlStrings_ground (hbytes chunk List.mem_cons_self)
      have hrest := ih fun other hother => hbytes other (List.mem_cons_of_mem _ hother)
      simp only [maskChunks, hchunk, hrest]

theorem leaves_text_iff_greek : NoControls ['\u03b1'] ∧
    ∀ chunks : List (List UInt8), chunks.flatten = asBytes ['\u03b1'] →
      ground.maskChunks chunks = (ground, chunks) :=
  have h : NoControls ['\u03b1'] := by decide
  ⟨h, (leaves_text_iff ['\u03b1'] h).mpr (by
    have hbytes : asBytes ['\u03b1'] = [0xce, 0xb1] := by decide
    simp [hbytes])⟩

/-- The first Cyrillic capital is taken for the start of a control string. -/
theorem cyrillic_is_masked : NoControls ['\u0410'] ∧
    ground.maskChunks [asBytes ['\u0410']] = (controlString .dcs false, [[0xd0, 0x20]]) ∧
    ¬ ∀ chunks : List (List UInt8), chunks.flatten = asBytes ['\u0410'] →
      ground.maskChunks chunks = (ground, chunks) := by
  refine ⟨by decide, by decide, fun hall => ?_⟩
  have hwhole := hall [asBytes ['\u0410']] rfl
  revert hwhole
  decide

end ModemDetectionScope

end Hapcli.Modem

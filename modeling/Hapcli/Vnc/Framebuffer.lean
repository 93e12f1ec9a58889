/-
  Subject:   The framebuffer of the VNC helper (`main.rs`).

  An index that is out of bounds, a `u32` that overflows and a difference below zero would stop the
  program (`none`, or a stop of `Checked`). What is computed in `usize` stays far below its bound.

  * `Changed` -- what a change that is reported says about the framebuffers before and after it, and
    **`Changed.merge`** -- merged changes say it about both;
  * **`tryApply_changed`** -- an event reports what it changed, and never stops the program;
  * **`copyRect_spec`** -- a copy reads all its source before it writes.
-/
import Hapcli.Lib.Raster
import Hapcli.Rust.Text

namespace Hapcli.Vnc

open Hapcli.Lib Hapcli.Rust

/-! ## 1. Numbers -/

/-- `+` of two `u32`. -/
def u32Add (a b : Nat) : Option Nat := if a + b < 2 ^ 32 then some (a + b) else none

/-- `*` of two `u32`. -/
def u32Mul (a b : Nat) : Option Nat := if a * b < 2 ^ 32 then some (a * b) else none

/-- `-` of unsigned numbers. -/
def checkedSub (a b : Nat) : Option Nat := if b ≤ a then some (a - b) else none

/-- `usize::checked_mul`. -/
def usizeMul (a b : Nat) : Option Nat := if a * b ≤ u64Max then some (a * b) else none

/-- `((row * width + column) * 4) as usize`, in `u32`. -/
def byteOffset (row width column : Nat) : Option Nat := do
  u32Mul (← u32Add (← u32Mul row width) column) 4

/-! ## 2. Events and changes -/

structure RfbRect where
  x : UInt16
  y : UInt16
  width : UInt16
  height : UInt16
  deriving DecidableEq

inductive VncDesktopSizeReason
  | server
  | client
  | otherClient
  deriving DecidableEq

inductive VncDesktopSizeResult
  | success
  | resizeProhibited
  | outOfResources
  | invalidScreenLayout
  deriving DecidableEq

/-- `VncExtendedDesktopSize`, with the size of its layout. -/
structure VncExtendedDesktopSize where
  reason : VncDesktopSizeReason
  result : VncDesktopSizeResult
  width : UInt16
  height : UInt16

def VncExtendedDesktopSize.appliesLayout (update : VncExtendedDesktopSize) : Bool :=
  update.reason != .client || update.result == .success

/-- `VncServerEvent`; what a framebuffer does not look at is left out. -/
inductive VncServerEvent
  | setResolution (width height : UInt16)
  | extendedDesktopSize (update : VncExtendedDesktopSize)
  | rawImage (rect : RfbRect) (data : List UInt8)
  | copyRect (dst : RfbRect) (srcX srcY : UInt16)
  | clipboardText
  | clipboardExtended
  | cursorShape
  | cursorHidden
  | qemuAudioCapability
  | qemuAudio
  | qemuExtendedKeyEvents
  | extendedMouseButtons
  | lockKeys
  | observedCapability
  | serverFence
  | endOfContinuousUpdates
  | batch (events : List VncServerEvent)
  | noop

inductive VncFramebufferChange
  | full
  | rect (rect : RfbRect)
  deriving DecidableEq

def unionRfbRect (left right : RfbRect) : Option RfbRect := do
  let x := min left.x right.x
  let y := min left.y right.y
  let rightEdge :=
    max (← u32Add left.x.toNat left.width.toNat) (← u32Add right.x.toNat right.width.toNat)
  let bottomEdge :=
    max (← u32Add left.y.toNat left.height.toNat) (← u32Add right.y.toNat right.height.toNat)
  let width ← checkedSub rightEdge x.toNat
  let height ← checkedSub bottomEdge y.toNat
  some { x, y, width := .ofNat (min width 65535), height := .ofNat (min height 65535) }

def mergeVncFramebufferChange (existing incoming : Option VncFramebufferChange) :
    Option VncFramebufferChange :=
  match existing, incoming with
  | some .full, _ => some .full
  | _, some .full => some .full
  | some (.rect left), some (.rect right) => (unionRfbRect left right).map .rect
  | some change, none => some change
  | none, some change => some change
  | none, none => none

/-! ## 3. The framebuffer -/

/-- `RemoteDesktopSize::MAX_DIMENSION`. -/
def maxDimension : Nat := 8192

def maxVncFrameBytes : Nat := 128 * 1024 * 1024

structure VncFramebuffer where
  width : Nat
  height : Nat
  bgra : List UInt8
  deriving DecidableEq

/-- `set_bgra_alpha_opaque`: the bytes afterwards. -/
def setBgraAlphaOpaque : List UInt8 → List UInt8
  | b :: g :: r :: _ :: rest => b :: g :: r :: 0xff :: setBgraAlphaOpaque rest
  | rest => rest

/-- `try_opaque_bgra_buffer`, where there is memory. -/
def tryOpaqueBgraBuffer (width height : Nat) : Checked String (List UInt8) :=
  if width = 0 ∨ height = 0 ∨ maxDimension < width ∨ maxDimension < height then
    throw "VNC framebuffer dimensions exceed the helper limit."
  else
    match (usizeMul width height >>= (usizeMul · 4)).filter (· ≤ maxVncFrameBytes) with
    | none => throw "VNC framebuffer allocation exceeds the helper limit."
    | some len => pure (setBgraAlphaOpaque (List.replicate len 0))

namespace VncFramebuffer

def tryNew (width height : UInt16) : Checked String VncFramebuffer := do
  let bgra ← tryOpaqueBgraBuffer width.toNat height.toNat
  pure { width := width.toNat, height := height.toNat, bgra }

variable (fb : VncFramebuffer)

/-- `clipped_rect`; the differences are not below zero where they are taken. -/
def clippedRect (rect : RfbRect) : Option RfbRect :=
  if fb.width ≤ rect.x.toNat ∨ fb.height ≤ rect.y.toNat ∨ rect.width.toNat = 0 ∨
      rect.height.toNat = 0 then none
  else some
    { x := rect.x, y := rect.y
      width := .ofNat (min rect.width.toNat (fb.width - rect.x.toNat))
      height := .ofNat (min rect.height.toNat (fb.height - rect.y.toNat)) }

/-- A turn of the loop of `draw_rect`. -/
def drawRow (rect clipped : RfbRect) (data bgra : List UInt8) (y : Nat) : Option (List UInt8) := do
  let srcY ← u32Add (← checkedSub clipped.y.toNat rect.y.toNat) y
  let srcStart ← byteOffset srcY rect.width.toNat (← checkedSub clipped.x.toNat rect.x.toNat)
  let srcEnd := srcStart + (← u32Mul clipped.width.toNat 4)
  let dstStart ← byteOffset (← u32Add clipped.y.toNat y) fb.width clipped.x.toNat
  let dstEnd := dstStart + (← u32Mul clipped.width.toNat 4)
  copyInto bgra dstStart dstEnd (setBgraAlphaOpaque (← slice data srcStart srcEnd))

/-- `draw_rect`: the change, and the framebuffer afterwards. -/
def drawRect (rect : RfbRect) (data : List UInt8) :
    Option (Option VncFramebufferChange × VncFramebuffer) :=
  if fb.width = 0 ∨ fb.height = 0 then some (none, fb)
  else
    match fb.clippedRect rect with
    | none => some (none, fb)
    | some clipped =>
      if data.length < rect.width.toNat * rect.height.toNat * 4 then some (none, fb)
      else do
        let bgra ← (List.range clipped.height.toNat).foldlM (fb.drawRow rect clipped data) fb.bgra
        some (some (.rect clipped), { fb with bgra })

/-- A turn of the first loop of `copy_rect`. -/
def saveRow (srcX srcY copyW : Nat) (scratch : List UInt8) (y : Nat) : Option (List UInt8) := do
  let srcStart ← byteOffset (← u32Add srcY y) fb.width srcX
  let srcEnd := srcStart + (← u32Mul copyW 4)
  let tmpStart ← u32Mul (← u32Mul y copyW) 4
  let tmpEnd := tmpStart + (← u32Mul copyW 4)
  copyInto scratch tmpStart tmpEnd (← slice fb.bgra srcStart srcEnd)

/-- A turn of the second loop. -/
def restoreRow (dstX dstY copyW : Nat) (scratch bgra : List UInt8) (y : Nat) :
    Option (List UInt8) := do
  let tmpStart ← u32Mul (← u32Mul y copyW) 4
  let tmpEnd := tmpStart + (← u32Mul copyW 4)
  let dstStart ← byteOffset (← u32Add dstY y) fb.width dstX
  let dstEnd := dstStart + (← u32Mul copyW 4)
  copyInto bgra dstStart dstEnd (← slice scratch tmpStart tmpEnd)

/-- `copy_rect`: the change, and the framebuffer afterwards. -/
def copyRect (dst : RfbRect) (srcX srcY : UInt16) :
    Option (Option VncFramebufferChange × VncFramebuffer) :=
  if fb.width = 0 ∨ fb.height = 0 ∨ dst.width.toNat = 0 ∨ dst.height.toNat = 0 then some (none, fb)
  else if fb.width ≤ srcX.toNat ∨ fb.height ≤ srcY.toNat ∨ fb.width ≤ dst.x.toNat ∨
      fb.height ≤ dst.y.toNat then some (none, fb)
  else
    let copyW := min (min dst.width.toNat (fb.width - srcX.toNat)) (fb.width - dst.x.toNat)
    let copyH := min (min dst.height.toNat (fb.height - srcY.toNat)) (fb.height - dst.y.toNat)
    if copyW = 0 ∨ copyH = 0 then some (none, fb)
    else do
      let scratch ← (List.range copyH).foldlM (fb.saveRow srcX.toNat srcY.toNat copyW)
        (List.replicate (copyW * copyH * 4) 0)
      let bgra ← (List.range copyH).foldlM (fb.restoreRow dst.x.toNat dst.y.toNat copyW scratch)
        fb.bgra
      some (some (.rect { x := dst.x, y := dst.y, width := .ofNat copyW, height := .ofNat copyH }),
        { fb with bgra })

mutual

/-- `try_apply`: the change, and the framebuffer afterwards. -/
def tryApply (fb : VncFramebuffer) :
    VncServerEvent → Checked String (Option VncFramebufferChange × VncFramebuffer)
  | .setResolution width height => do
      let next ← tryOpaqueBgraBuffer width.toNat height.toNat
      pure (some .full, { width := width.toNat, height := height.toNat, bgra := next })
  | .extendedDesktopSize update =>
    if update.appliesLayout then do
      let next ← tryOpaqueBgraBuffer update.width.toNat update.height.toNat
      pure (some .full,
        { width := update.width.toNat, height := update.height.toNat, bgra := next })
    else pure (none, fb)
  | .rawImage rect data => (fb.drawRect rect data : Option _)
  | .copyRect dst srcX srcY => (fb.copyRect dst srcX srcY : Option _)
  | .batch events => tryApplyAll fb none events
  | .clipboardText | .clipboardExtended | .cursorShape | .cursorHidden | .qemuAudioCapability
  | .qemuAudio | .qemuExtendedKeyEvents | .extendedMouseButtons | .lockKeys | .observedCapability
  | .serverFence | .endOfContinuousUpdates | .noop => pure (none, fb)

/-- The loop over a batch, with the change so far. -/
def tryApplyAll (fb : VncFramebuffer) (change : Option VncFramebufferChange) :
    List VncServerEvent → Checked String (Option VncFramebufferChange × VncFramebuffer)
  | [] => pure (change, fb)
  | event :: events => do
      let (incoming, fb) ← tryApply fb event
      tryApplyAll fb (mergeVncFramebufferChange change incoming) events

end

/-- A turn of the loop of `rect_bytes`. -/
def bytesRow (rect : RfbRect) (bytes : List UInt8) (y : Nat) : Option (List UInt8) := do
  let width := rect.width.toNat
  let srcStart := ((rect.y.toNat + y) * fb.width + rect.x.toNat) * 4
  let srcEnd := srcStart + width * 4
  let dstStart := y * width * 4
  let dstEnd := dstStart + width * 4
  copyInto bytes dstStart dstEnd (← slice fb.bgra srcStart srcEnd)

def rectBytes (rect : RfbRect) : Option (Option (List UInt8)) :=
  match fb.clippedRect rect with
  | none => some none
  | some rect =>
    match usizeMul rect.width.toNat rect.height.toNat >>= (usizeMul · 4) with
    | none => some none
    | some len => do
        let bytes ← (List.range rect.height.toNat).foldlM (fb.bytesRow rect)
          (List.replicate len 0)
        some (some bytes)

end VncFramebuffer

/-! ## 4. Numbers that fit -/

section Numbers

variable {a b row width column len : Nat}

theorem u32Add_of (h : a + b < 2 ^ 32) : u32Add a b = some (a + b) := if_pos h

theorem u32Mul_of (h : a * b < 2 ^ 32) : u32Mul a b = some (a * b) := if_pos h

theorem checkedSub_of (h : b ≤ a) : checkedSub a b = some (a - b) := if_pos h

theorem toNat_ofNat {n : Nat} (h : n < 65536) : (UInt16.ofNat n).toNat = n := by
  rw [UInt16.toNat_ofNat', Nat.mod_eq_of_lt h]

theorem offset_eq (row width column : Nat) :
    (row * width + column) * 4 = row * (4 * width) + 4 * column := by
  rw [Nat.add_mul, Nat.mul_assoc, Nat.mul_comm width 4, Nat.mul_comm column 4]

/-- Rows of at most 65535 pixels, of which there are fewer than 8192, have their offsets. -/
theorem byteOffset_of (hrow : row < maxDimension) (hwidth : width ≤ 65535)
    (hcolumn : column ≤ 65535) :
    byteOffset row width column = some (row * (4 * width) + 4 * column) := by
  have hproduct : row * width ≤ 8191 * 65535 :=
    Nat.mul_le_mul (Nat.le_of_lt_succ hrow) hwidth
  unfold byteOffset
  rw [u32Mul_of (by omega)]
  show (u32Add (row * width) column >>= fun sum => u32Mul sum 4) = _
  rw [u32Add_of (by omega)]
  show u32Mul (row * width + column) 4 = _
  rw [u32Mul_of (by omega), offset_eq]

theorem pixelBytes_of (h : len ≤ 65535) : u32Mul len 4 = some (4 * len) := by
  rw [u32Mul_of (by omega), Nat.mul_comm]

end Numbers

/-! ## 5. Framebuffers and rectangles in them -/

variable (fb : VncFramebuffer)

/-- A size that is admitted, and four bytes for each pixel. -/
structure VncFramebuffer.Valid : Prop where
  width_pos : 0 < fb.width
  width_le : fb.width ≤ maxDimension
  height_pos : 0 < fb.height
  height_le : fb.height ≤ maxDimension
  length : fb.bgra.length = 4 * fb.width * fb.height

/-- A rectangle with a pixel, all of it inside. -/
structure RfbRect.Inside (rect : RfbRect) (fb : VncFramebuffer) : Prop where
  width_pos : 0 < rect.width.toNat
  height_pos : 0 < rect.height.toNat
  right : rect.x.toNat + rect.width.toNat ≤ fb.width
  bottom : rect.y.toNat + rect.height.toNat ≤ fb.height

/-- The bytes of a rectangle. -/
def RfbRect.region (rect : RfbRect) : Region where
  top := rect.y.toNat
  count := rect.height.toNat
  left := 4 * rect.x.toNat
  len := 4 * rect.width.toNat

section Rectangles

variable {fb fb' : VncFramebuffer} {rect clipped : RfbRect} {data : List UInt8}

theorem VncFramebuffer.Valid.rows (h : fb.Valid) : fb.bgra.length = fb.height * (4 * fb.width) := by
  rw [h.length, Nat.mul_comm]

theorem RfbRect.Inside.fits (h : rect.Inside fb) : rect.region.Fits (4 * fb.width) fb.height where
  right := by
    have := h.right
    simp only [RfbRect.region]
    omega
  bottom := h.bottom

theorem setBgraAlphaOpaque_length (bytes : List UInt8) :
    (setBgraAlphaOpaque bytes).length = bytes.length := by
  fun_induction setBgraAlphaOpaque bytes with
  | case1 b g r a rest ih => simp only [List.length_cons, ih]
  | case2 rest => rfl

theorem of_tryOpaqueBgraBuffer {width height : Nat} {bgra : List UInt8}
    (h : (tryOpaqueBgraBuffer width height).run = some (.ok bgra)) :
    VncFramebuffer.Valid { width, height, bgra } := by
  unfold tryOpaqueBgraBuffer at h
  split at h
  · cases h
  · next hsize =>
      split at h
      · cases h
      · next len hlen =>
          cases h
          obtain ⟨hlen, -⟩ := Option.filter_eq_some_iff.mp hlen
          obtain ⟨pixels, hpixels, hlen⟩ := Option.bind_eq_some_iff.mp hlen
          have hpixels : width * height = pixels := by
            unfold usizeMul at hpixels
            split at hpixels
            · exact Option.some.inj hpixels
            · cases hpixels
          have hlen : pixels * 4 = len := by
            unfold usizeMul at hlen
            split at hlen
            · exact Option.some.inj hlen
            · cases hlen
          obtain ⟨hwidth, hwidth', hheight, hheight'⟩ :
              0 < width ∧ width ≤ maxDimension ∧ 0 < height ∧ height ≤ maxDimension := by omega
          refine ⟨hwidth, hwidth', hheight, hheight', ?_⟩
          rw [setBgraAlphaOpaque_length, List.length_replicate, ← hlen, ← hpixels, Nat.mul_comm,
            Nat.mul_assoc]

theorem tryOpaqueBgraBuffer_total (width height : Nat) :
    Checked.Total (tryOpaqueBgraBuffer width height) := by
  unfold tryOpaqueBgraBuffer
  split
  · exact Checked.total_error _
  · split
    · exact Checked.total_error _
    · exact Checked.total_ok _

theorem VncFramebuffer.Valid.of_tryNew {width height : UInt16}
    (h : (VncFramebuffer.tryNew width height).run = some (.ok fb)) : fb.Valid := by
  obtain ⟨bgra, hbgra, h⟩ := Checked.of_bind_ok h
  cases h
  exact of_tryOpaqueBgraBuffer hbgra

theorem of_clippedRect (hfb : fb.Valid) (h : fb.clippedRect rect = some clipped) :
    clipped.Inside fb ∧ clipped.x = rect.x ∧ clipped.y = rect.y ∧
      clipped.width.toNat ≤ rect.width.toNat ∧ clipped.height.toNat ≤ rect.height.toNat := by
  have hwidth := hfb.width_le
  have hheight := hfb.height_le
  unfold maxDimension at hwidth hheight
  unfold VncFramebuffer.clippedRect at h
  split at h
  · cases h
  · next hin =>
      cases h
      have hw : (UInt16.ofNat (min rect.width.toNat (fb.width - rect.x.toNat))).toNat =
          min rect.width.toNat (fb.width - rect.x.toNat) := toNat_ofNat (by omega)
      have hh : (UInt16.ofNat (min rect.height.toNat (fb.height - rect.y.toNat))).toNat =
          min rect.height.toNat (fb.height - rect.y.toNat) := toNat_ofNat (by omega)
      refine ⟨⟨?_, ?_, ?_, ?_⟩, rfl, rfl, ?_, ?_⟩ <;> simp only [hw, hh] <;> omega

theorem clippedRect_inside (h : rect.Inside fb) : fb.clippedRect rect = some rect := by
  have hwidth := h.width_pos
  have hheight := h.height_pos
  have hright := h.right
  have hbottom := h.bottom
  have hw : min rect.width.toNat (fb.width - rect.x.toNat) = rect.width.toNat := by omega
  have hh : min rect.height.toNat (fb.height - rect.y.toNat) = rect.height.toNat := by omega
  unfold VncFramebuffer.clippedRect
  rw [if_neg (by omega), hw, hh, UInt16.ofNat_toNat, UInt16.ofNat_toNat]

end Rectangles

/-! ## 6. What a change says -/

/-- What was changed, by the change that is reported. -/
def Changed (fb fb' : VncFramebuffer) : Option VncFramebufferChange → Prop
  | none => fb' = fb
  | some .full => True
  | some (.rect rect) =>
    fb'.width = fb.width ∧ fb'.height = fb.height ∧ rect.Inside fb ∧
      ∀ i, ¬ rect.region.Has (4 * fb.width) i → fb'.bgra[i]? = fb.bgra[i]?

section Changes

variable {fb fb₁ fb₂ : VncFramebuffer} {left right union : RfbRect}
  {change incoming : Option VncFramebufferChange}

theorem toNat_min (a b : UInt16) : (min a b).toNat = min a.toNat b.toNat := by
  have hle : a ≤ b ↔ a.toNat ≤ b.toNat := UInt16.le_iff_toNat_le
  show (if a ≤ b then a else b).toNat = _
  split
  · next h => rw [Nat.min_eq_left (hle.mp h)]
  · next h => rw [Nat.min_eq_right (Nat.le_of_not_le fun hab => h (hle.mpr hab))]

theorem unionRfbRect_inside (hfb : fb.Valid) (hleft : left.Inside fb) (hright : right.Inside fb) :
    ∃ union, unionRfbRect left right = some union ∧ union.Inside fb ∧
      ∀ i, left.region.Has (4 * fb.width) i ∨ right.region.Has (4 * fb.width) i →
        union.region.Has (4 * fb.width) i := by
  have hwidth := hfb.width_le
  have hheight := hfb.height_le
  unfold maxDimension at hwidth hheight
  obtain ⟨lw, lh, lr, lb⟩ := hleft
  obtain ⟨rw', rh, rr, rb⟩ := hright
  have hx := toNat_min left.x right.x
  have hy := toNat_min left.y right.y
  have hw : (UInt16.ofNat (min (max (left.x.toNat + left.width.toNat)
      (right.x.toNat + right.width.toNat) - (min left.x right.x).toNat) 65535)).toNat =
        max (left.x.toNat + left.width.toNat) (right.x.toNat + right.width.toNat) -
          min left.x.toNat right.x.toNat := by
    rw [toNat_ofNat (by omega), hx]
    omega
  have hh : (UInt16.ofNat (min (max (left.y.toNat + left.height.toNat)
      (right.y.toNat + right.height.toNat) - (min left.y right.y).toNat) 65535)).toNat =
        max (left.y.toNat + left.height.toNat) (right.y.toNat + right.height.toNat) -
          min left.y.toNat right.y.toNat := by
    rw [toNat_ofNat (by omega), hy]
    omega
  refine ⟨{ x := min left.x right.x, y := min left.y right.y
            width := .ofNat (min (max (left.x.toNat + left.width.toNat)
              (right.x.toNat + right.width.toNat) - (min left.x right.x).toNat) 65535)
            height := .ofNat (min (max (left.y.toNat + left.height.toNat)
              (right.y.toNat + right.height.toNat) - (min left.y right.y).toNat) 65535) }, ?_,
    ⟨?_, ?_, ?_, ?_⟩, ?_⟩
  · unfold unionRfbRect
    simp only [u32Add_of (show left.x.toNat + left.width.toNat < 2 ^ 32 by omega),
      u32Add_of (show right.x.toNat + right.width.toNat < 2 ^ 32 by omega),
      u32Add_of (show left.y.toNat + left.height.toNat < 2 ^ 32 by omega),
      u32Add_of (show right.y.toNat + right.height.toNat < 2 ^ 32 by omega),
      checkedSub_of (show (min left.x right.x).toNat ≤ max (left.x.toNat + left.width.toNat)
        (right.x.toNat + right.width.toNat) by omega),
      checkedSub_of (show (min left.y right.y).toNat ≤ max (left.y.toNat + left.height.toNat)
        (right.y.toNat + right.height.toNat) by omega), Option.bind_eq_bind, Option.bind_some]
  · rw [hw]
    omega
  · rw [hh]
    omega
  · rw [hw, hx]
    omega
  · rw [hh, hy]
    omega
  · intro i hhas
    simp only [Region.Has, RfbRect.region, hw, hh] at hhas ⊢
    omega

theorem Changed.merge (hfb : fb.Valid) (h : Changed fb fb₁ change) (h' : Changed fb₁ fb₂ incoming) :
    Changed fb fb₂ (mergeVncFramebufferChange change incoming) := by
  cases change with
  | none =>
    obtain rfl : fb₁ = fb := h
    cases incoming with
    | none => exact h'
    | some incoming =>
      cases incoming with
      | full => trivial
      | rect right => exact h'
  | some change =>
    cases change with
    | full => trivial
    | rect left =>
      obtain ⟨hwidth, hheight, hinside, hleft⟩ := h
      cases incoming with
      | none =>
        obtain rfl : fb₂ = fb₁ := h'
        exact ⟨hwidth, hheight, hinside, hleft⟩
      | some incoming =>
        cases incoming with
        | full => trivial
        | rect right =>
          obtain ⟨hwidth', hheight', hinside', hright⟩ := h'
          have hinside'' : right.Inside fb :=
            ⟨hinside'.width_pos, hinside'.height_pos, hwidth ▸ hinside'.right,
              hheight ▸ hinside'.bottom⟩
          obtain ⟨union, hunion, hin, hcover⟩ := unionRfbRect_inside hfb hinside hinside''
          have hmerged : mergeVncFramebufferChange (some (.rect left)) (some (.rect right)) =
              some (.rect union) := by
            simp only [mergeVncFramebufferChange, hunion, Option.map_some]
          rw [hmerged]
          refine ⟨hwidth'.trans hwidth, hheight'.trans hheight, hin, fun i hno => ?_⟩
          rw [hright i (by rw [hwidth]; exact fun hhas => hno (hcover i (Or.inr hhas))),
            hleft i (fun hhas => hno (hcover i (Or.inl hhas)))]

end Changes

/-! ## 7. Drawing and copying -/

section Drawing

variable {fb fb' : VncFramebuffer} {rect dst : RfbRect} {data : List UInt8} {srcX srcY : UInt16}

/-- A framebuffer whose bytes outside a rectangle inside are as they were. -/
theorem changed_rect {bgra : List UInt8} (hfb : fb.Valid) (hinside : rect.Inside fb)
    (hlength : bgra.length = fb.bgra.length)
    (hrest : ∀ i, ¬ rect.region.Has (4 * fb.width) i → bgra[i]? = fb.bgra[i]?) :
    VncFramebuffer.Valid { fb with bgra } ∧ Changed fb { fb with bgra } (some (.rect rect)) :=
  ⟨⟨hfb.width_pos, hfb.width_le, hfb.height_pos, hfb.height_le, hlength.trans hfb.length⟩,
    rfl, rfl, hinside, hrest⟩

theorem changed_none (hfb : fb.Valid) : fb.Valid ∧ Changed fb fb none := ⟨hfb, rfl⟩

/-- The rows of the data of a rectangle that are drawn. -/
def RfbRect.drawn (clipped : RfbRect) : Region where
  top := 0
  count := clipped.height.toNat
  left := 0
  len := 4 * clipped.width.toNat

theorem drawRow_eq {clipped : RfbRect} (hfb : fb.Valid)
    (hclipped : fb.clippedRect rect = some clipped) {y : Nat} (hy : y < clipped.height.toNat)
    (hdata : clipped.drawn.start (4 * rect.width.toNat) y + clipped.drawn.len ≤ data.length)
    (bgra : List UInt8) :
    fb.drawRow rect clipped data bgra y =
      copyInto bgra (clipped.region.start (4 * fb.width) y)
        (clipped.region.start (4 * fb.width) y + clipped.region.len)
        (setBgraAlphaOpaque (clipped.drawn.row (4 * rect.width.toNat) data y)) := by
  obtain ⟨hinside, hx, hy', hwidth, hheight⟩ := of_clippedRect hfb hclipped
  have hw := hfb.width_le
  have hh := hfb.height_le
  have hrectWidth := rect.width.toNat_lt
  have hclippedX := clipped.x.toNat_lt
  have hbottom := hinside.bottom
  unfold maxDimension at hw hh
  have hsource : byteOffset (0 + y) rect.width.toNat 0 =
      some (clipped.drawn.start (4 * rect.width.toNat) y) := by
    rw [byteOffset_of (by unfold maxDimension; omega) (by omega) (by omega)]
    rfl
  have htarget : byteOffset (clipped.y.toNat + y) fb.width clipped.x.toNat =
      some (clipped.region.start (4 * fb.width) y) := by
    rw [byteOffset_of (by unfold maxDimension; omega) (by omega) (by omega)]
    rfl
  have hslice : slice data (clipped.drawn.start (4 * rect.width.toNat) y)
      (clipped.drawn.start (4 * rect.width.toNat) y + 4 * clipped.width.toNat) =
        some (clipped.drawn.row (4 * rect.width.toNat) data y) := slice_row hdata
  unfold VncFramebuffer.drawRow
  rw [← hx, ← hy', checkedSub_of le_rfl, checkedSub_of le_rfl, Nat.sub_self, Nat.sub_self]
  simp only [Option.bind_eq_bind, Option.bind_some, u32Add_of (show 0 + y < 2 ^ 32 by omega), hsource,
    u32Add_of (show clipped.y.toNat + y < 2 ^ 32 by omega), htarget,
    pixelBytes_of (show clipped.width.toNat ≤ 65535 by omega), hslice]
  rfl

/-- Drawing changes the rectangle that is reported, and reads and writes inside its bounds. -/
theorem drawRect_changed (hfb : fb.Valid) (rect : RfbRect) (data : List UInt8) :
    ∃ change fb', fb.drawRect rect data = some (change, fb') ∧ fb'.Valid ∧ Changed fb fb' change := by
  unfold VncFramebuffer.drawRect
  split
  · exact ⟨none, fb, rfl, changed_none hfb⟩
  · split
    · exact ⟨none, fb, rfl, changed_none hfb⟩
    · next clipped hclipped =>
        split
        · exact ⟨none, fb, rfl, changed_none hfb⟩
        · next hneeded =>
            obtain ⟨hinside, -, -, hwidth, hheight⟩ := of_clippedRect hfb hclipped
            have hdata : ∀ y, y < clipped.height.toNat →
                clipped.drawn.start (4 * rect.width.toNat) y + clipped.drawn.len ≤ data.length := by
              intro y hy
              have hrows : (y + 1) * (4 * rect.width.toNat) ≤
                  rect.height.toNat * (4 * rect.width.toNat) := Nat.mul_le_mul_right _ (by omega)
              have hall : rect.height.toNat * (4 * rect.width.toNat) =
                  rect.width.toNat * rect.height.toNat * 4 := by
                rw [Nat.mul_comm 4, ← Nat.mul_assoc, Nat.mul_comm rect.height.toNat]
              rw [Nat.add_mul, Nat.one_mul] at hrows
              simp only [Region.start, RfbRect.drawn, Nat.zero_add, Nat.add_zero]
              omega
            obtain ⟨bgra, hbgra, hlength, hbytes⟩ := writeRows_spec
              (fun y => setBgraAlphaOpaque (clipped.drawn.row (4 * rect.width.toNat) data y))
              hinside.fits hfb.rows
              (fun current y _ hy => drawRow_eq hfb hclipped hy (hdata y hy) current)
              (fun y hy => (setBgraAlphaOpaque_length _).trans (row_length (hdata y hy)))
            refine ⟨some (.rect clipped), { fb with bgra }, ?_, ?_⟩
            · rw [show clipped.height.toNat = clipped.region.count from rfl, hbgra]
              rfl
            · exact changed_rect hfb hinside hlength fun i hno => by rw [hbytes i, if_neg hno]

/-! ## 8. Copying -/

/-- The size of what is copied: the part of the source and of the destination that is there. -/
def VncFramebuffer.copySize (fb : VncFramebuffer) (dst : RfbRect) (srcX srcY : UInt16) : Nat × Nat :=
  (min (min dst.width.toNat (fb.width - srcX.toNat)) (fb.width - dst.x.toNat),
    min (min dst.height.toNat (fb.height - srcY.toNat)) (fb.height - dst.y.toNat))

/-- Byte `k` of the pixel at `x`, `y`. -/
def VncFramebuffer.sample (fb : VncFramebuffer) (x y k : Nat) : Option UInt8 :=
  fb.bgra[(y * fb.width + x) * 4 + k]?

/-- `w` times `h` pixels from `x`, `y`. -/
def pixels (x y w h : Nat) : Region where
  top := y
  count := h
  left := 4 * x
  len := 4 * w

theorem temporaryOffset_of {y w : Nat} (hy : y < maxDimension) (hw : w ≤ maxDimension) :
    (u32Mul y w >>= fun row => u32Mul row 4) =
      some ((pixels 0 0 w maxDimension).start (4 * w) y) := by
  have hproduct : y * w ≤ 8191 * 8192 := Nat.mul_le_mul (Nat.le_of_lt_succ hy) hw
  rw [u32Mul_of (by omega)]
  show u32Mul (y * w) 4 = _
  rw [u32Mul_of (by omega)]
  simp only [Region.start, pixels, Nat.zero_add, Nat.mul_zero, Nat.add_zero]
  rw [Nat.mul_assoc, Nat.mul_comm w]

theorem saveRow_eq {srcX srcY w h y : Nat} (hfb : fb.Valid) (hw : srcX + w ≤ fb.width)
    (hh : srcY + h ≤ fb.height) (hy : y < h) (scratch : List UInt8) :
    fb.saveRow srcX srcY w scratch y =
      copyInto scratch ((pixels 0 0 w h).start (4 * w) y)
        ((pixels 0 0 w h).start (4 * w) y + (pixels 0 0 w h).len)
        ((pixels srcX srcY w h).row (4 * fb.width) fb.bgra y) := by
  have hwidth := hfb.width_le
  have hheight := hfb.height_le
  unfold maxDimension at hwidth hheight
  have hsource : byteOffset (srcY + y) fb.width srcX =
      some ((pixels srcX srcY w h).start (4 * fb.width) y) :=
    byteOffset_of (by unfold maxDimension; omega) (by omega) (by omega)
  have htemporary := temporaryOffset_of (y := y) (w := w)
    (by unfold maxDimension; omega) (by unfold maxDimension; omega)
  have hfits : (pixels srcX srcY w h).Fits (4 * fb.width) fb.height :=
    ⟨by simp only [pixels]; omega, hh⟩
  have hslice : slice fb.bgra ((pixels srcX srcY w h).start (4 * fb.width) y)
      ((pixels srcX srcY w h).start (4 * fb.width) y + 4 * w) =
        some ((pixels srcX srcY w h).row (4 * fb.width) fb.bgra y) :=
    slice_row (r := pixels srcX srcY w h) (hfb.rows ▸ hfits.row_le hy)
  unfold VncFramebuffer.saveRow
  rw [Option.bind_eq_bind] at htemporary
  simp only [Option.bind_eq_bind, u32Add_of (show srcY + y < 2 ^ 32 by omega), Option.bind_some,
    hsource, pixelBytes_of (show w ≤ 65535 by omega), ← Option.bind_assoc, htemporary, hslice]
  rfl

theorem restoreRow_eq {dstX dstY w h y : Nat} {scratch : List UInt8} (hfb : fb.Valid)
    (hw : dstX + w ≤ fb.width) (hh : dstY + h ≤ fb.height) (hy : y < h)
    (hscratch : scratch.length = h * (4 * w)) (bgra : List UInt8) :
    fb.restoreRow dstX dstY w scratch bgra y =
      copyInto bgra ((pixels dstX dstY w h).start (4 * fb.width) y)
        ((pixels dstX dstY w h).start (4 * fb.width) y + (pixels dstX dstY w h).len)
        ((pixels 0 0 w h).row (4 * w) scratch y) := by
  have hwidth := hfb.width_le
  have hheight := hfb.height_le
  unfold maxDimension at hwidth hheight
  have htarget : byteOffset (dstY + y) fb.width dstX =
      some ((pixels dstX dstY w h).start (4 * fb.width) y) :=
    byteOffset_of (by unfold maxDimension; omega) (by omega) (by omega)
  have htemporary := temporaryOffset_of (y := y) (w := w)
    (by unfold maxDimension; omega) (by unfold maxDimension; omega)
  have hfits : (pixels 0 0 w h).Fits (4 * w) h :=
    ⟨by simp only [pixels]; omega, by simp only [pixels]; omega⟩
  have hslice : slice scratch ((pixels 0 0 w h).start (4 * w) y)
      ((pixels 0 0 w h).start (4 * w) y + 4 * w) = some ((pixels 0 0 w h).row (4 * w) scratch y) :=
    slice_row (r := pixels 0 0 w h) (hscratch ▸ hfits.row_le hy)
  have hsame : (pixels 0 0 w maxDimension).start (4 * w) y = (pixels 0 0 w h).start (4 * w) y := rfl
  unfold VncFramebuffer.restoreRow
  rw [Option.bind_eq_bind, hsame] at htemporary
  simp only [Option.bind_eq_bind, u32Add_of (show dstY + y < 2 ^ 32 by omega), Option.bind_some,
    htarget, pixelBytes_of (show w ≤ 65535 by omega), ← Option.bind_assoc, htemporary, hslice]
  rfl

theorem has_pixels (x y w h row : Nat) {column k width : Nat} (hcolumn : column < width)
    (hk : k < 4) :
    (pixels x y w h).Has (4 * width) ((row * width + column) * 4 + k) ↔
      (y ≤ row ∧ row < y + h) ∧ x ≤ column ∧ column < x + w := by
  have hplace : (row * width + column) * 4 + k = row * (4 * width) + (4 * column + k) := by
    rw [offset_eq, Nat.add_assoc]
  obtain ⟨hrow, hmod⟩ := (place_iff _ row (show 4 * column + k < 4 * width by omega)).mp hplace
  unfold Region.Has
  simp only [pixels]
  omega

theorem copyLoops_spec {srcX srcY dstX dstY w h : Nat} (hfb : fb.Valid)
    (hsrcX : srcX + w ≤ fb.width)
    (hsrcY : srcY + h ≤ fb.height) (hdstX : dstX + w ≤ fb.width) (hdstY : dstY + h ≤ fb.height) :
    ∃ scratch bgra,
      (List.range h).foldlM (fb.saveRow srcX srcY w) (List.replicate (w * h * 4) 0) = some scratch ∧
      (List.range h).foldlM (fb.restoreRow dstX dstY w scratch) fb.bgra = some bgra ∧
      bgra.length = fb.bgra.length ∧
      (∀ i, ¬ (pixels dstX dstY w h).Has (4 * fb.width) i → bgra[i]? = fb.bgra[i]?) ∧
      ∀ x y k, x < fb.width → k < 4 → VncFramebuffer.sample { fb with bgra } x y k =
        if (dstY ≤ y ∧ y < dstY + h) ∧ dstX ≤ x ∧ x < dstX + w then
          fb.sample (x - dstX + srcX) (y - dstY + srcY) k
        else fb.sample x y k := by
  have hsourceFits : (pixels srcX srcY w h).Fits (4 * fb.width) fb.height :=
    ⟨by simp only [pixels]; omega, hsrcY⟩
  have htargetFits : (pixels dstX dstY w h).Fits (4 * fb.width) fb.height :=
    ⟨by simp only [pixels]; omega, hdstY⟩
  have hscratchFits : (pixels 0 0 w h).Fits (4 * w) h :=
    ⟨by simp only [pixels]; omega, by simp only [pixels]; omega⟩
  have hempty : (List.replicate (w * h * 4) (0 : UInt8)).length = h * (4 * w) := by
    rw [List.length_replicate, Nat.mul_comm w, Nat.mul_assoc, Nat.mul_comm w]
  obtain ⟨scratch, hscratch, hscratchLength, hsaved⟩ := writeRows_spec
    ((pixels srcX srcY w h).row (4 * fb.width) fb.bgra) hscratchFits hempty
    (fun current y _ hy => saveRow_eq hfb hsrcX hsrcY hy current)
    (fun y hy => row_length (r := pixels srcX srcY w h) (hfb.rows ▸ hsourceFits.row_le hy))
  have hscratchRows := hscratchLength.trans hempty
  obtain ⟨bgra, hbgra, hlength, hbytes⟩ := writeRows_spec
    ((pixels 0 0 w h).row (4 * w) scratch) htargetFits hfb.rows
    (fun current y _ hy => restoreRow_eq hfb hdstX hdstY hy hscratchRows current)
    (fun y hy => row_length (r := pixels 0 0 w h) (hscratchRows ▸ hscratchFits.row_le hy))
  refine ⟨scratch, bgra, hscratch, hbgra, hlength, fun i hno => by rw [hbytes i, if_neg hno], ?_⟩
  intro x y k hx hk
  have hplace : (y * fb.width + x) * 4 + k = y * (4 * fb.width) + (4 * x + k) := by
    rw [offset_eq, Nat.add_assoc]
  obtain ⟨hrow, hmod⟩ := (place_iff _ y (show 4 * x + k < 4 * fb.width by omega)).mp hplace
  have hiff := has_pixels dstX dstY w h y hx hk
  simp only [VncFramebuffer.sample]
  rw [hbytes]
  by_cases hin : (dstY ≤ y ∧ y < dstY + h) ∧ dstX ≤ x ∧ x < dstX + w
  · have hcolumn : 4 * x + k - 4 * dstX < 4 * w := by omega
    rw [if_pos hin, if_pos (hiff.mpr hin), hrow, hmod]
    -- the byte of the scratch is the one that was saved there
    show ((pixels 0 0 w h).row (4 * w) scratch (y - dstY))[4 * x + k - 4 * dstX]? = _
    rw [getElem?_row (r := pixels 0 0 w h) hcolumn, hsaved]
    have hsavedPlace : (pixels 0 0 w h).start (4 * w) (y - dstY) + (4 * x + k - 4 * dstX) =
        (y - dstY) * (4 * w) + (4 * x + k - 4 * dstX) := by
      simp only [Region.start, pixels, Nat.zero_add, Nat.mul_zero, Nat.add_zero]
    obtain ⟨hsavedRow, hsavedMod⟩ := (place_iff _ (y - dstY) hcolumn).mp hsavedPlace
    have hhas : (pixels 0 0 w h).Has (4 * w)
        ((pixels 0 0 w h).start (4 * w) (y - dstY) + (4 * x + k - 4 * dstX)) :=
      has_start hscratchFits.right (show y - dstY < h by omega) hcolumn
    rw [if_pos hhas, hsavedRow, hsavedMod]
    show ((pixels srcX srcY w h).row (4 * fb.width) fb.bgra (y - dstY - 0))[
      4 * x + k - 4 * dstX - 4 * 0]? = _
    rw [Nat.mul_zero, Nat.sub_zero, Nat.sub_zero, getElem?_row (r := pixels srcX srcY w h) hcolumn]
    congr 1
    rw [offset_eq]
    simp only [Region.start, pixels]
    rw [Nat.add_comm srcY]
    omega
  · rw [if_neg hin, if_neg (fun hhas => hin (hiff.mp hhas))]

/-- What a copy leads to: its part of the source as it was before. -/
structure Copied (fb fb' : VncFramebuffer) (dst : RfbRect) (srcX srcY : UInt16) : Prop where
  width : fb'.width = fb.width
  height : fb'.height = fb.height
  pixel : ∀ x y k, x < fb.width → k < 4 → fb'.sample x y k =
    if (dst.y.toNat ≤ y ∧ y < dst.y.toNat + (fb.copySize dst srcX srcY).2) ∧
        dst.x.toNat ≤ x ∧ x < dst.x.toNat + (fb.copySize dst srcX srcY).1 then
      fb.sample (x - dst.x.toNat + srcX.toNat) (y - dst.y.toNat + srcY.toNat) k
    else fb.sample x y k

theorem copyRect_spec (hfb : fb.Valid) (dst : RfbRect) (srcX srcY : UInt16) :
    ∃ change fb', fb.copyRect dst srcX srcY = some (change, fb') ∧ fb'.Valid ∧
      Changed fb fb' change ∧ Copied fb fb' dst srcX srcY := by
  have hwidth := hfb.width_le
  have hheight := hfb.height_le
  unfold maxDimension at hwidth hheight
  obtain ⟨w, hw⟩ : ∃ w, w = (fb.copySize dst srcX srcY).1 := ⟨_, rfl⟩
  obtain ⟨h, hh⟩ : ∃ h, h = (fb.copySize dst srcX srcY).2 := ⟨_, rfl⟩
  have hw' : w = min (min dst.width.toNat (fb.width - srcX.toNat)) (fb.width - dst.x.toNat) := hw
  have hh' : h = min (min dst.height.toNat (fb.height - srcY.toNat)) (fb.height - dst.y.toNat) := hh
  -- nothing is copied where there is no source or no destination
  have hnothing : w = 0 ∨ h = 0 → ∃ change fb', some (none, fb) = some (change, fb') ∧ fb'.Valid ∧
      Changed fb fb' change ∧ Copied fb fb' dst srcX srcY := by
    intro hzero
    refine ⟨none, fb, rfl, hfb, rfl, rfl, rfl, fun x y k _ _ => ?_⟩
    rw [← hw, ← hh, if_neg (by omega)]
  unfold VncFramebuffer.copyRect
  rw [← hw', ← hh']
  split
  · exact hnothing (by omega)
  · split
    · exact hnothing (by omega)
    · dsimp only
      split
      · next hzero => exact hnothing hzero
      · next hpos =>
          obtain ⟨hsrcX, hsrcY, hdstX, hdstY⟩ : srcX.toNat + w ≤ fb.width ∧
              srcY.toNat + h ≤ fb.height ∧ dst.x.toNat + w ≤ fb.width ∧
              dst.y.toNat + h ≤ fb.height := by omega
          obtain ⟨scratch, bgra, hscratch, hbgra, hlength, hrest, hpixel⟩ :=
            copyLoops_spec hfb hsrcX hsrcY hdstX hdstY
          have hcopied : (UInt16.ofNat w).toNat = w := toNat_ofNat (by omega)
          have hcopied' : (UInt16.ofNat h).toNat = h := toNat_ofNat (by omega)
          let reported : RfbRect := { x := dst.x, y := dst.y, width := .ofNat w, height := .ofNat h }
          have hregion : reported.region = pixels dst.x.toNat dst.y.toNat w h := by
            simp only [RfbRect.region, reported, pixels, hcopied, hcopied']
          have hinside : reported.Inside fb := by
            refine ⟨?_, ?_, ?_, ?_⟩ <;> simp only [reported, hcopied, hcopied'] <;> omega
          obtain ⟨hvalid, hchanged⟩ := changed_rect hfb hinside hlength (hregion ▸ hrest)
          refine ⟨some (.rect reported), { fb with bgra }, ?_, hvalid, hchanged, rfl, rfl, ?_⟩
          · rw [hscratch]
            show ((List.range h).foldlM (fb.restoreRow dst.x.toNat dst.y.toNat w scratch) fb.bgra >>=
              _) = _
            rw [hbgra]
            rfl
          · rw [← hw, ← hh]
            exact hpixel

end Drawing

/-! ## 9. Events -/

/-- What applying an event does to a framebuffer: it ends, and reports what it changed. -/
def Applies (applied : Checked String (Option VncFramebufferChange × VncFramebuffer)) : Prop :=
  Checked.Total applied ∧ ∀ change fb', applied.run = some (.ok (change, fb')) →
    fb'.Valid ∧ Changed fb fb' change

theorem applies_none {fb : VncFramebuffer} (hfb : fb.Valid) : Applies fb (pure (none, fb)) := by
  refine ⟨Checked.total_ok _, fun change fb' h => ?_⟩
  cases h
  exact changed_none hfb

theorem applies_resize (width height : Nat) :
    Applies fb (do
      let next ← tryOpaqueBgraBuffer width height
      pure (some .full, { width, height, bgra := next })) := by
  constructor
  · exact (tryOpaqueBgraBuffer_total width height).bind fun _ _ => Checked.total_ok _
  · intro change fb' h
    obtain ⟨next, hnext, h⟩ := Checked.of_bind_ok h
    cases h
    exact ⟨of_tryOpaqueBgraBuffer hnext, trivial⟩

theorem applies_drawn {fb : VncFramebuffer}
    {drawn : Option (Option VncFramebufferChange × VncFramebuffer)}
    (h : ∃ change fb', drawn = some (change, fb') ∧ fb'.Valid ∧ Changed fb fb' change) :
    Applies fb (liftM drawn) := by
  obtain ⟨change, fb', rfl, hvalid, hchanged⟩ := h
  refine ⟨Checked.total_lift rfl, fun change' fb'' h => ?_⟩
  cases h
  exact ⟨hvalid, hchanged⟩

mutual

theorem tryApply_changed : ∀ (event : VncServerEvent) {fb : VncFramebuffer}, fb.Valid →
    Applies fb (fb.tryApply event)
  | .setResolution width height, fb, _ => applies_resize fb width.toNat height.toNat
  | .extendedDesktopSize update, fb, hfb => by
      rw [VncFramebuffer.tryApply]
      split
      · exact applies_resize fb update.width.toNat update.height.toNat
      · exact applies_none hfb
  | .rawImage rect data, _, hfb => applies_drawn (drawRect_changed hfb rect data)
  | .copyRect dst srcX srcY, _, hfb => by
      obtain ⟨change, fb', hcopy, hvalid, hchanged, -⟩ := copyRect_spec hfb dst srcX srcY
      exact applies_drawn ⟨change, fb', hcopy, hvalid, hchanged⟩
  | .batch events, _, hfb => tryApplyAll_changed events hfb hfb rfl
  | .clipboardText, _, hfb | .clipboardExtended, _, hfb | .cursorShape, _, hfb
  | .cursorHidden, _, hfb | .qemuAudioCapability, _, hfb | .qemuAudio, _, hfb
  | .qemuExtendedKeyEvents, _, hfb | .extendedMouseButtons, _, hfb | .lockKeys, _, hfb
  | .observedCapability, _, hfb | .serverFence, _, hfb | .endOfContinuousUpdates, _, hfb
  | .noop, _, hfb => applies_none hfb

theorem tryApplyAll_changed : ∀ (events : List VncServerEvent) {start fb : VncFramebuffer}
    {change : Option VncFramebufferChange}, start.Valid → fb.Valid → Changed start fb change →
    Applies start (fb.tryApplyAll change events)
  | [], _, _, _, _, hfb, hchange => by
      refine ⟨Checked.total_ok _, fun change' fb' h => ?_⟩
      cases h
      exact ⟨hfb, hchange⟩
  | event :: events, start, fb, change, hstart, hfb, hchange => by
      obtain ⟨htotal, happlied⟩ := tryApply_changed event hfb
      constructor
      · refine htotal.bind fun applied h => ?_
        obtain ⟨hvalid, hincoming⟩ := happlied applied.1 applied.2 h
        exact (tryApplyAll_changed events hstart hvalid (hchange.merge hstart hincoming)).1
      · intro change' fb' h
        obtain ⟨applied, hevent, h⟩ := Checked.of_bind_ok h
        obtain ⟨hvalid, hincoming⟩ := happlied applied.1 applied.2 hevent
        exact (tryApplyAll_changed events hstart hvalid (hchange.merge hstart hincoming)).2 _ _ h

end

end Hapcli.Vnc

/-
  Subject:   The viewer that is sent the framebuffer of the VNC helper (`decode.rs`, and `model.rs` of
             the remote desktop).

  The helper sends its framebuffer once, and after that the rectangles that it reports as changed.

  * **`applyUpdate_frame`** -- the update for a change makes the framebuffer before it the one after;
  * `VncSession`, `VncSession.step` -- a helper and its viewer; **`Mirrors.step`**;
  * **`viewer_mirrors`** -- over any events the viewer holds what the helper holds.
-/
import Hapcli.Vnc.Framebuffer

namespace Hapcli.Vnc

open Hapcli.Lib Hapcli.Rust

/-! ## 1. Frames -/

structure RemoteDesktopSize where
  width : Nat
  height : Nat
  deriving DecidableEq

inductive RemoteDesktopFrameFormat
  | rgba8
  | bgra8
  deriving DecidableEq

def RemoteDesktopFrameFormat.bytesPerPixel : RemoteDesktopFrameFormat → Nat
  | .rgba8 | .bgra8 => 4

inductive RemoteDesktopFrameCompression
  | none
  deriving DecidableEq

structure RemoteDesktopRect where
  x : Nat
  y : Nat
  width : Nat
  height : Nat
  deriving DecidableEq

namespace RemoteDesktopRect

def expectedLen (rect : RemoteDesktopRect) (format : RemoteDesktopFrameFormat) : Option Nat := do
  usizeMul (← usizeMul rect.width rect.height) format.bytesPerPixel

/-- `fits_in`, with `checked_add` of the ends. -/
def fitsIn (rect : RemoteDesktopRect) (size : RemoteDesktopSize) : Bool :=
  match u32Add rect.x rect.width, u32Add rect.y rect.height with
  | some right, some bottom =>
    0 < rect.width && 0 < rect.height && rect.x < size.width && rect.y < size.height &&
      right ≤ size.width && bottom ≤ size.height
  | _, _ => false

end RemoteDesktopRect

structure RemoteDesktopFrame where
  size : RemoteDesktopSize
  format : RemoteDesktopFrameFormat
  graphicsEpoch : Nat
  traceId : Option Nat
  bytes : List UInt8
  deriving DecidableEq

structure RemoteDesktopFrameUpdate where
  size : RemoteDesktopSize
  rect : RemoteDesktopRect
  format : RemoteDesktopFrameFormat
  graphicsEpoch : Nat
  traceId : Option Nat
  compression : RemoteDesktopFrameCompression
  bytes : List UInt8

def RemoteDesktopFrameUpdate.isComplete (update : RemoteDesktopFrameUpdate) : Bool :=
  (update.rect.expectedLen update.format == some update.bytes.length) &&
    update.rect.fitsIn update.size

/-- `checked_add` of two `usize`. -/
def usizeAdd (a b : Nat) : Option Nat := if a + b ≤ u64Max then some (a + b) else none

/-- Where row `row` of `copy_rect_bytes` is written and read. -/
def copyRectOffsets (dstX dstY dstStride srcStride rowLen pixelSize row : Nat) :
    Option (Nat × Nat × Nat × Nat) := do
  let dstOffset ← usizeAdd (← usizeMul (← usizeAdd dstY row) dstStride) (← usizeMul dstX pixelSize)
  let srcOffset ← usizeMul row srcStride
  let dstEnd ← usizeAdd dstOffset rowLen
  let srcEnd ← usizeAdd srcOffset rowLen
  some (dstOffset, dstEnd, srcOffset, srcEnd)

/-- A turn of `copy_rect_bytes`; what it has failed with is what is written so far. -/
def copyRectRow (rect : RemoteDesktopRect) (src : List UInt8) (dstStride srcStride rowLen pixelSize : Nat)
    (dst : List UInt8) (row : Nat) : Except (List UInt8) (List UInt8) :=
  match copyRectOffsets rect.x rect.y dstStride srcStride rowLen pixelSize row with
  | none => .error dst
  | some (dstOffset, dstEnd, srcOffset, srcEnd) =>
    match slice src srcOffset srcEnd >>= copyInto dst dstOffset dstEnd with
    | none => .error dst
    | some dst => .ok dst

/-- `copy_rect_bytes`: whether all is copied, and the bytes afterwards. -/
def copyRectBytes (dst : List UInt8) (dstWidth : Nat) (dstRect : RemoteDesktopRect)
    (src : List UInt8) (srcWidth pixelSize : Nat) : Bool × List UInt8 :=
  match usizeMul dstWidth pixelSize, usizeMul srcWidth pixelSize,
    usizeMul dstRect.width pixelSize with
  | some dstStride, some srcStride, some rowLen =>
    match (List.range dstRect.height).foldlM
      (copyRectRow dstRect src dstStride srcStride rowLen pixelSize) dst with
    | .ok dst => (true, dst)
    | .error dst => (false, dst)
  | _, _, _ => (false, dst)

namespace RemoteDesktopFrame

def expectedLen (size : RemoteDesktopSize) : Option Nat := do
  usizeMul (← usizeMul size.width size.height) RemoteDesktopFrameFormat.rgba8.bytesPerPixel

def isComplete (frame : RemoteDesktopFrame) : Bool :=
  expectedLen frame.size == some frame.bytes.length

/-- `apply_update`: whether it is applied, and the frame afterwards. -/
def applyUpdate (frame : RemoteDesktopFrame) (update : RemoteDesktopFrameUpdate) :
    Bool × RemoteDesktopFrame :=
  if frame.graphicsEpoch ≠ update.graphicsEpoch ∨ frame.size ≠ update.size ∨
      frame.format ≠ update.format ∨ update.compression ≠ .none ∨ frame.isComplete = false ∨
      update.isComplete = false ∨ update.rect.fitsIn update.size = false then (false, frame)
  else
    let (applied, bytes) := copyRectBytes frame.bytes frame.size.width update.rect update.bytes
      update.rect.width frame.format.bytesPerPixel
    (applied, { frame with bytes })

end RemoteDesktopFrame

/-! ## 2. What the helper sends -/

namespace VncFramebuffer

def size (fb : VncFramebuffer) : RemoteDesktopSize := ⟨fb.width, fb.height⟩

def frame (fb : VncFramebuffer) : RemoteDesktopFrame where
  size := fb.size
  format := .bgra8
  graphicsEpoch := 0
  traceId := none
  bytes := fb.bgra

def frameUpdate (fb : VncFramebuffer) (rect : RfbRect) : Option (Option RemoteDesktopFrameUpdate) :=
  match fb.clippedRect rect with
  | none => some none
  | some rect => do
      match ← fb.rectBytes rect with
      | none => some none
      | some bytes =>
        some (some
          { size := fb.size
            rect := ⟨rect.x.toNat, rect.y.toNat, rect.width.toNat, rect.height.toNat⟩
            format := .bgra8, graphicsEpoch := 0, traceId := none, compression := .none, bytes })

end VncFramebuffer

/-- `RemoteDesktopHelperEvent`, as far as it carries pixels. -/
inductive RemoteDesktopHelperEvent
  | frame (frame : RemoteDesktopFrame)
  | frameUpdate (update : RemoteDesktopFrameUpdate)

/-- `vnc_frame_event_for_change`, with `sent_initial_frame` afterwards. -/
def vncFrameEventForChange (framebuffer : VncFramebuffer) (change : VncFramebufferChange)
    (sentInitialFrame forceBaseFrame : Bool) : Option (RemoteDesktopHelperEvent × Bool) :=
  if forceBaseFrame then some (.frame framebuffer.frame, true)
  else
    match change with
    | .full => some (.frame framebuffer.frame, true)
    | .rect rect =>
      if sentInitialFrame then do
        match ← framebuffer.frameUpdate rect with
        | some update => some (.frameUpdate update, sentInitialFrame)
        | none => some (.frame framebuffer.frame, true)
      else some (.frame framebuffer.frame, true)

/-! ## 3. A helper and its viewer -/

/-- The viewer has no frame before the first. -/
def viewMessage (viewer : Option RemoteDesktopFrame) :
    RemoteDesktopHelperEvent → Option RemoteDesktopFrame
  | .frame frame => some frame
  | .frameUpdate update => viewer.map fun frame => (frame.applyUpdate update).2

structure VncSession where
  framebuffer : VncFramebuffer
  sentInitialFrame : Bool
  viewer : Option RemoteDesktopFrame

namespace VncSession

def start (framebuffer : VncFramebuffer) : VncSession := ⟨framebuffer, false, none⟩

/-- An event of the server is applied, and the viewer told of the change. -/
def step (session : VncSession) (input : VncServerEvent × Bool) : Checked String VncSession := do
  let (change, framebuffer) ← session.framebuffer.tryApply input.1
  match change with
  | none => pure { session with framebuffer }
  | some change =>
    let (message, sentInitialFrame) ←
      (vncFrameEventForChange framebuffer change session.sentInitialFrame input.2 : Option _)
    pure { framebuffer, sentInitialFrame, viewer := viewMessage session.viewer message }

/-- Event after event, to the first error. -/
def run (session : VncSession) : List (VncServerEvent × Bool) → Checked String VncSession
  | [] => pure session
  | input :: inputs => do (← session.step input).run inputs

end VncSession

/-! ## 4. The bytes of a rectangle -/

variable {fb fb' : VncFramebuffer} {rect : RfbRect}

section Bytes

theorem usizeMul_of {a b : Nat} (h : a * b ≤ u64Max) : usizeMul a b = some (a * b) := if_pos h

theorem usizeAdd_of {a b : Nat} (h : a + b ≤ u64Max) : usizeAdd a b = some (a + b) := if_pos h

theorem area_eq (w h : Nat) : w * h * 4 = h * (4 * w) := by
  rw [Nat.mul_comm w, Nat.mul_assoc, Nat.mul_comm w]

theorem area_of {w h : Nat} (hw : w ≤ maxDimension) (hh : h ≤ maxDimension) :
    (usizeMul w h >>= fun pixels => usizeMul pixels 4) = some (h * (4 * w)) := by
  have hproduct : w * h ≤ 8192 * 8192 := Nat.mul_le_mul hw hh
  rw [usizeMul_of (by unfold u64Max; omega)]
  show usizeMul (w * h) 4 = _
  rw [usizeMul_of (by unfold u64Max; omega), area_eq]

theorem RfbRect.Inside.width_le (hfb : fb.Valid) (h : rect.Inside fb) :
    rect.width.toNat ≤ maxDimension := by
  have := hfb.width_le
  have := h.right
  omega

theorem RfbRect.Inside.height_le (hfb : fb.Valid) (h : rect.Inside fb) :
    rect.height.toNat ≤ maxDimension := by
  have := hfb.height_le
  have := h.bottom
  omega

/-- The bytes of a rectangle one after the other. -/
def RfbRect.packed (rect : RfbRect) : Region := pixels 0 0 rect.width.toNat rect.height.toNat

theorem packed_fits (rect : RfbRect) : rect.packed.Fits (4 * rect.width.toNat) rect.height.toNat :=
  ⟨by simp only [RfbRect.packed, pixels]; omega, by simp only [RfbRect.packed, pixels]; omega⟩

theorem bytesRow_eq (hfb : fb.Valid) (h : rect.Inside fb) {y : Nat} (hy : y < rect.height.toNat)
    (bytes : List UInt8) :
    fb.bytesRow rect bytes y =
      copyInto bytes (rect.packed.start (4 * rect.width.toNat) y)
        (rect.packed.start (4 * rect.width.toNat) y + rect.packed.len)
        (rect.region.row (4 * fb.width) fb.bgra y) := by
  have hsource : ((rect.y.toNat + y) * fb.width + rect.x.toNat) * 4 =
      rect.region.start (4 * fb.width) y := offset_eq _ _ _
  have htarget : y * rect.width.toNat * 4 = rect.packed.start (4 * rect.width.toNat) y := by
    simp only [Region.start, RfbRect.packed, pixels, Nat.zero_add, Nat.mul_zero, Nat.add_zero]
    rw [Nat.mul_assoc, Nat.mul_comm rect.width.toNat]
  have hslice : slice fb.bgra (rect.region.start (4 * fb.width) y)
      (rect.region.start (4 * fb.width) y + 4 * rect.width.toNat) =
        some (rect.region.row (4 * fb.width) fb.bgra y) :=
    slice_row (r := rect.region) (hfb.rows ▸ h.fits.row_le hy)
  unfold VncFramebuffer.bytesRow
  dsimp only
  rw [hsource, htarget, Nat.mul_comm rect.width.toNat 4, hslice]
  rfl

theorem rectBytes_inside (hfb : fb.Valid) (h : rect.Inside fb) :
    ∃ bytes, fb.rectBytes rect = some (some bytes) ∧
      bytes.length = rect.height.toNat * (4 * rect.width.toNat) ∧
      ∀ y j, y < rect.height.toNat → j < 4 * rect.width.toNat →
        bytes[y * (4 * rect.width.toNat) + j]? =
          fb.bgra[rect.region.start (4 * fb.width) y + j]? := by
  have hempty : (List.replicate (rect.height.toNat * (4 * rect.width.toNat)) (0 : UInt8)).length =
      rect.height.toNat * (4 * rect.width.toNat) := List.length_replicate
  obtain ⟨bytes, hbytes, hlength, hcontent⟩ := writeRows_spec
    (rect.region.row (4 * fb.width) fb.bgra) (packed_fits rect) hempty
    (fun current y _ hy => bytesRow_eq hfb h hy current)
    (fun y hy => row_length (r := rect.region) (hfb.rows ▸ h.fits.row_le hy))
  refine ⟨bytes, ?_, hlength.trans hempty, fun y j hy hj => ?_⟩
  · unfold VncFramebuffer.rectBytes
    rw [clippedRect_inside h]
    dsimp only
    rw [area_of (h.width_le hfb) (h.height_le hfb)]
    show ((List.range rect.packed.count).foldlM (fb.bytesRow rect) _ >>= _) = _
    rw [hbytes]
    rfl
  · obtain ⟨hrow, hmod⟩ := (place_iff _ y hj).mp rfl
    have hhas : rect.packed.Has (4 * rect.width.toNat) (y * (4 * rect.width.toNat) + j) := by
      unfold Region.Has
      rw [hrow, hmod]
      simp only [RfbRect.packed, pixels]
      omega
    rw [hcontent, if_pos hhas, hrow, hmod]
    exact getElem?_row (r := rect.region) hj

end Bytes

/-! ## 5. An update is applied -/

section Update

/-- A rectangle of the helper as the viewer has it. -/
def RfbRect.remote (rect : RfbRect) : RemoteDesktopRect :=
  ⟨rect.x.toNat, rect.y.toNat, rect.width.toNat, rect.height.toNat⟩

section

variable (hfb : fb.Valid)

include hfb

theorem copyRectOffsets_eq (h : rect.Inside fb) {row : Nat} (hrow : row < rect.height.toNat) :
    copyRectOffsets rect.x.toNat rect.y.toNat (4 * fb.width) (4 * rect.width.toNat)
      (4 * rect.width.toNat) 4 row =
        some (rect.region.start (4 * fb.width) row,
          rect.region.start (4 * fb.width) row + 4 * rect.width.toNat,
          rect.packed.start (4 * rect.width.toNat) row,
          rect.packed.start (4 * rect.width.toNat) row + 4 * rect.width.toNat) := by
  have hw := hfb.width_le
  have hh := hfb.height_le
  have hright := h.right
  have hbottom := h.bottom
  unfold maxDimension at hw hh
  have htarget : (rect.y.toNat + row) * (4 * fb.width) ≤ 8192 * 32768 :=
    Nat.mul_le_mul (by omega) (by omega)
  have hsource : row * (4 * rect.width.toNat) ≤ 8192 * 32768 :=
    Nat.mul_le_mul (by omega) (by omega)
  have hbig : 8192 * 32768 + 3 * 32768 ≤ u64Max := by decide
  unfold copyRectOffsets
  simp only [Option.bind_eq_bind, usizeAdd_of (show rect.y.toNat + row ≤ u64Max by omega),
    Option.bind_some, usizeMul_of (show (rect.y.toNat + row) * (4 * fb.width) ≤ u64Max by omega),
    usizeMul_of (show rect.x.toNat * 4 ≤ u64Max by omega),
    usizeMul_of (show row * (4 * rect.width.toNat) ≤ u64Max by omega)]
  rw [usizeAdd_of (show (rect.y.toNat + row) * (4 * fb.width) + rect.x.toNat * 4 ≤ u64Max by omega)]
  simp only [Option.bind_some]
  rw [usizeAdd_of (by omega), usizeAdd_of (by omega)]
  simp only [Option.bind_some, Region.start, RfbRect.region, RfbRect.packed, pixels, Nat.zero_add,
    Nat.mul_zero, Nat.add_zero, Nat.mul_comm rect.x.toNat 4]

theorem expectedLen_size : RemoteDesktopFrame.expectedLen fb.size = some fb.bgra.length := by
  rw [hfb.rows]
  exact area_of hfb.width_le hfb.height_le

theorem fitsIn_inside (h : rect.Inside fb) : rect.remote.fitsIn fb.size = true := by
  have hw := hfb.width_le
  have hh := hfb.height_le
  have hright := h.right
  have hbottom := h.bottom
  have hwidth := h.width_pos
  have hheight := h.height_pos
  unfold maxDimension at hw hh
  unfold RemoteDesktopRect.fitsIn RfbRect.remote VncFramebuffer.size
  dsimp only
  rw [u32Add_of (by omega), u32Add_of (by omega)]
  simp only [Bool.and_eq_true, decide_eq_true_eq]
  omega

/-- The bytes of a rectangle of the later framebuffer, copied into the earlier. -/
theorem copyRectBytes_frame {bytes : List UInt8} (hinside : rect.Inside fb)
    (hwidth : fb'.width = fb.width)
    (hlength : bytes.length = rect.height.toNat * (4 * rect.width.toNat))
    (hcontent : ∀ y j, y < rect.height.toNat → j < 4 * rect.width.toNat →
      bytes[y * (4 * rect.width.toNat) + j]? = fb'.bgra[rect.region.start (4 * fb'.width) y + j]?)
    (hrest : ∀ i, ¬ rect.region.Has (4 * fb.width) i → fb'.bgra[i]? = fb.bgra[i]?) :
    copyRectBytes fb.bgra fb.width rect.remote bytes rect.width.toNat 4 = (true, fb'.bgra) := by
  have hpacked : ∀ y, y < rect.height.toNat →
      rect.packed.start (4 * rect.width.toNat) y + rect.packed.len ≤ bytes.length := by
    intro y hy
    rw [hlength]
    exact (packed_fits rect).row_le hy
  let writeRow : List UInt8 → Nat → Option (List UInt8) := fun dst y =>
    copyInto dst (rect.region.start (4 * fb.width) y)
      (rect.region.start (4 * fb.width) y + rect.region.len)
      (rect.packed.row (4 * rect.width.toNat) bytes y)
  obtain ⟨written, hwritten, hwrittenLength, hplaces⟩ := writeRows_spec
    (rect.packed.row (4 * rect.width.toNat) bytes) hinside.fits hfb.rows
    (fun current y _ _ => show writeRow current y = _ from rfl)
    (fun y hy => row_length (hpacked y hy))
  have hloop : (List.range rect.height.toNat).foldlM (copyRectRow rect.remote bytes
      (4 * fb.width) (4 * rect.width.toNat) (4 * rect.width.toNat) 4) fb.bgra = .ok written := by
    refine foldlM_ok_of_some (fun current y next hy hnext => ?_) hwritten
    have hy' : y < rect.height.toNat := List.mem_range.mp hy
    have hslice : slice bytes (rect.packed.start (4 * rect.width.toNat) y)
        (rect.packed.start (4 * rect.width.toNat) y + 4 * rect.width.toNat) =
          some (rect.packed.row (4 * rect.width.toNat) bytes y) := slice_row (hpacked y hy')
    unfold copyRectRow
    rw [show copyRectOffsets rect.remote.x rect.remote.y _ _ _ _ y = _ from
      copyRectOffsets_eq hfb hinside hy']
    dsimp only
    rw [hslice]
    show (match writeRow current y with
      | none => Except.error current
      | some dst => Except.ok dst) = _
    rw [hnext]
  have hall : written = fb'.bgra := by
    refine List.ext_getElem? fun i => ?_
    rw [hplaces i]
    split
    · next hhas =>
        obtain ⟨⟨htop, hbottom⟩, hleft, hright⟩ := hhas
        simp only [RfbRect.region] at htop hbottom hleft hright
        have hrow : i / (4 * fb.width) - rect.y.toNat < rect.height.toNat := by omega
        have hcolumn : i % (4 * fb.width) - 4 * rect.x.toNat < 4 * rect.width.toNat := by omega
        show (rect.packed.row (4 * rect.width.toNat) bytes (i / (4 * fb.width) - rect.y.toNat))[
          i % (4 * fb.width) - 4 * rect.x.toNat]? = _
        rw [getElem?_row (r := rect.packed) hcolumn]
        simp only [Region.start, RfbRect.packed, pixels, Nat.zero_add, Nat.mul_zero, Nat.add_zero]
        rw [hcontent _ _ hrow hcolumn]
        have hright' := hinside.right
        have hplace := (place_iff i _ (show i % (4 * fb.width) < 4 * fb.width by omega)).mpr
          ⟨rfl, rfl⟩
        have hindex : rect.region.start (4 * fb'.width) (i / (4 * fb.width) - rect.y.toNat) +
            (i % (4 * fb.width) - 4 * rect.x.toNat) = i := by
          simp only [Region.start, RfbRect.region, hwidth]
          rw [Nat.add_sub_cancel' htop]
          omega
        rw [hindex]
    · next hno => rw [hrest i hno]
  have hw := hfb.width_le
  have hw' := hinside.width_le hfb
  unfold maxDimension at hw hw'
  have hbig : 4 * 8192 ≤ u64Max := by decide
  unfold copyRectBytes
  rw [usizeMul_of (show fb.width * 4 ≤ u64Max by omega),
    usizeMul_of (show rect.width.toNat * 4 ≤ u64Max by omega),
    usizeMul_of (show rect.remote.width * 4 ≤ u64Max by
      show rect.width.toNat * 4 ≤ u64Max
      omega)]
  dsimp only
  rw [Nat.mul_comm fb.width, Nat.mul_comm rect.width.toNat]
  show (match (List.range rect.height.toNat).foldlM (copyRectRow rect.remote bytes
    (4 * fb.width) (4 * rect.width.toNat) (rect.width.toNat * 4) 4) fb.bgra with
    | .ok dst => (true, dst)
    | .error dst => (false, dst)) = _
  rw [Nat.mul_comm rect.width.toNat, hloop, hall]

/-- The update for a change makes the framebuffer before it the one after it. -/
theorem applyUpdate_frame (hfb' : fb'.Valid) (h : Changed fb fb' (some (.rect rect))) :
    ∃ update, fb'.frameUpdate rect = some (some update) ∧
      fb.frame.applyUpdate update = (true, fb'.frame) := by
  obtain ⟨hwidth, hheight, hinside, hrest⟩ := h
  have hinside' : rect.Inside fb' :=
    ⟨hinside.width_pos, hinside.height_pos, hwidth ▸ hinside.right, hheight ▸ hinside.bottom⟩
  obtain ⟨bytes, hbytes, hlength, hcontent⟩ := rectBytes_inside hfb' hinside'
  let update : RemoteDesktopFrameUpdate :=
    { size := fb'.size, rect := rect.remote, format := .bgra8, graphicsEpoch := 0, traceId := none
      compression := .none, bytes }
  refine ⟨update, ?_, ?_⟩
  · unfold VncFramebuffer.frameUpdate
    rw [clippedRect_inside hinside']
    dsimp only
    rw [hbytes]
    rfl
  · have hsize : fb.size = fb'.size := by
      unfold VncFramebuffer.size
      rw [hwidth, hheight]
    have hcomplete : fb.frame.isComplete = true := by
      show (RemoteDesktopFrame.expectedLen fb.size == some fb.bgra.length) = true
      rw [expectedLen_size hfb, beq_self_eq_true]
    have hfits : rect.remote.fitsIn fb'.size = true := fitsIn_inside hfb' hinside'
    have hexpected : rect.remote.expectedLen .bgra8 = some bytes.length := by
      rw [hlength]
      exact area_of (hinside'.width_le hfb') (hinside'.height_le hfb')
    have hupdate : update.isComplete = true := by
      show ((rect.remote.expectedLen .bgra8 == some bytes.length) && rect.remote.fitsIn fb'.size) = true
      rw [hexpected, beq_self_eq_true, hfits]
      rfl
    have hcopy : copyRectBytes fb.bgra fb.width rect.remote bytes rect.width.toNat 4 =
        (true, fb'.bgra) := copyRectBytes_frame hfb hinside hwidth hlength hcontent hrest
    unfold RemoteDesktopFrame.applyUpdate
    rw [if_neg]
    · show ((copyRectBytes fb.bgra fb.width rect.remote bytes rect.width.toNat 4).1,
        { fb.frame with bytes := (copyRectBytes fb.bgra fb.width rect.remote bytes
          rect.width.toNat 4).2 }) = _
      rw [hcopy]
      show (true, { fb.frame with bytes := fb'.bgra }) = (true, fb'.frame)
      unfold VncFramebuffer.frame
      rw [hsize]
    · rw [hcomplete, hupdate]
      have hf : update.rect.fitsIn update.size = true := hfits
      rw [hf]
      simp only [not_or, Decidable.not_not, Bool.true_eq_false, not_false_eq_true, and_true]
      exact ⟨rfl, hsize, rfl⟩

end

end Update

/-! ## 6. Over any events -/

/-- A viewer that has had its first frame holds what the helper holds. -/
structure Mirrors (session : VncSession) : Prop where
  valid : session.framebuffer.Valid
  viewer : session.viewer =
    if session.sentInitialFrame then some session.framebuffer.frame else none

theorem vncFrameEventForChange_mirrors {change : VncFramebufferChange}
    {sent : Bool} {viewer : Option RemoteDesktopFrame} (hfb : fb.Valid) (hfb' : fb'.Valid)
    (h : Changed fb fb' (some change)) (hviewer : viewer = if sent then some fb.frame else none)
    (force : Bool) :
    ∃ message, vncFrameEventForChange fb' change sent force = some (message, true) ∧
      viewMessage viewer message = some fb'.frame := by
  unfold vncFrameEventForChange
  split
  · exact ⟨_, rfl, rfl⟩
  · cases change with
    | full => exact ⟨_, rfl, rfl⟩
    | rect rect =>
      cases sent with
      | false => exact ⟨_, rfl, rfl⟩
      | true =>
        obtain ⟨update, hupdate, happlied⟩ := applyUpdate_frame hfb hfb' h
        refine ⟨.frameUpdate update, ?_, ?_⟩
        · simp only [if_true, hupdate]
          rfl
        · rw [hviewer]
          show some (fb.frame.applyUpdate update).2 = _
          rw [happlied]

section Run

variable {session : VncSession}

theorem VncSession.mirrors_start {framebuffer : VncFramebuffer} (h : framebuffer.Valid) :
    Mirrors (VncSession.start framebuffer) := ⟨h, rfl⟩

theorem Mirrors.step (h : Mirrors session) (input : VncServerEvent × Bool) :
    Checked.Total (session.step input) ∧
      ∀ next, (session.step input).run = some (.ok next) → Mirrors next := by
  obtain ⟨htotal, happlied⟩ := tryApply_changed input.1 h.valid
  unfold VncSession.step
  constructor
  · refine htotal.bind fun applied happly => ?_
    obtain ⟨change, framebuffer⟩ := applied
    obtain ⟨hvalid, hchanged⟩ := happlied change framebuffer happly
    cases change with
    | none => exact Checked.total_ok _
    | some change =>
      obtain ⟨message, hmessage, -⟩ :=
        vncFrameEventForChange_mirrors h.valid hvalid hchanged h.viewer input.2
      exact (Checked.total_lift hmessage).bind fun _ _ => Checked.total_ok _
  · intro next hnext
    obtain ⟨applied, happly, hnext⟩ := Checked.of_bind_ok hnext
    obtain ⟨change, framebuffer⟩ := applied
    obtain ⟨hvalid, hchanged⟩ := happlied change framebuffer happly
    cases change with
    | none =>
      obtain rfl : framebuffer = session.framebuffer := hchanged
      cases hnext
      exact h
    | some change =>
      obtain ⟨message, hmessage, hview⟩ :=
        vncFrameEventForChange_mirrors h.valid hvalid hchanged h.viewer input.2
      obtain ⟨sent, hsent, hnext⟩ := Checked.of_bind_ok hnext
      obtain rfl := Option.some.inj (hmessage.symm.trans (Checked.of_lift hsent))
      cases hnext
      exact ⟨hvalid, hview⟩

theorem Mirrors.run (h : Mirrors session) (inputs : List (VncServerEvent × Bool)) :
    Checked.Total (session.run inputs) ∧
      ∀ last, (session.run inputs).run = some (.ok last) → Mirrors last := by
  induction inputs generalizing session with
  | nil =>
    refine ⟨Checked.total_ok _, fun last hlast => ?_⟩
    cases hlast
    exact h
  | cons input inputs ih =>
    obtain ⟨htotal, hstep⟩ := h.step input
    constructor
    · exact htotal.bind fun next hnext => (ih (hstep next hnext)).1
    · intro last hlast
      obtain ⟨next, hnext, hlast⟩ := Checked.of_bind_ok hlast
      exact (ih (hstep next hnext)).2 last hlast

end Run

/-- **The viewer mirrors the helper**, over any events of the server; and a copy is that of the
    clipped source as it was before. -/
theorem viewer_mirrors {width height : UInt16} {framebuffer : VncFramebuffer}
    (hnew : (VncFramebuffer.tryNew width height).run = some (.ok framebuffer))
    (inputs : List (VncServerEvent × Bool)) :
    (VncSession.start framebuffer).run inputs ≠ Checked.stop ∧
    (∀ session, ((VncSession.start framebuffer).run inputs).run = some (.ok session) →
      session.framebuffer.bgra.length =
        4 * session.framebuffer.width * session.framebuffer.height ∧
      session.framebuffer.Valid ∧
      session.viewer =
        if session.sentInitialFrame then some session.framebuffer.frame else none) ∧
    ∀ fb : VncFramebuffer, fb.Valid → ∀ dst srcX srcY, ∃ change copied,
      fb.copyRect dst srcX srcY = some (change, copied) ∧ Copied fb copied dst srcX srcY := by
  obtain ⟨htotal, hrun⟩ :=
    (VncSession.mirrors_start (VncFramebuffer.Valid.of_tryNew hnew)).run inputs
  refine ⟨?_, ?_, ?_⟩
  · intro hstop
    obtain ⟨outcome, houtcome⟩ := htotal
    rw [hstop] at houtcome
    cases houtcome
  · intro session hsession
    obtain ⟨hvalid, hviewer⟩ := hrun session hsession
    exact ⟨hvalid.length, hvalid, hviewer⟩
  · intro fb hvalid dst srcX srcY
    obtain ⟨change, copied, hcopy, -, -, hcopied⟩ := copyRect_spec hvalid dst srcX srcY
    exact ⟨change, copied, hcopy, hcopied⟩

/-- Two pixels: one is drawn, and drawn again and copied over the other in a batch. -/
theorem viewer_mirrors_copy :
    ∃ session, ((VncSession.start ⟨2, 1, [0, 0, 0, 0xff, 0, 0, 0, 0xff]⟩).run
        [(.rawImage ⟨0, 0, 1, 1⟩ [1, 2, 3, 4], false),
          (.batch [.rawImage ⟨0, 0, 1, 1⟩ [5, 6, 7, 8], .copyRect ⟨1, 0, 9, 9⟩ 0 0], false)]).run =
        some (.ok session) ∧
      session.viewer = some session.framebuffer.frame ∧
      session.framebuffer.bgra = [5, 6, 7, 0xff, 5, 6, 7, 0xff] := by
  have hnew : (VncFramebuffer.tryNew 2 1).run =
      some (.ok ⟨2, 1, [0, 0, 0, 0xff, 0, 0, 0, 0xff]⟩) := rfl
  have hrun : ((VncSession.start ⟨2, 1, [0, 0, 0, 0xff, 0, 0, 0, 0xff]⟩).run
      [(.rawImage ⟨0, 0, 1, 1⟩ [1, 2, 3, 4], false),
        (.batch [.rawImage ⟨0, 0, 1, 1⟩ [5, 6, 7, 8], .copyRect ⟨1, 0, 9, 9⟩ 0 0], false)]).run =
      some (.ok ⟨⟨2, 1, [5, 6, 7, 0xff, 5, 6, 7, 0xff]⟩, true,
        some ⟨⟨2, 1⟩, .bgra8, 0, none, [5, 6, 7, 0xff, 5, 6, 7, 0xff]⟩⟩) := rfl
  exact ⟨_, hrun, ((viewer_mirrors hnew _).2.1 _ hrun).2.2, rfl⟩

end Hapcli.Vnc

/-
  Subject:   Rectangles of RGBA pixels: filling a canvas, copying a rectangle out of it, and
             blending one into it.

  A slice whose bounds are not in its buffer panics.

  * **`blendProtocolRgbaRect_length`** -- blending keeps the length of the canvas.
-/
import Hapcli.Graphics.Decode

namespace Hapcli.Graphics

/-! ## 1. Loops that may panic -/

/-- A `for` loop over `items` that changes one value. -/
def forEach {α β : Type} (body : β → α → Outcome β) : List α → β → Outcome β
  | [], value => .ok value
  | item :: items, value => do
      let value ← body value item
      forEach body items value

theorem forEach_keeps {α β : Type} {body : β → α → Outcome β} (P : β → Prop)
    (hbody : ∀ value item value', P value → body value item = .ok value' → P value')
    {items : List α} {value value' : β} (hvalue : P value)
    (h : forEach body items value = .ok value') : P value' := by
  induction items generalizing value with
  | nil =>
    cases h
    exact hvalue
  | cons item items ih =>
    obtain ⟨next, hnext, h⟩ := Outcome.bind_eq_ok h
    exact ih (hbody value item next hvalue hnext) h

/-- `bytes[start..stop]`. -/
def slice (bytes : List UInt8) (start stop : Nat) : Outcome (List UInt8) :=
  if start ≤ stop ∧ stop ≤ bytes.length then .ok ((bytes.drop start).take (stop - start))
  else .panic

variable {bytes canvas dest dest' part source : List UInt8} {height width : UInt32} {replace : Bool}

theorem slice_eq_ok {start stop : Nat} (h : slice bytes start stop = .ok part) :
    start ≤ stop ∧ stop ≤ bytes.length ∧ part = (bytes.drop start).take (stop - start) := by
  unfold slice at h
  split at h
  · rename_i hbounds
    cases h
    exact ⟨hbounds.1, hbounds.2, rfl⟩
  · cases h

/-! ## 2. Canvases -/

def filledRgbaCanvas (width height : UInt32) (color : List UInt8) : Outcome (List UInt8) := do
  allocate (usize (usize (width.toNat * height.toNat) * 4))
  Outcome.ok (List.replicate (saturatingMul width height) color).flatten

/-- `vec![0; width * height * 4]`. -/
def emptyCanvas (width height : UInt32) : Outcome (List UInt8) := do
  let size := usize (usize (width.toNat * height.toNat) * 4)
  allocate size
  Outcome.ok (List.replicate size 0)

theorem filledRgbaCanvas_shaped {color : List UInt8} (hcolor : color.length = 4)
    (hpixels : width.toNat * height.toNat ≤ u32Max)
    (h : filledRgbaCanvas width height color = .ok canvas) : Shaped width height canvas := by
  obtain ⟨⟨⟩, -, h⟩ := Outcome.bind_eq_ok h
  cases h
  have hcount : saturatingMul width height = width.toNat * height.toNat := Nat.min_eq_left hpixels
  rw [Shaped, hcount]
  simp [hcolor, Nat.mul_comm]

theorem emptyCanvas_shaped (hfits : 4 * (width.toNat * height.toNat) ≤ isizeMax)
    (h : emptyCanvas width height = .ok canvas) : Shaped width height canvas := by
  obtain ⟨⟨⟩, -, h⟩ := Outcome.bind_eq_ok h
  cases h
  have hsize : width.toNat * height.toNat * 4 < 2 ^ 64 := by
    simp only [isizeMax] at hfits
    omega
  rw [Shaped, List.length_replicate, usize_area, usize, Nat.mod_eq_of_lt hsize, Nat.mul_comm]

def copyProtocolRgbaRect (pixels : List UInt8) (sourceWidth sourceX sourceY width height : UInt32) :
    Outcome (List UInt8) := do
  let rowBytes := width.toNat * 4
  let stride := sourceWidth.toNat * 4
  allocate (usize (rowBytes * height.toNat))
  let rows := List.range' sourceY.toNat ((sourceY + height).toNat - sourceY.toNat)
  forEach (fun copied row => do
    let start := usize (row * stride + sourceX.toNat * 4)
    let line ← slice pixels start (usize (start + rowBytes))
    Outcome.ok (copied ++ line)) rows []

/-! ## 3. Blending -/

/-- `alpha_blend_protocol_rgba`, on the four bytes of a pixel. -/
def alphaBlendProtocolRgba (dest source : List UInt8) : List UInt8 :=
  let sourceAlpha := (source.getD 3 0).toNat
  if sourceAlpha = 255 then source
  else if sourceAlpha = 0 then dest
  else
    let destAlpha := (dest.getD 3 0).toNat
    let inverseSourceAlpha := 255 - sourceAlpha
    let outAlpha := sourceAlpha + destAlpha * inverseSourceAlpha / 255
    if outAlpha = 0 then [0, 0, 0, 0]
    else
      let blend (channel : Nat) : UInt8 :=
        let sourcePremultiplied := (source.getD channel 0).toNat * sourceAlpha
        let destPremultiplied :=
          (dest.getD channel 0).toNat * destAlpha * inverseSourceAlpha / 255
        UInt8.ofNat ((sourcePremultiplied + destPremultiplied) / outAlpha)
      [blend 0, blend 1, blend 2, UInt8.ofNat outAlpha]

theorem alphaBlendProtocolRgba_length (hdest : dest.length = 4) (hsource : source.length = 4) :
    (alphaBlendProtocolRgba dest source).length = 4 := by
  simp only [alphaBlendProtocolRgba]
  split_ifs
  · exact hsource
  · exact hdest
  · rfl
  · rfl

/-- One pixel of `blend_protocol_rgba_rect`. -/
def blendPixel (source : List UInt8) (replace : Bool) (dest : List UInt8)
    (sourceIndex destIndex : Nat) : Outcome (List UInt8) := do
  let below ← slice dest destIndex (usize (destIndex + 4))
  let above ← slice source sourceIndex (usize (sourceIndex + 4))
  let pixel := if replace then above else alphaBlendProtocolRgba below above
  Outcome.ok (dest.take destIndex ++ pixel ++ dest.drop (destIndex + 4))

def blendProtocolRgbaRect (dest : List UInt8) (destWidth : UInt32) (source : List UInt8)
    (sourceWidth sourceHeight destX destY : UInt32) (replace : Bool) : Outcome (List UInt8) :=
  forEach (fun dest (sourceRow : Nat) =>
    forEach (fun dest (sourceCol : Nat) =>
      blendPixel source replace dest
        (usize ((sourceRow * sourceWidth.toNat + sourceCol) * 4))
        (usize (((destY + UInt32.ofNat sourceRow).toNat * destWidth.toNat +
          (destX + UInt32.ofNat sourceCol).toNat) * 4)))
      (List.range sourceWidth.toNat) dest)
    (List.range sourceHeight.toNat) dest

/-- A pixel that is in its buffer ends there: its last index does not wrap. -/
theorem slice_four {index : Nat} (hindex : index < 2 ^ 64)
    (h : slice bytes index (usize (index + 4)) = .ok part) :
    index + 4 ≤ bytes.length ∧ part.length = 4 := by
  obtain ⟨hstart, hstop, hpart⟩ := slice_eq_ok h
  have hend : usize (index + 4) = index + 4 := by
    unfold usize at hstart ⊢
    omega
  rw [hend] at hstop hpart
  refine ⟨hstop, ?_⟩
  rw [hpart, List.length_take, List.length_drop]
  omega

theorem blendPixel_length {sourceIndex destIndex : Nat} (hsource : sourceIndex < 2 ^ 64)
    (hdest : destIndex < 2 ^ 64)
    (h : blendPixel source replace dest sourceIndex destIndex = .ok dest') :
    dest'.length = dest.length := by
  obtain ⟨below, hbelow, h⟩ := Outcome.bind_eq_ok h
  obtain ⟨above, habove, h⟩ := Outcome.bind_eq_ok h
  cases h
  obtain ⟨hroom, hbelow⟩ := slice_four hdest hbelow
  obtain ⟨-, habove⟩ := slice_four hsource habove
  have hpixel : (if replace then above else alphaBlendProtocolRgba below above).length = 4 := by
    split
    · exact habove
    · exact alphaBlendProtocolRgba_length hbelow habove
  rw [List.length_append, List.length_append, List.length_take, List.length_drop, hpixel]
  omega

theorem blendProtocolRgbaRect_length {destWidth sourceWidth sourceHeight destX destY : UInt32}
    (h : blendProtocolRgbaRect dest destWidth source sourceWidth sourceHeight destX destY replace =
      .ok dest') : dest'.length = dest.length := by
  have hindex (n : Nat) : usize n < 2 ^ 64 := Nat.mod_lt _ (Nat.two_pow_pos 64)
  refine forEach_keeps (fun canvas => canvas.length = dest.length) ?_ rfl h
  intro canvas sourceRow canvas' hcanvas hrow
  refine forEach_keeps (fun canvas => canvas.length = dest.length) ?_ hcanvas hrow
  intro before sourceCol after hbefore hpixel
  rw [blendPixel_length (hindex _) (hindex _) hpixel, hbefore]

end Hapcli.Graphics

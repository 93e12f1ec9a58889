/-
  Subject:   Decoded pictures: the raw formats of the kitty protocol, and the image formats that
             the `image` and `icy_sixel` crates decode.

  The two crates and the file system are parameters. `usize` arithmetic wraps, as in the release
  profile, and an allocation of more than `isize::MAX` bytes panics: an `Outcome` is an error that
  the code handles, a result, or a panic.

  * **`decodeImageBytes_sound`** -- what the crates decode is sound if their buffers are.
-/
import Hapcli.Graphics.Params
import Hapcli.Rust.Base64

namespace Hapcli.Graphics

open Hapcli.Rust

/-! ## 1. Errors and panics -/

inductive GraphicsError where
  | pixelLimitExceeded
  | invalidBase64
  | unsupportedImage
  | invalidPath
  | io (text : Str)
  | storageLimitExceeded
  | decode (text : Str)
  deriving DecidableEq

/-- `GraphicsError::to_string`. -/
def GraphicsError.text : GraphicsError → Str
  | pixelLimitExceeded => "image is larger than the configured pixel limit".toList
  | invalidBase64 => "invalid base64 image payload".toList
  | unsupportedImage => "unsupported image payload".toList
  | invalidPath => "invalid image path payload".toList
  | io text => text
  | storageLimitExceeded => "image payload is larger than the configured storage limit".toList
  | decode text => text

/-- A result, an error, or (`none`) a panic. -/
abbrev Outcome (α : Type) := ExceptT GraphicsError Option α

namespace Outcome

def ok {α : Type} (value : α) : Outcome α := some (.ok value)
def error {α : Type} (e : GraphicsError) : Outcome α := some (.error e)
def panic {α : Type} : Outcome α := none

/-- A computation that cannot panic. -/
def ofExcept {α : Type} (result : Except GraphicsError α) : Outcome α := some result

/-- `result.ok_or(error)`. -/
def okOr {α : Type} (result : Option α) (e : GraphicsError) : Outcome α :=
  match result with
  | some value => ok value
  | none => error e

theorem bind_eq_ok {α β : Type} {x : Outcome α} {f : α → Outcome β} {b : β}
    (h : x >>= f = ok b) : ∃ a, x = ok a ∧ f a = ok b := by
  match x, h with
  | none, h => cases h
  | some (.error e), h => cases h
  | some (.ok a), h => exact ⟨a, rfl, h⟩

theorem okOr_eq_ok {α : Type} {result : Option α} {e : GraphicsError} {value : α}
    (h : okOr result e = ok value) : result = some value := by
  cases result with
  | none => cases h
  | some other =>
    cases h
    rfl

theorem ofExcept_eq_ok {α : Type} {result : Except GraphicsError α} {value : α}
    (h : ofExcept result = ok value) : result = .ok value := Option.some.inj h

end Outcome

/-- `isize::MAX`. -/
def isizeMax : Nat := 2 ^ 63 - 1

/-- A `usize` product or sum. -/
def usize (n : Nat) : Nat := n % 2 ^ 64

/-- `Vec::with_capacity`, `vec![0; n]`: the allocation. -/
def allocate (capacity : Nat) : Outcome Unit :=
  if capacity ≤ isizeMax then .ok () else .panic

theorem allocate_eq_ok {capacity : Nat} (h : allocate capacity = .ok ()) : capacity ≤ isizeMax := by
  unfold allocate at h
  split at h
  · assumption
  · cases h

/-! ## 2. Options and limits -/

structure GraphicsOptions where
  enabled : Bool := true
  sixel : Bool := true
  iterm2Inline : Bool := true
  kitty : Bool := true
  pixelLimit : UInt32 := 16777216
  storageLimitMb : UInt32 := 16
  showPlaceholder : Bool := true
  deriving DecidableEq

/-- `u32::saturating_mul`. -/
def saturatingMul (a b : UInt32) : Nat := min (a.toNat * b.toNat) u32Max

/-- `u32::saturating_add`. -/
def saturatingAdd (a b : UInt32) : Nat := min (a.toNat + b.toNat) u32Max

def enforcePixelLimit (width height pixelLimit : UInt32) : Except GraphicsError Unit :=
  if saturatingMul width height ≤ pixelLimit.toNat then .ok () else .error .pixelLimitExceeded

/-- The bytes of `storage_limit_mb`. -/
def storageLimit (storageLimitMb : UInt32) : Nat := max storageLimitMb.toNat 1 * 1024 * 1024

def enforceStorageLimit (bytes : Nat) (storageLimitMb : UInt32) : Except GraphicsError Unit :=
  if bytes ≤ storageLimit storageLimitMb then .ok () else .error .storageLimitExceeded

def encodedStorageLimit (storageLimitMb : UInt32) : Nat := storageLimit storageLimitMb * 2

/-! ## 3. The crates and the file system -/

/-- A `Vec<u8>` of the outside: it fits in memory. -/
structure Buffer where
  bytes : List UInt8
  fits : bytes.length ≤ isizeMax

/-- `image::RgbaImage`: its dimensions and `into_raw`. -/
structure RgbaImage where
  width : UInt32
  height : UInt32
  raw : Buffer

/-- A frame of `GifDecoder::into_frames`, its delay as `numer_denom_ms` gives it. -/
structure GifFrame where
  image : RgbaImage
  delayMsNumerator : UInt32
  delayMsDenominator : UInt32

/-- `icy_sixel::SixelImage`. -/
structure SixelImage where
  width : Nat
  height : Nat
  pixels : Buffer

inductive ImageFormat where
  | gif
  | other
  deriving DecidableEq

/-- The functions of `image` and `icy_sixel` that are called. -/
structure Decoders where
  /-- `image::guess_format`. -/
  guessFormat : List UInt8 → Option ImageFormat
  /-- `GifDecoder::new` and its frames, each decoded or not. -/
  gifFrames : List UInt8 → Except Str (List (Except Str GifFrame))
  /-- `ImageReader`: guess the format, decode, convert to RGBA. -/
  readImage : List UInt8 → Except Str RgbaImage
  /-- `SixelImage::decode`. -/
  sixel : List UInt8 → Except Str SixelImage

/-- Four bytes for each pixel. -/
def Shaped (width height : UInt32) (rgba : List UInt8) : Prop :=
  rgba.length = 4 * (width.toNat * height.toNat)

/-- **The decoders return buffers of their reported dimensions.** -/
structure Decoders.Faithful (D : Decoders) : Prop where
  gif : ∀ bytes frames frame, D.gifFrames bytes = .ok frames → .ok frame ∈ frames →
    Shaped frame.image.width frame.image.height frame.image.raw.bytes
  image : ∀ bytes image, D.readImage bytes = .ok image →
    Shaped image.width image.height image.raw.bytes
  sixel : ∀ bytes image, D.sixel bytes = .ok image →
    image.pixels.bytes.length = 4 * (image.width * image.height)

/-- What `fs::metadata(path).len()` and `fs::read(path)` give at one moment. -/
structure Files where
  size : Str → Except Str Nat
  read : Str → Except Str Buffer

/-! ## 4. Decoding -/

structure DecodedImageFrame where
  rgba : List UInt8
  delayMsNumerator : UInt32
  delayMsDenominator : UInt32
  deriving DecidableEq

structure DecodedPixels where
  width : UInt32
  height : UInt32
  rgba : List UInt8
  frames : List DecodedImageFrame
  deriving DecidableEq

def looksLikeSixel (data : List UInt8) : Bool :=
  match data.idxOf? 0x71 with
  | none => false
  | some finalByte =>
    (data.take finalByte).all fun byte => (0x30 ≤ byte && byte ≤ 0x39) || byte == 0x3b

def normalizeGifFrameDelayMs (delayMs : UInt32) : UInt32 := if delayMs = 0 then 100 else delayMs

/-- One frame of the GIF branch of `decode_image_bytes`. -/
def decodedFrame (frame : GifFrame) : DecodedImageFrame :=
  { rgba := frame.image.raw.bytes
    delayMsNumerator := normalizeGifFrameDelayMs frame.delayMsNumerator
    delayMsDenominator := frame.delayMsDenominator }

/-- The loop over the frames behind the first: they have its dimensions. -/
def decodeGifFrames (width height : UInt32) :
    List (Except Str GifFrame) → Except GraphicsError (List DecodedImageFrame)
  | [] => .ok []
  | .error text :: _ => .error (.decode text)
  | .ok frame :: frames =>
    if frame.image.width = width ∧ frame.image.height = height then do
      let rest ← decodeGifFrames width height frames
      return decodedFrame frame :: rest
    else .error .unsupportedImage

/-- The GIF branch of `decode_image_bytes`. A single frame is a still picture. -/
def decodeGif (pixelLimit : UInt32) :
    List (Except Str GifFrame) → Except GraphicsError DecodedPixels
  | [] => .error .unsupportedImage
  | .error text :: _ => .error (.decode text)
  | .ok first :: frames => do
      enforcePixelLimit first.image.width first.image.height pixelLimit
      let rest ← decodeGifFrames first.image.width first.image.height frames
      return { width := first.image.width
               height := first.image.height
               rgba := first.image.raw.bytes
               frames := if rest = [] then [] else decodedFrame first :: rest }

def decodeImageBytes (D : Decoders) (bytes : List UInt8) (pixelLimit : UInt32) :
    Except GraphicsError DecodedPixels :=
  match D.guessFormat bytes with
  | none => .error .unsupportedImage
  | some .gif =>
    match D.gifFrames bytes with
    | .error text => .error (.decode text)
    | .ok frames => decodeGif pixelLimit frames
  | some .other =>
    match D.readImage bytes with
    | .error text => .error (.decode text)
    | .ok image => do
        enforcePixelLimit image.width image.height pixelLimit
        return { width := image.width, height := image.height, rgba := image.raw.bytes
                 frames := [] }

/-- `BASE64.decode` of bytes. -/
def base64DecodeBytes (encoded : List UInt8) : Option (List UInt8) :=
  base64Decode (encoded.map fun byte => Char.ofNat byte.toNat)

/-- `decode_kitty_payload`: the payload itself, or the file that it names. Removing the file after
    `t=t` has no effect here. -/
def decodeKittyPayload (files : Files) (params : Params) (encoded : List UInt8)
    (storageLimitMb : UInt32) : Except GraphicsError (List UInt8) :=
  match base64DecodeBytes encoded with
  | none => .error .invalidBase64
  | some payload => do
      enforceStorageLimit payload.length storageLimitMb
      let transmission := (params.get 't').getD ['d']
      if transmission = ['d'] then return payload
      else if transmission = ['f'] ∨ transmission = ['t'] then
        match fromUtf8 payload with
        | .error _ => throw .invalidPath
        | .ok path =>
          let path := path.rdropWhile (· == '\x00')
          match files.size path with
          | .error text => throw (.io text)
          | .ok size => do
              enforceStorageLimit (usize size) storageLimitMb
              match files.read path with
              | .error text => throw (.io text)
              | .ok buffer => return buffer.bytes
      else throw .unsupportedImage

def rawDimensions (params : Params) : Option (UInt32 × UInt32) := do
  let width ← parseU32 (params.get 's')
  let height ← parseU32 (params.get 'v')
  return (width, height)

def enforceRawLen (bytes : List UInt8) (width height : UInt32) (channels : Nat) :
    Except GraphicsError Unit :=
  if bytes.length = usize (usize (width.toNat * height.toNat) * channels) then .ok ()
  else .error .unsupportedImage

/-- The loop of `decode_raw_rgb` over `chunks_exact(3)`. -/
def addAlpha : List UInt8 → List UInt8
  | red :: green :: blue :: bytes => red :: green :: blue :: 0xff :: addAlpha bytes
  | _ => []

def decodeRawRgb (bytes : List UInt8) (params : Params) : Outcome DecodedPixels := do
  let (width, height) ← Outcome.okOr (rawDimensions params) .unsupportedImage
  Outcome.ofExcept (enforceRawLen bytes width height 3)
  allocate (usize (usize (width.toNat * height.toNat) * 4))
  Outcome.ok { width := width, height := height, rgba := addAlpha bytes, frames := [] }

def decodeRawRgba (bytes : List UInt8) (params : Params) : Outcome DecodedPixels := do
  let (width, height) ← Outcome.okOr (rawDimensions params) .unsupportedImage
  Outcome.ofExcept (enforceRawLen bytes width height 4)
  Outcome.ok { width := width, height := height, rgba := bytes, frames := [] }

/-! ## 5. Shapes -/

namespace DecodedPixels

/-- **Four bytes for each pixel, in the picture and in every frame**; and they fit in memory. -/
structure Sound (p : DecodedPixels) : Prop where
  shaped : Shaped p.width p.height p.rgba
  fits : p.rgba.length ≤ isizeMax
  frames : ∀ frame ∈ p.frames, Shaped p.width p.height frame.rgba

end DecodedPixels

theorem except_bind_eq_ok {ε α β : Type} {x : Except ε α} {f : α → Except ε β} {b : β}
    (h : x >>= f = .ok b) : ∃ a, x = .ok a ∧ f a = .ok b := by
  cases x with
  | error e => cases h
  | ok a => exact ⟨a, rfl, h⟩

theorem decodeGifFrames_shaped {width height : UInt32} {frames : List (Except Str GifFrame)}
    {decoded : List DecodedImageFrame} (hframes : ∀ frame, .ok frame ∈ frames →
      Shaped frame.image.width frame.image.height frame.image.raw.bytes)
    (h : decodeGifFrames width height frames = .ok decoded) :
    ∀ frame ∈ decoded, Shaped width height frame.rgba := by
  induction frames generalizing decoded with
  | nil =>
    cases h
    simp
  | cons head frames ih =>
    cases head with
    | error text => cases h
    | ok first =>
      unfold decodeGifFrames at h
      split at h
      · rename_i hsize
        obtain ⟨rest, hrest, h⟩ := except_bind_eq_ok h
        cases h
        have hfirst := hframes first List.mem_cons_self
        rw [hsize.1, hsize.2] at hfirst
        have hbehind := ih (fun frame hmem => hframes frame (List.mem_cons_of_mem _ hmem)) hrest
        intro frame hmem
        rcases List.mem_cons.mp hmem with rfl | hmem
        · exact hfirst
        · exact hbehind frame hmem
      · cases h

theorem decodeGif_ok {pixelLimit : UInt32} {frames : List (Except Str GifFrame)}
    {p : DecodedPixels} (h : decodeGif pixelLimit frames = .ok p) :
    ∃ first behind rest, frames = .ok first :: behind ∧
      decodeGifFrames first.image.width first.image.height behind = .ok rest ∧
      p = { width := first.image.width, height := first.image.height
            rgba := first.image.raw.bytes
            frames := if rest = [] then [] else decodedFrame first :: rest } := by
  match frames, h with
  | [], h => cases h
  | .error text :: _, h => cases h
  | .ok first :: behind, h =>
    obtain ⟨⟨⟩, -, h⟩ := except_bind_eq_ok h
    obtain ⟨rest, hrest, h⟩ := except_bind_eq_ok h
    cases h
    exact ⟨first, behind, rest, rfl, hrest, rfl⟩

variable {D : Decoders} {bytes : List UInt8} {p : DecodedPixels} {pixelLimit : UInt32}

theorem decodeImageBytes_ok (h : decodeImageBytes D bytes pixelLimit = .ok p) :
    (∃ frames, D.guessFormat bytes = some .gif ∧ D.gifFrames bytes = .ok frames ∧
      decodeGif pixelLimit frames = .ok p) ∨
    (∃ image, D.guessFormat bytes = some .other ∧ D.readImage bytes = .ok image ∧
      p = { width := image.width, height := image.height, rgba := image.raw.bytes
            frames := [] }) := by
  unfold decodeImageBytes at h
  split at h
  · cases h
  · rename_i hformat
    split at h
    · cases h
    · rename_i frames hgif
      exact .inl ⟨frames, hformat, hgif, h⟩
  · rename_i hformat
    split at h
    · cases h
    · rename_i image himage
      obtain ⟨⟨⟩, -, h⟩ := except_bind_eq_ok h
      cases h
      exact .inr ⟨image, hformat, himage, rfl⟩

theorem decodeImageBytes_sound (hD : D.Faithful) (h : decodeImageBytes D bytes pixelLimit = .ok p) :
    p.Sound := by
  rcases decodeImageBytes_ok h with ⟨frames, -, hgif, h⟩ | ⟨image, -, himage, rfl⟩
  · obtain ⟨first, behind, rest, rfl, hrest, rfl⟩ := decodeGif_ok h
    have hframes := fun frame hmem => hD.gif bytes _ frame hgif hmem
    have hfirst := hframes first List.mem_cons_self
    have hbehind := decodeGifFrames_shaped
      (fun frame hmem => hframes frame (List.mem_cons_of_mem _ hmem)) hrest
    refine ⟨hfirst, first.image.raw.fits, fun frame hmem => ?_⟩
    split at hmem
    · cases hmem
    · rcases List.mem_cons.mp hmem with rfl | hmem
      · exact hfirst
      · exact hbehind frame hmem
  · exact ⟨hD.image bytes image himage, image.raw.fits, by simp⟩

/-- The dimensions that the crates report for a picture. -/
def Decoders.dimensions (D : Decoders) (bytes : List UInt8) : Option (UInt32 × UInt32) :=
  match D.guessFormat bytes with
  | none => none
  | some .gif =>
    match D.gifFrames bytes with
    | .ok (.ok first :: _) => some (first.image.width, first.image.height)
    | _ => none
  | some .other =>
    match D.readImage bytes with
    | .ok image => some (image.width, image.height)
    | .error _ => none

theorem decodeImageBytes_dimensions (h : decodeImageBytes D bytes pixelLimit = .ok p) :
    D.dimensions bytes = some (p.width, p.height) := by
  rcases decodeImageBytes_ok h with ⟨frames, hformat, hgif, h⟩ | ⟨image, hformat, himage, rfl⟩
  · obtain ⟨first, behind, rest, rfl, -, rfl⟩ := decodeGif_ok h
    simp [Decoders.dimensions, hformat, hgif]
  · simp [Decoders.dimensions, hformat, himage]

theorem addAlpha_length (bytes : List UInt8) :
    (addAlpha bytes).length = 4 * (bytes.length / 3) := by
  fun_induction addAlpha bytes with
  | case1 red green blue bytes ih =>
    simp only [List.length_cons, ih]
    omega
  | case2 bytes hshort =>
    have : bytes.length < 3 := by
      match bytes, hshort with
      | [], _ => simp
      | [_], _ => simp
      | [_, _], _ => simp
      | red :: green :: blue :: rest, hshort => exact absurd rfl (hshort red green blue rest)
    simp [Nat.div_eq_of_lt this]

theorem usize_area (width height : UInt32) :
    usize (width.toNat * height.toNat) = width.toNat * height.toNat := by
  have hwidth := width.toNat_lt
  have hheight := height.toNat_lt
  refine Nat.mod_eq_of_lt ?_
  calc width.toNat * height.toNat < 2 ^ 32 * 2 ^ 32 := Nat.mul_lt_mul'' hwidth hheight
    _ = 2 ^ 64 := (Nat.pow_add 2 32 32).symm

/-- A buffer that has the size of its dimensions in 64 bits has that size. -/
def RawFits (bytes : List UInt8) (params : Params) (channels : Nat) : Prop :=
  ∀ width height, rawDimensions params = some (width, height) →
    bytes.length = usize (width.toNat * height.toNat * channels) →
      bytes.length = width.toNat * height.toNat * channels

theorem enforceRawLen_ok {params : Params} {width height : UInt32}
    {channels : Nat} (hsize : rawDimensions params = some (width, height))
    (h : enforceRawLen bytes width height channels = .ok ())
    (hfits : RawFits bytes params channels) :
    bytes.length = width.toNat * height.toNat * channels := by
  unfold enforceRawLen at h
  split at h
  · rename_i hlen
    rw [usize_area] at hlen
    exact hfits width height hsize hlen
  · cases h

theorem storageLimit_le (storageLimitMb : UInt32) : storageLimit storageLimitMb ≤ isizeMax := by
  have := storageLimitMb.toNat_lt
  simp only [storageLimit, isizeMax]
  omega

theorem enforceStorageLimit_ok {bytes : Nat} {storageLimitMb : UInt32}
    (h : enforceStorageLimit bytes storageLimitMb = .ok ()) : bytes ≤ isizeMax := by
  unfold enforceStorageLimit at h
  split at h
  · rename_i hle
    exact hle.trans (storageLimit_le storageLimitMb)
  · cases h

variable {params : Params}

theorem decodeKittyPayload_fits {files : Files} {encoded : List UInt8} {storageLimitMb : UInt32}
    (h : decodeKittyPayload files params encoded storageLimitMb = .ok bytes) :
    bytes.length ≤ isizeMax := by
  unfold decodeKittyPayload at h
  split at h
  · cases h
  · obtain ⟨⟨⟩, hlimit, h⟩ := except_bind_eq_ok h
    simp only at h
    split at h
    · cases h
      exact enforceStorageLimit_ok hlimit
    · split at h
      · split at h
        · cases h
        · split at h
          · cases h
          · obtain ⟨⟨⟩, -, h⟩ := except_bind_eq_ok h
            split at h
            · cases h
            · rename_i buffer _
              cases h
              exact buffer.fits
      · cases h

theorem decodeRawRgb_ok_iff {decoded : DecodedPixels} :
    decodeRawRgb bytes params = .ok decoded ↔
      ∃ width height, rawDimensions params = some (width, height) ∧
        enforceRawLen bytes width height 3 = .ok () ∧
        usize (usize (width.toNat * height.toNat) * 4) ≤ isizeMax ∧
        decoded = { width, height, rgba := addAlpha bytes, frames := [] } := by
  constructor
  · intro h
    obtain ⟨⟨width, height⟩, hsize, h⟩ := Outcome.bind_eq_ok h
    obtain ⟨⟨⟩, hlen, h⟩ := Outcome.bind_eq_ok h
    obtain ⟨⟨⟩, hcapacity, h⟩ := Outcome.bind_eq_ok h
    cases h
    exact ⟨width, height, Outcome.okOr_eq_ok hsize, Outcome.ofExcept_eq_ok hlen,
      allocate_eq_ok hcapacity, rfl⟩
  · rintro ⟨width, height, hsize, hlen, hcapacity, rfl⟩
    have hallocate : allocate (usize (usize (width.toNat * height.toNat) * 4)) = .ok () :=
      if_pos hcapacity
    unfold decodeRawRgb
    rw [hsize]
    show (Outcome.ofExcept (enforceRawLen bytes width height 3) >>= fun _ =>
      allocate (usize (usize (width.toNat * height.toNat) * 4)) >>= fun _ => _) = _
    rw [hlen, hallocate]
    rfl

theorem decodeRawRgba_ok_iff {decoded : DecodedPixels} :
    decodeRawRgba bytes params = .ok decoded ↔
      ∃ width height, rawDimensions params = some (width, height) ∧
        enforceRawLen bytes width height 4 = .ok () ∧
        decoded = { width, height, rgba := bytes, frames := [] } := by
  constructor
  · intro h
    obtain ⟨⟨width, height⟩, hsize, h⟩ := Outcome.bind_eq_ok h
    obtain ⟨⟨⟩, hlen, h⟩ := Outcome.bind_eq_ok h
    cases h
    exact ⟨width, height, Outcome.okOr_eq_ok hsize, Outcome.ofExcept_eq_ok hlen, rfl⟩
  · rintro ⟨width, height, hsize, hlen, rfl⟩
    unfold decodeRawRgba
    rw [hsize]
    show (Outcome.ofExcept (enforceRawLen bytes width height 4) >>= fun _ => _) = _
    rw [hlen]
    rfl

theorem decodeRawRgba_sound (hfits : bytes.length ≤ isizeMax) (hraw : RawFits bytes params 4)
    (h : decodeRawRgba bytes params = .ok p) : p.Sound := by
  obtain ⟨width, height, hsize, hlen, rfl⟩ := (decodeRawRgba_ok_iff).mp h
  have hlen := enforceRawLen_ok hsize hlen hraw
  exact ⟨by rw [Shaped, hlen, Nat.mul_comm], hfits, by simp⟩

theorem decodeRawRgb_sound (hfits : bytes.length ≤ isizeMax) (hraw : RawFits bytes params 3)
    (h : decodeRawRgb bytes params = .ok p) : p.Sound := by
  obtain ⟨width, height, hsize, hlen, hcapacity, rfl⟩ := (decodeRawRgb_ok_iff).mp h
  have hlen := enforceRawLen_ok hsize hlen hraw
  have harea : bytes.length / 3 = width.toNat * height.toNat := by omega
  have hshape : Shaped width height (addAlpha bytes) := by rw [Shaped, addAlpha_length, harea]
  refine ⟨hshape, ?_, by simp⟩
  -- the buffer that was allocated is that long: its size did not wrap
  rw [usize_area, usize, Nat.mod_eq_of_lt (by simp only [isizeMax] at hfits; omega)] at hcapacity
  show (addAlpha bytes).length ≤ isizeMax
  rw [hshape]
  omega

end Hapcli.Graphics

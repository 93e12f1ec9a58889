/-
  Subject:   Image buffers: `rgba` and every frame hold four bytes for each pixel of the image.

  The four protocols are followed from the decoders to the events and to the stored kitty images.
  Three commands can break the shape, and a run in which none of them occurs keeps it:

  * **`images_shaped`** -- every image that is shown or stored, in every run.
-/
import Hapcli.Graphics.Images

namespace Hapcli.Graphics

open Hapcli.Rust
open Hapcli.Terminal (bel esc backslash bracket)

/-! ## 1. Images -/

instance (width height : UInt32) (rgba : List UInt8) : Decidable (Shaped width height rgba) :=
  inferInstanceAs (Decidable (_ = _))

namespace TerminalImageData

/-- **The shape of an image**: the buffer and every frame have four bytes for each pixel. -/
def Shaped (image : TerminalImageData) : Prop :=
  Graphics.Shaped image.width image.height image.rgba ∧
    ∀ frame ∈ image.frames, Graphics.Shaped image.width image.height frame.rgba

instance (image : TerminalImageData) : Decidable image.Shaped :=
  inferInstanceAs (Decidable (_ ∧ _))

/-- The image is shaped and fits in memory. -/
structure Sound (image : TerminalImageData) : Prop where
  shaped : image.Shaped
  fits : image.rgba.length ≤ isizeMax

end TerminalImageData

variable {decoded : DecodedPixels}

theorem terminalImageDataFromDecoded_sound (h : decoded.Sound) (id : UInt64)
    (protocol : TerminalImageProtocol) (name : Option Str) :
    (terminalImageDataFromDecoded id protocol decoded name).Sound := by
  refine ⟨⟨h.shaped, fun frame hframe => ?_⟩, h.fits⟩
  obtain ⟨source, hsource, rfl⟩ := List.mem_map.mp hframe
  exact h.frames source hsource

variable {canvas : List UInt8} {changed image : TerminalImageData} {params : Params}

theorem ensureKittyAnimationRoot_sound (h : image.Sound) :
    (ensureKittyAnimationRoot image).Sound := by
  unfold ensureKittyAnimationRoot
  split
  · refine ⟨⟨h.shaped.1, fun frame hframe => ?_⟩, h.fits⟩
    rw [List.mem_singleton.mp hframe]
    exact h.shaped.1
  · exact h

theorem TerminalImageData.Sound.update (h : image.Sound) (hwidth : changed.width = image.width)
    (hheight : changed.height = image.height) (hshaped : changed.Shaped) : changed.Sound := by
  have hlength : changed.rgba.length = image.rgba.length := by
    rw [hshaped.1, h.shaped.1, hwidth, hheight]
  exact ⟨hshaped, hlength ▸ h.fits⟩

theorem forall_mem_modify {α : Type} {P : α → Prop} {f : α → α} {l : List α}
    (h : ∀ x ∈ l, P x) (hf : ∀ x ∈ l, P (f x)) (index : Nat) : ∀ x ∈ l.modify index f, P x := by
  induction l generalizing index with
  | nil => simp
  | cons head tail ih =>
    rw [List.forall_mem_cons] at h hf
    cases index with
    | zero =>
      rw [List.modify_zero_cons, List.forall_mem_cons]
      exact ⟨hf.1, h.2⟩
    | succ index =>
      rw [List.modify_succ_cons, List.forall_mem_cons]
      exact ⟨h.1, ih h.2 hf.2 index⟩

/-! ## 2. Animation commands -/

/-- The frame is drawn on a canvas of one color. -/
def FillsCanvas (params : Params) : Prop :=
  parseKittyFrameIndex (params.get 'r') = none ∧ parseKittyFrameIndex (params.get 'c') = none ∧
    (parseKittyRgbaColor (params.get 'Y')).isSome

theorem frameCanvas_shaped (h : image.Sound)
    (hfill : FillsCanvas params → image.width.toNat * image.height.toNat ≤ u32Max)
    (hcanvas : frameCanvas params image (parseKittyFrameIndex (params.get 'r')) = .ok canvas) :
    Shaped image.width image.height canvas := by
  have hframe (index : Nat)
      (hok : Outcome.okOr (image.frames[index]?.map (·.rgba)) .unsupportedImage = .ok canvas) :
      Shaped image.width image.height canvas := by
    obtain ⟨frame, hget, rfl⟩ := Option.map_eq_some_iff.mp (Outcome.okOr_eq_ok hok)
    exact h.shaped.2 frame (List.mem_of_getElem? hget)
  unfold frameCanvas at hcanvas
  split at hcanvas
  · exact hframe _ hcanvas
  · exact hframe _ hcanvas
  · rename_i color htarget hbase hcolor
    have hpixels := hfill ⟨htarget, hbase, by rw [hcolor]; rfl⟩
    exact filledRgbaCanvas_shaped (parseKittyRgbaColor_length hcolor) hpixels hcanvas
  · refine emptyCanvas_shaped ?_ hcanvas
    have hlength : image.rgba.length = 4 * (image.width.toNat * image.height.toNat) := h.shaped.1
    exact hlength ▸ h.fits

theorem paced_rgba (frame : TerminalImageFrame) (gap : Option (UInt32 × Bool)) :
    (frame.paced gap).rgba = frame.rgba := by
  cases gap <;> rfl

theorem storedFrames_shaped (params : Params) {frames : List TerminalImageFrame}
    {width height : UInt32} (hframes : ∀ frame ∈ frames, Shaped width height frame.rgba)
    (hcanvas : Shaped width height canvas) (targetFrame : Option Nat) :
    ∀ frame ∈ (storedFrames params frames targetFrame canvas).2,
      Shaped width height frame.rgba := by
  cases targetFrame with
  | some index =>
    refine forall_mem_modify hframes (fun frame _ => ?_) index
    rw [paced_rgba]
    exact hcanvas
  | none =>
    intro frame hframe
    rcases List.mem_append.mp hframe with hframe | hframe
    · exact hframes frame hframe
    · rw [List.mem_singleton.mp hframe]
      exact hcanvas

theorem storeFrame_sound (h : image.Sound) (hcanvas : Shaped image.width image.height canvas)
    (targetFrame : Option Nat) : (storeFrame params image targetFrame canvas).Sound := by
  have hframes := storedFrames_shaped params h.shaped.2 hcanvas targetFrame
  refine h.update rfl rfl ⟨?_, hframes⟩
  simp only [storeFrame]
  generalize storedFrames params image.frames targetFrame canvas = stored at hframes ⊢
  split
  · -- the picture is the first frame
    cases hhead : stored.2.head? with
    | none => exact h.shaped.1
    | some first => exact hframes first (List.mem_of_head? hhead)
  · exact h.shaped.1

theorem addKittyAnimationFrame_sound (h : image.Sound)
    (hfill : FillsCanvas params → image.width.toNat * image.height.toNat ≤ u32Max)
    (hadd : addKittyAnimationFrame params decoded image = .ok changed) : changed.Sound := by
  obtain ⟨canvas, hcanvas, hadd⟩ := Outcome.bind_eq_ok hadd
  have hshaped := frameCanvas_shaped h hfill hcanvas
  simp only at hadd
  split at hadd
  · cases hadd
  · obtain ⟨blended, hblend, hadd⟩ := Outcome.bind_eq_ok hadd
    cases hadd
    refine storeFrame_sound h ?_ _
    rw [Shaped, blendProtocolRgbaRect_length hblend]
    exact hshaped

theorem controlKittyAnimation_sound (h : image.Sound) :
    (controlKittyAnimation params image).1.Sound := by
  have hplay (image : TerminalImageData) (h : image.Sound) :
      (controlKittyAnimation.play params image).1.Sound := by
    have hframes (gap : Option (UInt32 × Bool)) (index : Nat) :
        ∀ frame ∈ image.frames.modify index (·.paced gap),
          Shaped image.width image.height frame.rgba :=
      forall_mem_modify h.shaped.2
        (fun frame hframe => (paced_rgba frame gap).symm ▸ h.shaped.2 frame hframe) index
    unfold controlKittyAnimation.play
    dsimp only
    split <;> exact h.update rfl rfl ⟨h.shaped.1, hframes _ _⟩
  unfold controlKittyAnimation
  split
  · split
    · exact h
    · exact hplay _ (h.update rfl rfl h.shaped)
  · exact hplay image h

theorem composeKittyAnimationFrame_sound (h : image.Sound)
    (hcompose : composeKittyAnimationFrame params image = .ok changed) : changed.Sound := by
  obtain ⟨sourceFrame, -, hcompose⟩ := Outcome.bind_eq_ok hcompose
  obtain ⟨destFrame, -, hcompose⟩ := Outcome.bind_eq_ok hcompose
  obtain ⟨source, -, hcompose⟩ := Outcome.bind_eq_ok hcompose
  obtain ⟨dest, hdest, hcompose⟩ := Outcome.bind_eq_ok hcompose
  simp only at hcompose
  split at hcompose
  · cases hcompose
  · obtain ⟨sourceRect, -, hcompose⟩ := Outcome.bind_eq_ok hcompose
    obtain ⟨destRgba, hblend, hcompose⟩ := Outcome.bind_eq_ok hcompose
    cases hcompose
    have hdest := h.shaped.2 dest (List.mem_of_getElem? (Outcome.okOr_eq_ok hdest))
    have hrgba : Shaped image.width image.height destRgba := by
      rw [Shaped, blendProtocolRgbaRect_length hblend]
      exact hdest
    refine h.update rfl rfl ⟨?_, forall_mem_modify h.shaped.2 (fun _ _ => hrgba) destFrame⟩
    show Shaped image.width image.height (if destFrame = 0 then destRgba else image.rgba)
    split
    · exact hrgba
    · exact h.shaped.1

/-! ## 3. Images that are stored and shown -/

/-- Every stored image is sound. -/
def GraphicsIngress.Sound (g : GraphicsIngress) : Prop :=
  ∀ id image, g.kittyImages.lookup id = some image → image.Sound

/-- An image that is shown is shaped. -/
def TerminalGraphicsEvent.Shaped : TerminalGraphicsEvent → Prop
  | imageReady image => image.Shaped
  | imageUpdated image => image.Shaped
  | _ => True

instance (e : TerminalGraphicsEvent) : Decidable e.Shaped :=
  match e with
  | .imageReady image => inferInstanceAs (Decidable image.Shaped)
  | .imageUpdated image => inferInstanceAs (Decidable image.Shaped)
  | .place _ | .delete _ | .respond _ | .error _ => isTrue trivial

/-- What a step keeps: the options, and the shape of what it stores and of what it shows. -/
structure Keeps (g g' : GraphicsIngress) (out : GraphicsAdvance) : Prop where
  options : g'.options = g.options
  sound : g'.Sound
  events : ∀ e ∈ out.events, e.Shaped

theorem forall_shaped_iff {events : List TerminalGraphicsEvent} :
    (∀ e ∈ events, e.Shaped) ↔ ∀ image ∈ imagesOf events, image.Shaped := by
  constructor
  · intro h image himage
    obtain ⟨e, he, heq⟩ := List.mem_filterMap.mp himage
    have hshaped := h e he
    cases e <;> cases heq <;> exact hshaped
  · intro h e he
    have hmem (image : TerminalImageData) (heq : e = .imageReady image ∨ e = .imageUpdated image) :
        image.Shaped :=
      h image (List.mem_filterMap.mpr ⟨e, he, by rcases heq with rfl | rfl <;> rfl⟩)
    cases e with
    | imageReady image => exact hmem image (.inl rfl)
    | imageUpdated image => exact hmem image (.inr rfl)
    | _ => trivial

namespace GraphicsIngress

variable {D : Decoders} {files : Files} {cursor : GraphicsCursor} {g g' : GraphicsIngress}
  {input : Input}

variable {advance : List UInt8} {assembly : KittyChunkAssembly} {id : UInt64}
  {placement : TerminalImagePlacement}

theorem sound_of_insert (h : g.Sound) (himage : image.Sound)
    (himages : g'.kittyImages = g.kittyImages.insert id image) : g'.Sound := by
  intro other stored hlookup
  rw [himages, Map.lookup_insert_eq] at hlookup
  split at hlookup
  · cases hlookup
    exact himage
  · exact h other stored hlookup

/-! ## 4. The three conditions -/

/-- The size that the command gives its picture has as many pixels as the picture. -/
def Iterm2KeepsArea (D : Decoders) (data : List UInt8) : Prop :=
  ∀ separator payload width height, data.idxOf? 0x3a = some separator →
    base64DecodeBytes (data.drop (separator + 1)) = some payload →
    D.dimensions payload = some (width, height) →
      let size := iterm2Size (parseSemicolonParams (data.take separator)) width height
      size.1.toNat * size.2.toNat = width.toNat * height.toNat

/-- The size of the picture is that of its dimensions as `u32`. -/
def SixelFits (D : Decoders) (sequence : List UInt8) : Prop :=
  ∀ image, D.sixel sequence = .ok image →
    (UInt32.ofNat image.width).toNat * (UInt32.ofNat image.height).toNat =
      image.width * image.height

/-- A raw upload has the size of its dimensions, not only in 64 bits. -/
def RawUploadFits (files : Files) (o : GraphicsOptions) (assembly : KittyChunkAssembly) : Prop :=
  ∀ complete, decodeKittyPayload files assembly.params assembly.encoded o.storageLimitMb =
      .ok complete →
    (assembly.params.get 'f' = some ['2', '4'] → RawFits complete assembly.params 3) ∧
      (assembly.params.get 'f' = some ['3', '2'] → RawFits complete assembly.params 4)

/-- A canvas of one color is that of an image with a `u32` of pixels. -/
def FillFits (g : GraphicsIngress) (params : Params) : Prop :=
  ∀ id image, kittyImageId params = some id → g.kittyImages.lookup id = some image →
    FillsCanvas params → image.width.toNat * image.height.toNat ≤ u32Max

/-- **The byte completes no command that breaks the shape of an image.** -/
structure KeepsShape (D : Decoders) (g : GraphicsIngress) (input : Input) : Prop where
  osc : ∀ data, g.state = .osc data ∧ input.byte = bel ∨
      g.state = .oscEsc data ∧ input.byte = backslash →
    g.options.iterm2Inline = true → iterm2Front.isPrefixOf data = true →
      Iterm2KeepsArea D (data.drop iterm2Front.length)
  dcs : ∀ data, g.state = .dcsEsc data → input.byte = backslash → g.options.sixel = true →
    looksLikeSixel data = true → SixelFits D ([esc, 0x50] ++ data ++ [esc, backslash])
  apc : ∀ data assembly, g.state = .apcEsc data → input.byte = backslash →
    g.options.kitty = true → ([0x47] : List UInt8).isPrefixOf data = true →
    g.completedUpload (data.drop 1) = some assembly →
      RawUploadFits input.files g.options assembly ∧
        ((assembly.params.get 'a').getD ['t'] = ['f'] → FillFits g assembly.params)

/-! ## 5. Commands -/

section

variable (hD : D.Faithful)

include hD

theorem decodeIterm2_shaped {data : List UInt8} (harea : Iterm2KeepsArea D data)
    (h : g.decodeIterm2 D cursor data = .ok (g', image, placement, advance)) : image.Shaped := by
  unfold decodeIterm2 at h
  split at h
  · cases h
  · rename_i separator hseparator
    dsimp only at h
    split at h
    · cases h
    · rename_i payload hpayload
      obtain ⟨⟨⟩, -, h⟩ := except_bind_eq_ok h
      obtain ⟨decoded, hdecoded, h⟩ := except_bind_eq_ok h
      cases h
      have harea := harea separator payload _ _ hseparator hpayload
        (decodeImageBytes_dimensions hdecoded)
      have hsound := decodeImageBytes_sound hD hdecoded
      have hshape (rgba : List UInt8) (hrgba : Graphics.Shaped decoded.width decoded.height rgba) :
          Graphics.Shaped
            (iterm2Size (parseSemicolonParams (data.take separator)) decoded.width
              decoded.height).1
            (iterm2Size (parseSemicolonParams (data.take separator)) decoded.width
              decoded.height).2 rgba := by
        rw [Graphics.Shaped, harea]
        exact hrgba
      refine ⟨hshape _ hsound.shaped, fun frame hframe => hshape _ ?_⟩
      obtain ⟨source, hsource, rfl⟩ := List.mem_map.mp hframe
      exact hsound.frames source hsource

theorem decodeSixel_shaped {sequence : List UInt8} (hfits : SixelFits D sequence)
    (h : g.decodeSixel D cursor sequence = .ok (g', image, placement, advance)) : image.Shaped := by
  obtain ⟨⟨⟩, -, h⟩ := except_bind_eq_ok h
  split at h
  · cases h
  · rename_i decoded hdecoded
    obtain ⟨⟨⟩, -, h⟩ := except_bind_eq_ok h
    cases h
    refine ⟨?_, fun _ hframe => by cases hframe⟩
    show decoded.pixels.bytes.length = 4 * _
    rw [hfits decoded hdecoded]
    exact hD.sixel sequence decoded hdecoded

theorem kittyPixels_sound (hraw : RawUploadFits files g.options assembly)
    (h : g.kittyPixels D files assembly.params assembly.encoded = .ok decoded) : decoded.Sound := by
  obtain ⟨complete, hcomplete, h⟩ := Outcome.bind_eq_ok h
  have hcomplete := Outcome.ofExcept_eq_ok hcomplete
  have hfits := decodeKittyPayload_fits hcomplete
  obtain ⟨hrgb, hrgba⟩ := hraw complete hcomplete
  split at h
  · rename_i hformat
    exact decodeRawRgb_sound hfits (hrgb hformat) h
  · split at h
    · rename_i hformat
      exact decodeRawRgba_sound hfits (hrgba hformat) h
    · exact decodeImageBytes_sound hD (Outcome.ofExcept_eq_ok h)

theorem CompletesUpload.sound (hkeeps : KeepsShape D g input)
    (h : CompletesUpload D g input assembly decoded) :
    decoded.Sound ∧
      ((assembly.params.get 'a').getD ['t'] = ['f'] → FillFits g assembly.params) := by
  obtain ⟨⟨data, hcommand, hcomplete⟩, hpixels⟩ := h
  obtain ⟨hraw, hfill⟩ := hkeeps.apc data assembly hcommand.state hcommand.byte hcommand.option
    hcommand.front hcomplete
  exact ⟨kittyPixels_sound hD hraw hpixels, hfill⟩

theorem Edits.sound (hkeeps : KeepsShape D g input) (hlookup : g.kittyImages.lookup id = some image)
    (himage : image.Sound)
    (hedits : Edits D g input id (ensureKittyAnimationRoot image) changed) : changed.Sound := by
  have hroot := ensureKittyAnimationRoot_sound himage
  cases hedits with
  | refused => exact hroot
  | control params => exact controlKittyAnimation_sound hroot
  | compose hcompose => exact composeKittyAnimationFrame_sound hroot hcompose
  | frame hupload haction hid hadd =>
    obtain ⟨-, hfill⟩ := hupload.sound hD hkeeps
    refine addKittyAnimationFrame_sound hroot (fun hfills => ?_) hadd
    have hpixels := hfill haction id image hid hlookup hfills
    unfold ensureKittyAnimationRoot
    split <;> exact hpixels

end

/-! ## 6. Runs -/

variable {out : GraphicsAdvance}

theorem advanceByte_sound (hD : D.Faithful) (h : g.Sound) (hkeeps : KeepsShape D g input)
    (hstep : g.advanceByte D input.files input.cursor input.byte = some (g', out)) :
    Keeps g g' out := by
  obtain ⟨hoptions, himages⟩ := advanceByte_step hstep
  suffices hboth : g'.Sound ∧ ∀ image ∈ imagesOf out.events, image.Shaped from
    ⟨hoptions, hboth.1, forall_shaped_iff.mpr hboth.2⟩
  generalize imagesOf out.events = shown at himages ⊢
  refine ⟨?_, ?_⟩
  · cases himages with
    | kept hkept => exact fun id image hlookup => h id image (hkept id image hlookup)
    | iterm2 _ _ hsame => exact fun id image hlookup => h id image (hsame ▸ hlookup)
    | sixel _ _ hsame => exact fun id image hlookup => h id image (hsame ▸ hlookup)
    | stored hupload _ hinsert =>
      have hdecoded := (hupload.sound hD hkeeps).1
      exact sound_of_insert h (terminalImageDataFromDecoded_sound hdecoded _ .kitty none) hinsert
    | edited hlookup hedits hinsert =>
      exact sound_of_insert h (hedits.sound hD hkeeps hlookup (h _ _ hlookup)) hinsert
  · cases himages with
    | kept hkept => simp
    | iterm2 hcommand hdecode _ =>
      have harea := hkeeps.osc _ hcommand.ends hcommand.option hcommand.front
      simpa using decodeIterm2_shaped hD harea hdecode
    | sixel hcommand hdecode _ =>
      have hfits := hkeeps.dcs _ hcommand.state hcommand.byte hcommand.option hcommand.sixel
      simpa using decodeSixel_shaped hD hfits hdecode
    | stored hupload _ _ =>
      have hdecoded := (hupload.sound hD hkeeps).1
      simpa using (terminalImageDataFromDecoded_sound hdecoded _ .kitty none).shaped
    | edited hlookup hedits _ hshown =>
      intro image himage
      rw [hshown image himage]
      exact (hedits.sound hD hkeeps hlookup (h _ _ hlookup)).shaped

/-- Every byte of a run meets the condition in the state that it finds. -/
def KeepsShapeAll (D : Decoders) (g : GraphicsIngress) : List Input → Prop
  | [] => True
  | input :: inputs => KeepsShape D g input ∧
      ∀ g' out, g.advanceByte D input.files input.cursor input.byte = some (g', out) →
        KeepsShapeAll D g' inputs

theorem advanceLoop_sound (hD : D.Faithful) (h : g.Sound) {inputs : List Input}
    {result : GraphicsAdvance} (hkeeps : KeepsShapeAll D g inputs)
    (hresult : ∀ e ∈ result.events, e.Shaped)
    (hloop : g.advanceLoop D result inputs = some (g', out)) : Keeps g g' out := by
  induction inputs generalizing g result with
  | nil =>
    cases hloop
    exact ⟨rfl, h, hresult⟩
  | cons input inputs ih =>
    rw [advanceLoop] at hloop
    split at hloop
    · cases hloop
    · rename_i next produced hstep
      obtain ⟨hinput, hnext⟩ := hkeeps
      have hkept := advanceByte_sound hD h hinput hstep
      have hboth : ∀ e ∈ (result.append produced).events, e.Shaped := fun e he =>
        (List.mem_append.mp he).elim (hresult e) (hkept.events e)
      have hrest := ih hkept.sound (hnext next produced hstep) hboth hloop
      exact ⟨hrest.options.trans hkept.options, hrest.sound, hrest.events⟩

theorem advanceChunks_sound (hD : D.Faithful) (h : g.Sound) {chunks : List (List Input)}
    (hkeeps : g.options.enabled = true → KeepsShapeAll D g chunks.flatten)
    (hrun : g.advanceChunks D chunks = some (g', out)) : Keeps g g' out := by
  by_cases henabled : g.options.enabled = true
  · rw [advanceChunks_enabled henabled] at hrun
    exact advanceLoop_sound hD h (hkeeps henabled) (fun e he => by cases he) hrun
  · rw [advanceChunks_disabled D (by simpa using henabled)] at hrun
    cases hrun
    exact ⟨rfl, h, fun e he => by cases he⟩

/-- **THE SHAPE OF EVERY IMAGE**, shown or stored, in a run without a command that breaks it. -/
theorem images_shaped (hD : D.Faithful) (o : GraphicsOptions) (chunks : List (List Input))
    (hkeeps : o.enabled = true → KeepsShapeAll D (new o) chunks.flatten) {out : GraphicsAdvance}
    (hrun : (new o).advanceChunks D chunks = some (g, out)) :
    (∀ e ∈ out.events, e.Shaped) ∧
      ∀ id image, g.kittyImages.lookup id = some image → image.Shaped := by
  have hnew : (new o).Sound := fun id image hlookup => by cases hlookup
  have hkept := advanceChunks_sound hD hnew hkeeps hrun
  exact ⟨hkept.events, fun id image hlookup => (hkept.sound id image hlookup).shaped⟩

/-- A GIF of one pixel. -/
def onePixelGif : List UInt8 :=
  [
   0x47, 0x49, 0x46, 0x38, 0x39, 0x61, 0x01, 0x00, 0x01, 0x00, 0x80, 0x00, 0x00, 0x05, 0x04,
   0x04, 0x00, 0x00, 0x00, 0x2c, 0x00, 0x00, 0x00, 0x00, 0x01, 0x00, 0x01, 0x00, 0x00, 0x02,
   0x02, 0x44, 0x01, 0x00, 0x3b]

/-- Crates that know this picture only. -/
def onePixelDecoders : Decoders :=
  let pixel : Buffer := ⟨[0x05, 0x04, 0x04, 0xff], by decide⟩
  { guessFormat := fun bytes => if bytes = onePixelGif then some .gif else none
    gifFrames := fun bytes =>
      if bytes = onePixelGif then .ok [.ok ⟨⟨1, 1, pixel⟩, 0, 1⟩] else .error []
    readImage := fun _ => .error []
    sixel := fun _ => .error [] }

theorem onePixelDecoders_faithful : onePixelDecoders.Faithful where
  gif bytes frames frame hframes hmem := by
    simp only [onePixelDecoders] at hframes
    split at hframes
    · cases hframes
      cases List.mem_singleton.mp hmem
      decide
    · cases hframes
  image bytes image himage := by cases himage
  sixel bytes image himage := by cases himage

/-- Bytes that complete no control string keep the shape, whatever is behind them. -/
theorem keepsShapeAll_append (front : List Input) {back : List Input}
    (hfront : ∀ input ∈ front, input.byte ≠ bel ∧ input.byte ≠ backslash)
    (hback : ∀ g', (g.advanceLoop D {} front).map Prod.fst = some g' → KeepsShapeAll D g' back) :
    KeepsShapeAll D g (front ++ back) := by
  induction front generalizing g with
  | nil => exact hback g rfl
  | cons input front ih =>
    obtain ⟨⟨hbel, hbackslash⟩, hfront⟩ := List.forall_mem_cons.mp hfront
    refine ⟨⟨fun data hstate => ?_, fun data _ hbyte => absurd hbyte hbackslash,
      fun data assembly _ hbyte => absurd hbyte hbackslash⟩, fun next produced hstep => ?_⟩
    · rcases hstate with hstate | hstate
      · exact absurd hstate.2 hbel
      · exact absurd hstate.2 hbackslash
    · refine ih hfront fun g' hrun => hback g' ?_
      rw [advanceLoop, hstep]
      dsimp only
      rw [advanceLoop_append, Option.map_map]
      exact hrun

/-- `ESC ]1337;File=inline=1:` and the picture in base64. -/
def shownImage : List UInt8 :=
  [
   0x1b, 0x5d, 0x31, 0x33, 0x33, 0x37, 0x3b, 0x46, 0x69, 0x6c, 0x65, 0x3d, 0x69, 0x6e, 0x6c,
   0x69, 0x6e, 0x65, 0x3d, 0x31, 0x3a, 0x52, 0x30, 0x6c, 0x47, 0x4f, 0x44, 0x6c, 0x68, 0x41,
   0x51, 0x41, 0x42, 0x41, 0x49, 0x41, 0x41, 0x41, 0x41, 0x55, 0x45, 0x42, 0x41, 0x41, 0x41,
   0x41, 0x43, 0x77, 0x41, 0x41, 0x41, 0x41, 0x41, 0x41, 0x51, 0x41, 0x42, 0x41, 0x41, 0x41,
   0x43, 0x41, 0x6b, 0x51, 0x42, 0x41, 0x44, 0x73, 0x3d]

/-- The picture of one pixel, shown at its own size, behind a byte of text and in two chunks. -/
theorem images_shaped_one_pixel :
    let chunks := [[plainInput 0x61], shownImage.map plainInput ++ [plainInput bel]]
    ∃ g out, (new {}).advanceChunks onePixelDecoders chunks = some (g, out) ∧
      (∀ e ∈ out.events, e.Shaped) ∧
        ∀ id image, g.kittyImages.lookup id = some image → image.Shaped := by
  intro chunks
  have hevents : ((new {}).advanceChunks onePixelDecoders chunks).map
      (fun call => call.2.events.length) = some 2 := by decide +kernel
  obtain ⟨⟨g, out⟩, hrun, -⟩ := Option.map_eq_some_iff.mp hevents
  refine ⟨g, out, hrun, images_shaped onePixelDecoders_faithful {} chunks (fun _ => ?_) hrun⟩
  refine keepsShapeAll_append ((0x61 :: shownImage).map plainInput) (by decide) ?_
  intro g' hfront
  have hstate : g'.state = .osc (shownImage.drop 2) := by
    have hfold : (((new {}).advanceLoop onePixelDecoders {}
        ((0x61 :: shownImage).map plainInput)).map Prod.fst).map (·.state) =
          some (.osc (shownImage.drop 2)) := by decide +kernel
    rw [hfront] at hfold
    exact Option.some.inj hfold
  refine ⟨⟨fun data hdata _ _ => ?_, fun data hdata => ?_, fun data assembly hdata => ?_⟩,
    fun _ _ _ => trivial⟩
  · have hdata : data = shownImage.drop 2 := by
      rcases hdata with ⟨hdata, -⟩ | ⟨hdata, -⟩
      · exact ParserState.osc.inj (hdata.symm.trans hstate)
      · exact absurd (hdata.symm.trans hstate) (by simp)
    subst hdata
    -- the command names no width and no height
    intro separator payload width height hseparator _ _
    have hcut : (((shownImage.drop 2).drop iterm2Front.length).idxOf? 0x3a) = some 8 := by decide
    rw [hcut] at hseparator
    cases hseparator
    rfl
  · exact absurd (hdata.symm.trans hstate) (by simp)
  · exact absurd (hdata.symm.trans hstate) (by simp)

/-- `ESC ]1337;File=inline=1;width=2:`, the picture in base64, `BEL`. -/
def resizedImage : List UInt8 :=
  [
   0x1b, 0x5d, 0x31, 0x33, 0x33, 0x37, 0x3b, 0x46, 0x69, 0x6c, 0x65, 0x3d, 0x69, 0x6e, 0x6c,
   0x69, 0x6e, 0x65, 0x3d, 0x31, 0x3b, 0x77, 0x69, 0x64, 0x74, 0x68, 0x3d, 0x32, 0x3a, 0x52,
   0x30, 0x6c, 0x47, 0x4f, 0x44, 0x6c, 0x68, 0x41, 0x51, 0x41, 0x42, 0x41, 0x49, 0x41, 0x41,
   0x41, 0x41, 0x55, 0x45, 0x42, 0x41, 0x41, 0x41, 0x41, 0x43, 0x77, 0x41, 0x41, 0x41, 0x41,
   0x41, 0x41, 0x51, 0x41, 0x42, 0x41, 0x41, 0x41, 0x43, 0x41, 0x6b, 0x51, 0x42, 0x41, 0x44,
   0x73, 0x3d, 0x07]

/-- **A picture of one pixel is shown two pixels wide, with the four bytes of one.** -/
theorem resized_image_not_shaped :
    ¬∀ (D : Decoders), D.Faithful → ∀ (o : GraphicsOptions) (chunks : List (List Input)) g out,
      (new o).advanceChunks D chunks = some (g, out) →
        (∀ e ∈ out.events, e.Shaped) ∧
          ∀ id image, g.kittyImages.lookup id = some image → image.Shaped := by
  intro h
  have hshapes : ((new {}).advanceChunks onePixelDecoders [resizedImage.map plainInput]).map
      (fun call => call.2.events.map fun e => decide e.Shaped) = some [false, true] := by
    decide +kernel
  obtain ⟨⟨g, out⟩, hrun, hevents⟩ := Option.map_eq_some_iff.mp hshapes
  have hall := (h onePixelDecoders onePixelDecoders_faithful {} _ g out hrun).1
  have hfalse : false ∈ out.events.map fun e => decide e.Shaped := by
    rw [hevents]
    exact List.mem_cons_self
  obtain ⟨e, he, hshape⟩ := List.mem_map.mp hfalse
  exact of_decide_eq_false hshape (hall e he)

end GraphicsIngress

end Hapcli.Graphics

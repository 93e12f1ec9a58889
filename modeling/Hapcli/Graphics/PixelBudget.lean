/-
  Subject:   The pixel limit, over whole runs of the ingress: which images it holds back and which
             it does not.

  The limit is asked of the pictures that the crates decode, in numbers that stop at `u32::MAX`. It
  is not asked of raw kitty uploads, nor of the size that an iTerm2 command gives its picture.

  * **`within_budget_iff`** -- every run: no image above the limit is shown or stored exactly if
    no byte completes a command with such an image.
-/
import Hapcli.Graphics.Images
import Hapcli.Lib.Runs

namespace Hapcli.Graphics

open Hapcli.Rust Hapcli.Lib
open Hapcli.Terminal (bel esc backslash)

/-! ## 1. The budget -/

/-- `width * height` is within the limit. A frame has the size of its image. -/
def TerminalImageData.Within (image : TerminalImageData) (limit : UInt32) : Prop :=
  image.width.toNat * image.height.toNat ≤ limit.toNat

instance (image : TerminalImageData) (limit : UInt32) : Decidable (image.Within limit) :=
  inferInstanceAs (Decidable (_ ≤ _))

/-- The picture of an iTerm2 command, where it is accepted, is within the limit at the size that the
    command gives it. -/
def Iterm2Within (D : Decoders) (o : GraphicsOptions) (data : List UInt8) : Prop :=
  ∀ separator payload picture, data.idxOf? 0x3a = some separator →
    base64DecodeBytes (data.drop (separator + 1)) = some payload →
    enforceStorageLimit payload.length o.storageLimitMb = .ok () →
    decodeImageBytes D payload o.pixelLimit = .ok picture →
      let size := GraphicsIngress.iterm2Size (parseSemicolonParams (data.take separator))
        picture.width picture.height
      size.1.toNat * size.2.toNat ≤ o.pixelLimit.toNat

/-- A sixel that is accepted is within the limit, also where its pixels are no `u32`. -/
def SixelWithin (D : Decoders) (o : GraphicsOptions) (sequence : List UInt8) : Prop :=
  ∀ picture, enforceStorageLimit sequence.length o.storageLimitMb = .ok () →
    D.sixel sequence = .ok picture →
    enforcePixelLimit (.ofNat picture.width) (.ofNat picture.height) o.pixelLimit = .ok () →
      (UInt32.ofNat picture.width).toNat * (UInt32.ofNat picture.height).toNat ≤ o.pixelLimit.toNat

/-- A raw upload that is accepted is within the limit; and another picture, also where its pixels
    are no `u32`. -/
structure UploadWithin (D : Decoders) (o : GraphicsOptions) (assembly : KittyChunkAssembly)
    (complete : List UInt8) : Prop where
  raw : ∀ channels width height,
    assembly.params.get 'f' = some ['2', '4'] ∧ channels = 3 ∧
        usize (usize (width.toNat * height.toNat) * 4) ≤ isizeMax ∨
      assembly.params.get 'f' = some ['3', '2'] ∧ channels = 4 →
    rawDimensions assembly.params = some (width, height) →
    enforceRawLen complete width height channels = .ok () →
      width.toNat * height.toNat ≤ o.pixelLimit.toNat
  picture : ∀ picture, assembly.params.get 'f' ≠ some ['2', '4'] →
    assembly.params.get 'f' ≠ some ['3', '2'] →
    decodeImageBytes D complete o.pixelLimit = .ok picture →
      picture.width.toNat * picture.height.toNat ≤ o.pixelLimit.toNat

namespace GraphicsIngress

/-- **The byte completes no command with an image above the limit that nothing holds back.** -/
structure WithinBudget (D : Decoders) (g : GraphicsIngress) (input : Input) : Prop where
  osc : ∀ data, CompletesIterm2 g input data →
    Iterm2Within D g.options (data.drop iterm2Front.length)
  dcs : ∀ data, CompletesSixel g input data →
    SixelWithin D g.options ([esc, 0x50] ++ data ++ [esc, backslash])
  apc : ∀ data assembly complete, CompletesKitty g input data →
    g.completedUpload (data.drop 1) = some assembly →
    (assembly.params.get 'a').getD ['t'] = ['t'] ∨ (assembly.params.get 'a').getD ['t'] = ['T'] →
    decodeKittyPayload input.files assembly.params assembly.encoded g.options.storageLimitMb =
      .ok complete →
      UploadWithin D g.options assembly complete

/-! ## 2. Pictures -/

variable {D : Decoders} {cursor : GraphicsCursor} {g g' : GraphicsIngress} {input : Input}

theorem iterm2Within_iff (cursor : GraphicsCursor) {data : List UInt8} :
    Iterm2Within D g.options data ↔
      ∀ next image placement advance,
        g.decodeIterm2 D cursor data = .ok (next, image, placement, advance) →
          image.Within g.options.pixelLimit := by
  constructor
  · intro hwithin next image placement advance h
    unfold decodeIterm2 at h
    split at h
    · cases h
    · next separator hseparator =>
        dsimp only at h
        split at h
        · cases h
        · next payload hpayload =>
            obtain ⟨⟨⟩, hstorage, h⟩ := except_bind_eq_ok h
            obtain ⟨picture, hpicture, h⟩ := except_bind_eq_ok h
            cases h
            exact hwithin separator payload picture hseparator hpayload hstorage hpicture
  · intro hall separator payload picture hseparator hpayload hstorage hpicture
    obtain ⟨next, image, placement, advance, hdecode, hsize⟩ :
        ∃ next image placement advance,
          g.decodeIterm2 D cursor data = .ok (next, image, placement, advance) ∧
            (image.width, image.height) = iterm2Size (parseSemicolonParams (data.take separator))
              picture.width picture.height := by
      unfold decodeIterm2
      simp only [hseparator, hpayload, hstorage, hpicture]
      exact ⟨_, _, _, _, rfl, rfl⟩
    rw [← hsize]
    exact hall next image placement advance hdecode

theorem sixelWithin_iff (cursor : GraphicsCursor) {sequence : List UInt8} :
    SixelWithin D g.options sequence ↔
      ∀ next image placement advance,
        g.decodeSixel D cursor sequence = .ok (next, image, placement, advance) →
          image.Within g.options.pixelLimit := by
  constructor
  · intro hwithin next image placement advance h
    obtain ⟨⟨⟩, hstorage, h⟩ := except_bind_eq_ok h
    split at h
    · cases h
    · next picture hpicture =>
        obtain ⟨⟨⟩, hlimit, h⟩ := except_bind_eq_ok h
        cases h
        exact hwithin picture hstorage hpicture hlimit
  · intro hall picture hstorage hpicture hlimit
    obtain ⟨next, image, placement, advance, hdecode, hwidth, hheight⟩ :
        ∃ next image placement advance,
          g.decodeSixel D cursor sequence = .ok (next, image, placement, advance) ∧
            image.width = .ofNat picture.width ∧ image.height = .ofNat picture.height := by
      unfold decodeSixel
      simp only [hstorage, hpicture, hlimit]
      exact ⟨_, _, _, _, rfl, rfl, rfl⟩
    rw [← hwidth, ← hheight]
    exact hall next image placement advance hdecode

variable {assembly : KittyChunkAssembly} {image : TerminalImageData} {inputs : List Input}
  {out result : GraphicsAdvance}

theorem uploadWithin_iff {files : Files} :
    (∀ complete, decodeKittyPayload files assembly.params assembly.encoded
        g.options.storageLimitMb = .ok complete → UploadWithin D g.options assembly complete) ↔
      ∀ decoded, g.kittyPixels D files assembly.params assembly.encoded = .ok decoded →
        decoded.width.toNat * decoded.height.toNat ≤ g.options.pixelLimit.toNat := by
  constructor
  · intro hwithin decoded h
    obtain ⟨complete, hcomplete, h⟩ := Outcome.bind_eq_ok h
    obtain ⟨hraw, hpicture⟩ := hwithin complete (Outcome.ofExcept_eq_ok hcomplete)
    split at h
    · next hformat =>
        obtain ⟨width, height, hsize, hlen, hcapacity, rfl⟩ := decodeRawRgb_ok_iff.mp h
        exact hraw 3 width height (.inl ⟨hformat, rfl, hcapacity⟩) hsize hlen
    · next hno =>
        split at h
        · next hformat =>
            obtain ⟨width, height, hsize, hlen, rfl⟩ := decodeRawRgba_ok_iff.mp h
            exact hraw 4 width height (.inr ⟨hformat, rfl⟩) hsize hlen
        · next hnot => exact hpicture decoded hno hnot (Outcome.ofExcept_eq_ok h)
  · intro hall complete hcomplete
    have hpixels (decoded)
        (h : (if assembly.params.get 'f' = some ['2', '4'] then
            decodeRawRgb complete assembly.params
          else if assembly.params.get 'f' = some ['3', '2'] then
            decodeRawRgba complete assembly.params
          else Outcome.ofExcept (decodeImageBytes D complete g.options.pixelLimit)) = .ok decoded) :
        decoded.width.toNat * decoded.height.toNat ≤ g.options.pixelLimit.toNat := by
      refine hall decoded ?_
      unfold kittyPixels
      rw [hcomplete]
      exact h
    refine ⟨?_, ?_⟩
    · rintro channels width height (⟨hformat, rfl, hcapacity⟩ | ⟨hformat, rfl⟩) hsize hlen
      · refine hpixels { width, height, rgba := addAlpha complete, frames := [] } ?_
        rw [if_pos hformat]
        exact decodeRawRgb_ok_iff.mpr ⟨width, height, hsize, hlen, hcapacity, rfl⟩
      · refine hpixels { width, height, rgba := complete, frames := [] } ?_
        rw [if_neg (by simp [hformat]), if_pos hformat]
        exact decodeRawRgba_ok_iff.mpr ⟨width, height, hsize, hlen, rfl⟩
    · intro picture hno hnot hpicture
      refine hpixels picture ?_
      rw [if_neg hno, if_neg hnot, hpicture]
      rfl

/-! ## 3. Steps -/

/-- Every stored image is within the limit. -/
def StoresWithin (g : GraphicsIngress) : Prop :=
  ∀ id image, g.kittyImages.lookup id = some image → image.Within g.options.pixelLimit

theorem storesWithin_of_insert (h : g.StoresWithin) {id : UInt64}
    (himage : image.Within g.options.pixelLimit) (hoptions : g'.options = g.options)
    (himages : g'.kittyImages = g.kittyImages.insert id image) : g'.StoresWithin := by
  intro other stored hlookup
  rw [himages, Map.lookup_insert_eq] at hlookup
  rw [hoptions]
  split at hlookup
  · cases hlookup
    exact himage
  · exact h other stored hlookup

theorem WithinBudget.upload (hbudget : WithinBudget D g input)
    {decoded : DecodedPixels} (hupload : CompletesUpload D g input assembly decoded)
    (haction : (assembly.params.get 'a').getD ['t'] = ['t'] ∨
      (assembly.params.get 'a').getD ['t'] = ['T']) :
    decoded.width.toNat * decoded.height.toNat ≤ g.options.pixelLimit.toNat := by
  obtain ⟨⟨data, hcommand, hcomplete⟩, hpixels⟩ := hupload
  exact (uploadWithin_iff).mp
    (fun complete => hbudget.apc data assembly complete hcommand hcomplete haction) decoded hpixels

theorem advanceByte_within (h : g.StoresWithin) (hbudget : WithinBudget D g input)
    (hstep : g.advanceByte D input.files input.cursor input.byte = some (g', out)) :
    (∀ image ∈ imagesOf out.events, image.Within g.options.pixelLimit) ∧ g'.StoresWithin := by
  obtain ⟨hoptions, himages⟩ := advanceByte_step hstep
  have hsame (hkept : ∀ id image, g'.kittyImages.lookup id = some image →
      g.kittyImages.lookup id = some image) : g'.StoresWithin := by
    intro id image hlookup
    rw [hoptions]
    exact h id image (hkept id image hlookup)
  generalize imagesOf out.events = shown at himages ⊢
  cases himages with
  | kept hkept => exact ⟨by simp, hsame hkept⟩
  | iterm2 hcommand hdecode himages =>
    have hwithin := (iterm2Within_iff (g := { g with state := .ground }) input.cursor).mp
      (hbudget.osc _ hcommand) _ _ _ _ hdecode
    exact ⟨by simpa using hwithin, hsame fun id image hlookup => himages ▸ hlookup⟩
  | sixel hcommand hdecode himages =>
    have hwithin := (sixelWithin_iff (g := { g with state := .ground }) input.cursor).mp
      (hbudget.dcs _ hcommand) _ _ _ _ hdecode
    exact ⟨by simpa using hwithin, hsame fun id image hlookup => himages ▸ hlookup⟩
  | @stored assembly decoded id hupload haction himages =>
    have hwithin : (terminalImageDataFromDecoded id .kitty decoded none).Within
      g.options.pixelLimit := hbudget.upload hupload haction
    exact ⟨by simpa using hwithin, storesWithin_of_insert h hwithin hoptions himages⟩
  | edited hlookup hedits himages hshown =>
    have hwithin : TerminalImageData.Within _ g.options.pixelLimit := h _ _ hlookup
    obtain ⟨hwidth, hheight⟩ := hedits.size
    obtain ⟨hrootWidth, hrootHeight⟩ := ensureKittyAnimationRoot_size _
    rw [TerminalImageData.Within, ← hrootWidth, ← hrootHeight, ← hwidth, ← hheight] at hwithin
    refine ⟨fun image himage => ?_, storesWithin_of_insert h hwithin hoptions himages⟩
    rw [hshown image himage]
    exact hwithin

/-- STEP. A byte shows no image above the limit exactly if it is within the budget. -/
theorem advanceByte_within_iff (h : g.StoresWithin)
    (hstep : g.advanceByte D input.files input.cursor input.byte = some (g', out)) :
    (∀ image ∈ imagesOf out.events, image.Within g.options.pixelLimit) ↔
      WithinBudget D g input := by
  refine ⟨fun hshown => ⟨?_, ?_, ?_⟩, fun hbudget => (advanceByte_within h hbudget hstep).1⟩
  · intro data hcommand
    refine (iterm2Within_iff (g := { g with state := .ground }) input.cursor).mpr ?_
    intro next image placement advance hdecode
    rw [advanceByte_iterm2 hcommand, hdecode] at hstep
    cases hstep
    exact hshown image (by simp [imagesOf])
  · intro data hcommand
    refine (sixelWithin_iff (g := { g with state := .ground }) input.cursor).mpr ?_
    intro next image placement advance hdecode
    rw [advanceByte_sixel hcommand, hdecode] at hstep
    cases hstep
    exact hshown image (by simp [imagesOf])
  · intro data assembly complete hcommand hcomplete haction
    refine (uploadWithin_iff).mpr (fun decoded hpixels => ?_) complete
    obtain ⟨other, others, id, hother, himages⟩ :=
      advanceByte_upload ⟨⟨data, hcommand, hcomplete⟩, hpixels⟩ haction
    cases hstep.symm.trans hother
    exact hshown (terminalImageDataFromDecoded id .kitty decoded none) (by simp [himages])

/-! ## 4. Runs -/

/-- The ingress behind a byte. -/
def behind (D : Decoders) (g : GraphicsIngress) (input : Input) : Option GraphicsIngress :=
  (g.advanceByte D input.files input.cursor input.byte).map Prod.fst

theorem imagesOf_append (front back : List TerminalGraphicsEvent) :
    imagesOf (front ++ back) = imagesOf front ++ imagesOf back :=
  List.filterMap_append

theorem mem_images_advanceLoop (hloop : g.advanceLoop D result inputs = some (g', out))
    (himage : image ∈ imagesOf result.events) : image ∈ imagesOf out.events := by
  rw [advanceLoop_append] at hloop
  obtain ⟨⟨last, rest⟩, -, heq⟩ := Option.map_eq_some_iff.mp hloop
  cases heq
  rw [GraphicsAdvance.append_events, imagesOf_append]
  exact List.mem_append_left _ himage

theorem advanceLoop_within_iff (h : g.StoresWithin)
    (hloop : g.advanceLoop D result inputs = some (g', out)) :
    ((∀ image ∈ imagesOf out.events, image.Within g.options.pixelLimit) ↔
        (∀ image ∈ imagesOf result.events, image.Within g.options.pixelLimit) ∧
          Runs.Meets (behind D) (WithinBudget D) g inputs) ∧
      (Runs.Meets (behind D) (WithinBudget D) g inputs →
        g'.StoresWithin ∧ g'.options = g.options) := by
  induction inputs generalizing g result with
  | nil =>
    cases hloop
    exact ⟨⟨fun hall => ⟨hall, trivial⟩, And.left⟩, fun _ => ⟨h, rfl⟩⟩
  | cons input inputs ih =>
    rw [advanceLoop] at hloop
    split at hloop
    · cases hloop
    · next next produced hstep =>
        have hbehind : behind D g input = some next := by rw [behind, hstep]; rfl
        have hoptions := (advanceByte_step hstep).1
        have hboth (image) : image ∈ imagesOf (result.append produced).events ↔
            image ∈ imagesOf result.events ∨ image ∈ imagesOf produced.events := by
          rw [GraphicsAdvance.append_events, imagesOf_append, List.mem_append]
        -- what follows a byte within the budget
        have hrest (hbudget : WithinBudget D g input) :=
          ih (advanceByte_within h hbudget hstep).2 hloop
        rw [hoptions] at hrest
        refine ⟨⟨fun hall => ?_, fun hwithin => ?_⟩, fun hmeets => ?_⟩
        · have hshown (image) (himage : image ∈ imagesOf (result.append produced).events) :=
            hall image (mem_images_advanceLoop hloop himage)
          have hbudget := (advanceByte_within_iff h hstep).mp fun image himage =>
            hshown image ((hboth image).mpr (.inr himage))
          refine ⟨fun image himage => hshown image ((hboth image).mpr (.inl himage)), ?_⟩
          intro other hother
          cases hbehind.symm.trans hother
          exact ⟨hbudget, ((hrest hbudget).1.mp hall).2⟩
        · obtain ⟨hresult, hmeets⟩ := hwithin
          obtain ⟨hbudget, hmeets⟩ := hmeets next hbehind
          refine (hrest hbudget).1.mpr ⟨fun image himage => ?_, hmeets⟩
          rcases (hboth image).mp himage with himage | himage
          · exact hresult image himage
          · exact (advanceByte_within h hbudget hstep).1 image himage
        · obtain ⟨hbudget, hmeets⟩ := hmeets next hbehind
          exact (hrest hbudget).2 hmeets

/-- **THE PIXEL BUDGET, over every run**: no image is above the limit exactly if no byte completes a
    command with such an image that nothing holds back. -/
theorem within_budget_iff (D : Decoders) (o : GraphicsOptions) (chunks : List (List Input))
    {out : GraphicsAdvance} (hrun : (new o).advanceChunks D chunks = some (g, out)) :
    ((∀ image ∈ imagesOf out.events, image.Within o.pixelLimit) ∧
        ∀ id image, g.kittyImages.lookup id = some image → image.Within o.pixelLimit) ↔
      (o.enabled = true → Runs.Meets (behind D) (WithinBudget D) (new o) chunks.flatten) := by
  have hnew : (new o).StoresWithin := fun id image hlookup => by cases hlookup
  by_cases henabled : o.enabled = true
  · rw [advanceChunks_enabled henabled] at hrun
    obtain ⟨hshown, hkept⟩ := advanceLoop_within_iff hnew hrun
    constructor
    · exact fun hall _ => (hshown.mp hall.1).2
    · intro hmeets
      obtain ⟨hstores, hoptions⟩ := hkept (hmeets henabled)
      refine ⟨hshown.mpr ⟨by simp [imagesOf], hmeets henabled⟩, ?_⟩
      intro id image hlookup
      have hwithin := hstores id image hlookup
      rwa [hoptions] at hwithin
  · have hdisabled : (new o).options.enabled = false := by simpa [new] using henabled
    rw [advanceChunks_disabled D hdisabled] at hrun
    cases hrun
    refine iff_of_true ⟨?_, ?_⟩ (absurd · henabled)
    · intro image himage
      cases himage
    · intro id image hlookup
      cases hlookup

/-- `ESC _Gf=32,s=2,v=1;AAAAAAAAAAA= ESC \`: two pixels of four bytes. -/
def twoPixels : List UInt8 :=
  [
   0x1b, 0x5f, 0x47, 0x66, 0x3d, 0x33, 0x32, 0x2c, 0x73, 0x3d, 0x32, 0x2c, 0x76, 0x3d, 0x31, 0x3b,
   0x41, 0x41, 0x41, 0x41, 0x41, 0x41, 0x41, 0x41, 0x41, 0x41, 0x41, 0x3d, 0x1b, 0x5c]

/-- Under a limit of two pixels the raw image of two pixels is within the budget. -/
theorem within_budget_iff_two_pixels :
    Runs.Meets (behind noImages) (WithinBudget noImages) (new { pixelLimit := 2 })
      (twoPixels.map plainInput) := by
  have hcall : ((new { pixelLimit := 2 }).advanceChunks noImages [twoPixels.map plainInput]).map
      (fun call => ((imagesOf call.2.events).all fun image => decide (image.Within 2)) &&
        call.1.kittyImages.entries.all fun e => decide (e.2.Within 2)) = some true := by
    decide
  obtain ⟨⟨g, out⟩, hrun, hwithin⟩ := Option.map_eq_some_iff.mp hcall
  rw [Bool.and_eq_true, List.all_eq_true, List.all_eq_true] at hwithin
  refine (within_budget_iff noImages { pixelLimit := 2 } [twoPixels.map plainInput] hrun).mp ?_ rfl
  refine ⟨fun image himage => of_decide_eq_true (hwithin.1 image himage), ?_⟩
  intro id image hlookup
  exact of_decide_eq_true (hwithin.2 ⟨id, image⟩ (Map.lookup_eq_some_iff.mp hlookup))

/-- **A raw image of two pixels is shown under a limit of one.** -/
theorem raw_image_not_within :
    ¬∀ (D : Decoders), D.Faithful → ∀ (o : GraphicsOptions) (chunks : List (List Input)) g out,
      (new o).advanceChunks D chunks = some (g, out) →
        (∀ image ∈ imagesOf out.events, image.Within o.pixelLimit) ∧
          ∀ id image, g.kittyImages.lookup id = some image → image.Within o.pixelLimit := by
  intro h
  have hnoImages : noImages.Faithful :=
    ⟨fun _ _ _ hno => (by cases hno), fun _ _ hno => (by cases hno), fun _ _ hno => (by cases hno)⟩
  have hrun : ((new { pixelLimit := 1 }).advanceChunks noImages [twoPixels.map plainInput]).map
      (fun call => (imagesOf call.2.events).map fun image => decide (image.Within 1)) =
        some [false] := by
    decide
  obtain ⟨⟨g, out⟩, hrun, hwithin⟩ := Option.map_eq_some_iff.mp hrun
  have hfalse : false ∈ (imagesOf out.events).map fun image => decide (image.Within 1) := by
    rw [hwithin]
    exact List.mem_cons_self
  obtain ⟨image, himage, habove⟩ := List.mem_map.mp hfalse
  exact of_decide_eq_false habove ((h noImages hnoImages _ _ g out hrun).1 image himage)

end GraphicsIngress

end Hapcli.Graphics

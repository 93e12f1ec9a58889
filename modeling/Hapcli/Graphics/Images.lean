/-
  Subject:   What one byte of the input can do to the images that the ingress shows and stores.

  * **`advanceByte_step`** -- nothing new, an iTerm2 image, a sixel, a kitty upload or an animation
    command.
-/
import Hapcli.Graphics.Passthrough
import Hapcli.Rust.Maps

namespace Hapcli.Graphics

open Hapcli.Rust
open Hapcli.Terminal (bel esc backslash bracket)

/-! ## 1. The cases -/

/-- The images that events show. -/
def imagesOf (events : List TerminalGraphicsEvent) : List TerminalImageData :=
  events.filterMap fun e =>
    match e with
    | .imageReady image | .imageUpdated image => some image
    | _ => none

namespace GraphicsIngress

/-- The upload that a kitty command completes. -/
def completedUpload (g : GraphicsIngress) (data : List UInt8) : Option KittyChunkAssembly :=
  match parseKittyParamsAndPayload data with
  | none => none
  | some (params, payload) =>
    let action := (params.get 'a').getD ['t']
    let assembly := g.assemble (g.explicitId params) params payload
    if action ∈ [['d'], ['q'], ['p'], ['a'], ['c']] ∨ params.isOne 'm' ∨
        encodedStorageLimit g.options.storageLimitMb < assembly.encoded.length then none
    else some assembly

/-- The byte completes an iTerm2 command with this text. -/
structure CompletesIterm2 (g : GraphicsIngress) (input : Input) (data : List UInt8) : Prop where
  ends : g.state = .osc data ∧ input.byte = bel ∨ g.state = .oscEsc data ∧ input.byte = backslash
  option : g.options.iterm2Inline = true
  front : iterm2Front.isPrefixOf data = true

/-- The byte completes a sixel with this text. -/
structure CompletesSixel (g : GraphicsIngress) (input : Input) (data : List UInt8) : Prop where
  state : g.state = .dcsEsc data
  byte : input.byte = backslash
  option : g.options.sixel = true
  sixel : looksLikeSixel data = true

/-- The byte completes a kitty command with this text. -/
structure CompletesKitty (g : GraphicsIngress) (input : Input) (data : List UInt8) : Prop where
  state : g.state = .apcEsc data
  byte : input.byte = backslash
  option : g.options.kitty = true
  front : ([0x47] : List UInt8).isPrefixOf data = true

/-- The byte completes an upload of these pixels. -/
structure CompletesUpload (D : Decoders) (g : GraphicsIngress) (input : Input)
    (assembly : KittyChunkAssembly) (decoded : DecodedPixels) : Prop where
  command : ∃ data, CompletesKitty g input data ∧ g.completedUpload (data.drop 1) = some assembly
  pixels : g.kittyPixels D input.files assembly.params assembly.encoded = .ok decoded

/-- What an animation command makes of the image `id`, which has its root frame. -/
inductive Edits (D : Decoders) (g : GraphicsIngress) (input : Input) (id : UInt64)
    (image : TerminalImageData) : TerminalImageData → Prop
  | refused : Edits D g input id image image
  | control (params : Params) : Edits D g input id image (controlKittyAnimation params image).1
  | compose {params : Params} {changed : TerminalImageData}
      (hcompose : composeKittyAnimationFrame params image = .ok changed) :
      Edits D g input id image changed
  | frame {assembly : KittyChunkAssembly} {decoded : DecodedPixels} {changed : TerminalImageData}
      (hupload : CompletesUpload D g input assembly decoded)
      (haction : (assembly.params.get 'a').getD ['t'] = ['f'])
      (hid : kittyImageId assembly.params = some id)
      (hadd : addKittyAnimationFrame assembly.params decoded image = .ok changed) :
      Edits D g input id image changed

/-- **What a byte does to the images**: the ingress behind it, and the images shown. -/
inductive ImageStep (D : Decoders) (g : GraphicsIngress) (input : Input) (g' : GraphicsIngress) :
    List TerminalImageData → Prop
  | kept (hkept : ∀ id image, g'.kittyImages.lookup id = some image →
        g.kittyImages.lookup id = some image) :
      ImageStep D g input g' []
  | iterm2 {data : List UInt8} {next : GraphicsIngress} {image : TerminalImageData}
      {placement : TerminalImagePlacement} {advance : List UInt8}
      (hcommand : CompletesIterm2 g input data)
      (hdecode : ({ g with state := .ground } : GraphicsIngress).decodeIterm2 D input.cursor
        (data.drop iterm2Front.length) = .ok (next, image, placement, advance))
      (himages : g'.kittyImages = g.kittyImages) :
      ImageStep D g input g' [image]
  | sixel {data : List UInt8} {next : GraphicsIngress} {image : TerminalImageData}
      {placement : TerminalImagePlacement} {advance : List UInt8}
      (hcommand : CompletesSixel g input data)
      (hdecode : ({ g with state := .ground } : GraphicsIngress).decodeSixel D input.cursor
        ([esc, 0x50] ++ data ++ [esc, backslash]) = .ok (next, image, placement, advance))
      (himages : g'.kittyImages = g.kittyImages) :
      ImageStep D g input g' [image]
  | stored {assembly : KittyChunkAssembly} {decoded : DecodedPixels} {id : UInt64}
      (hupload : CompletesUpload D g input assembly decoded)
      (haction : (assembly.params.get 'a').getD ['t'] = ['t'] ∨
        (assembly.params.get 'a').getD ['t'] = ['T'])
      (himages : g'.kittyImages =
        g.kittyImages.insert id (terminalImageDataFromDecoded id .kitty decoded none)) :
      ImageStep D g input g' [terminalImageDataFromDecoded id .kitty decoded none]
  | edited {id : UInt64} {image changed : TerminalImageData} {shown : List TerminalImageData}
      (hlookup : g.kittyImages.lookup id = some image)
      (hedits : Edits D g input id (ensureKittyAnimationRoot image) changed)
      (himages : g'.kittyImages = g.kittyImages.insert id changed)
      (hshown : ∀ other ∈ shown, other = changed) :
      ImageStep D g input g' shown

/-! ## 2. Commands -/

variable {D : Decoders} {files : Files} {cursor : GraphicsCursor} {g g' : GraphicsIngress}
  {input : Input}

/-- A state in the middle of a byte: the options and the images are those in front of it. -/
structure Midway (g mid : GraphicsIngress) : Prop where
  options : mid.options = g.options
  images : mid.kittyImages = g.kittyImages

variable {mid : GraphicsIngress}

theorem step_nothing (hmid : Midway g mid) {shown : List TerminalImageData} (hshown : shown = []) :
    mid.options = g.options ∧ ImageStep D g input mid shown := by
  refine ⟨hmid.options, ?_⟩
  rw [hshown]
  exact .kept fun id image hlookup => hmid.images ▸ hlookup

variable {data : List UInt8}
  {edit : TerminalImageData → Option (TerminalImageData × Option GraphicsError)}
  {image : TerminalImageData} {out : GraphicsAdvance} {params : Params}

theorem step_of_call {call : GraphicsIngress × GraphicsAdvance}
    (h : call.1.options = g.options ∧ ImageStep D g input call.1 (imagesOf call.2.events))
    (heq : some call = some (g', out)) :
    g'.options = g.options ∧ ImageStep D g input g' (imagesOf out.events) := by
  cases heq
  exact h

theorem parserState_step (state : ParserState) :
    let call := g.parserStateOrSizeError state
    call.1.options = g.options ∧ ImageStep D g input call.1 (imagesOf call.2.events) := by
  unfold parserStateOrSizeError
  dsimp only
  split
  · refine step_nothing ⟨?_, ?_⟩ ?_ <;> rfl
  · refine step_nothing ⟨?_, ?_⟩ ?_ <;> rfl

variable {placement : TerminalImagePlacement} {advance : List UInt8}

theorem decodeIterm2_images
    (h : g.decodeIterm2 D cursor data = .ok (g', image, placement, advance)) :
    g'.options = g.options ∧ g'.kittyImages = g.kittyImages := by
  unfold decodeIterm2 at h
  split at h
  · cases h
  · dsimp only at h
    split at h
    · cases h
    · obtain ⟨⟨⟩, -, h⟩ := except_bind_eq_ok h
      obtain ⟨decoded, -, h⟩ := except_bind_eq_ok h
      cases h
      exact ⟨rfl, rfl⟩

theorem decodeSixel_images {sequence : List UInt8}
    (h : g.decodeSixel D cursor sequence = .ok (g', image, placement, advance)) :
    g'.options = g.options ∧ g'.kittyImages = g.kittyImages := by
  obtain ⟨⟨⟩, -, h⟩ := except_bind_eq_ok h
  split at h
  · cases h
  · obtain ⟨⟨⟩, -, h⟩ := except_bind_eq_ok h
    cases h
    exact ⟨rfl, rfl⟩

variable {result : Except GraphicsError TerminalImageData}

theorem editKittyImage_cases (hcall : g.editKittyImage params edit = some (g', result)) :
    (g' = g ∧ ∃ e, result = .error e) ∨
      ∃ id image changed failure, kittyImageId params = some id ∧
        g.kittyImages.lookup id = some image ∧
        edit (ensureKittyAnimationRoot image) = some (changed, failure) ∧
        g' = { g with kittyImages := g.kittyImages.insert id changed } ∧
        ∀ shown, result = .ok shown → shown = changed := by
  unfold editKittyImage at hcall
  split at hcall
  · cases hcall
    exact .inl ⟨rfl, _, rfl⟩
  · next id hid =>
      split at hcall
      · cases hcall
        exact .inl ⟨rfl, _, rfl⟩
      · next image hlookup =>
          obtain ⟨⟨changed, failure⟩, hchanged, heq⟩ := Option.map_eq_some_iff.mp hcall
          cases heq
          refine .inr ⟨id, image, changed, failure, hid, hlookup, hchanged, rfl, ?_⟩
          intro shown hshown
          cases failure with
          | some e => cases hshown
          | none =>
            cases hshown
            rfl

theorem changes_cases {command : TerminalImageData → Outcome TerminalImageData}
    {changed : TerminalImageData} {failure : Option GraphicsError}
    (h : changes command image = some (changed, failure)) :
    changed = image ∨ command image = .ok changed := by
  unfold changes at h
  split at h
  · cases h
  · cases h
    exact .inl rfl
  · next hresult =>
      cases h
      exact .inr hresult

theorem parseKittyCommand_payload {payload : List UInt8}
    (h : parseKittyParamsAndPayload data = some (params, payload)) :
    parseKittyCommand data = (params, some payload) := by
  obtain ⟨separator, hseparator, heq⟩ := Option.map_eq_some_iff.mp h
  cases heq
  simp [parseKittyCommand, hseparator]

theorem edited_step (hmid : Midway g mid)
    (hedit : ∀ id image changed failure, kittyImageId params = some id →
      edit image = some (changed, failure) → Edits D g input id image changed)
    (hcall : mid.editKittyImage params edit = some (g', result)) :
    g'.options = g.options ∧ ImageStep D g input g' result.toOption.toList := by
  rcases editKittyImage_cases hcall with ⟨rfl, e, rfl⟩ |
    ⟨id, image, changed, failure, hid, hlookup, hchanged, rfl, hshown⟩
  · exact ⟨hmid.options, .kept fun _ _ hlookup => hmid.images ▸ hlookup⟩
  · refine ⟨hmid.options, .edited (hmid.images ▸ hlookup) (hedit id _ _ _ hid hchanged) ?_ ?_⟩
    · exact congrArg (AList.insert id changed) hmid.images
    · intro other hother
      cases result with
      | error e => cases hother
      | ok shown => rw [List.mem_singleton.mp hother, hshown shown rfl]

theorem updated_step (hmid : Midway g mid)
    (hedit : ∀ id image changed failure, kittyImageId params = some id →
      edit image = some (changed, failure) → Edits D g input id image changed)
    (hcall : (mid.editKittyImage params edit).map updated = some (g', out)) :
    g'.options = g.options ∧ ImageStep D g input g' (imagesOf out.events) := by
  obtain ⟨⟨edited, result⟩, hedited, heq⟩ := Option.map_eq_some_iff.mp hcall
  have hstep := edited_step hmid hedit hedited
  cases result with
  | error e =>
    cases heq
    exact hstep
  | ok image =>
    cases heq
    exact hstep

/-- The image of an upload's result. -/
def uploadedImages : Except GraphicsError (Option KittyDecodeResult) → List TerminalImageData
  | .ok (some (.image image _ _)) => [image]
  | .ok (some (.imageUpdated image)) => [image]
  | _ => []

theorem uploaded_eq (call : GraphicsIngress × Except GraphicsError (Option KittyDecodeResult)) :
    (uploaded call).1 = call.1 ∧ imagesOf (uploaded call).2.events = uploadedImages call.2 := by
  obtain ⟨g, result⟩ := call
  match result with
  | .error e => exact ⟨rfl, rfl⟩
  | .ok none => exact ⟨rfl, rfl⟩
  | .ok (some (.imageUpdated image)) => exact ⟨rfl, rfl⟩
  | .ok (some (.placement placement advance)) => exact ⟨rfl, rfl⟩
  | .ok (some (.image image placement advance)) =>
    refine ⟨rfl, ?_⟩
    cases placement <;> rfl

theorem storeKittyImage_cases (mid : GraphicsIngress) (cursor : GraphicsCursor)
    (explicitId : UInt64) (params : Params) (action : Str) (decoded : DecodedPixels) :
    let call := mid.storeKittyImage cursor explicitId params action decoded
    let image := terminalImageDataFromDecoded explicitId .kitty decoded none
    call.1.options = mid.options ∧ call.1.kittyImages = mid.kittyImages.insert explicitId image ∧
      uploadedImages (.ok (some call.2)) = [image] := by
  unfold storeKittyImage
  dsimp only
  split
  · exact ⟨rfl, rfl, rfl⟩
  · exact ⟨rfl, rfl, rfl⟩

variable {assembly : KittyChunkAssembly} {result : Except GraphicsError (Option KittyDecodeResult)}

theorem finishKittyUpload_step (hmid : Midway g mid) {explicitId : UInt64}
    (hcommand : ∃ data, CompletesKitty g input data ∧
      g.completedUpload (data.drop 1) = some assembly)
    (hcall : mid.finishKittyUpload D input.files input.cursor explicitId assembly =
      some (g', result)) :
    g'.options = g.options ∧ ImageStep D g input g' (uploadedImages result) := by
  have hkept : ImageStep D g input mid [] := .kept fun _ _ hlookup => hmid.images ▸ hlookup
  unfold finishKittyUpload at hcall
  dsimp only at hcall
  split at hcall
  · cases hcall
    exact ⟨hmid.options, hkept⟩
  · rename_i haccepted
    split at hcall
    · cases hcall
    · cases hcall
      exact ⟨hmid.options, hkept⟩
    · next decoded hpixels =>
        have hupload : CompletesUpload D g input assembly decoded := by
          refine ⟨hcommand, ?_⟩
          unfold kittyPixels at hpixels ⊢
          rwa [hmid.options] at hpixels
        split at hcall
        · next haction =>
            obtain ⟨⟨edited, image⟩, hedit, heq⟩ := Option.map_eq_some_iff.mp hcall
            cases heq
            have hchanged (id image changed failure) (hid : kittyImageId assembly.params = some id)
                (hchanges : changes (addKittyAnimationFrame assembly.params decoded) image =
                  some (changed, failure)) : Edits D g input id image changed := by
              rcases changes_cases hchanges with rfl | hadd
              · exact .refused
              · exact .frame hupload haction hid hadd
            have hstep := edited_step hmid hchanged hedit
            cases image with
            | error e => exact hstep
            | ok image => exact hstep
        · next haction =>
            obtain ⟨hoptions, himages, hshown⟩ := storeKittyImage_cases mid
              input.cursor explicitId assembly.params ((assembly.params.get 'a').getD ['t']) decoded
            cases hcall
            rw [hshown]
            have himage : (assembly.params.get 'a').getD ['t'] = ['t'] ∨
                (assembly.params.get 'a').getD ['t'] = ['T'] := by
              by_contra hneither
              rw [not_or] at hneither
              exact haccepted ⟨hneither.1, hneither.2, haction⟩
            refine ⟨hoptions.trans hmid.options, .stored hupload himage (himages.trans ?_)⟩
            rw [hmid.images]

theorem decodeKitty_step (hcommand : CompletesKitty g input data)
    (haction : ∀ params payload, parseKittyParamsAndPayload (data.drop 1) = some (params, payload) →
      (params.get 'a').getD ['t'] ∉ [['d'], ['q'], ['p'], ['a'], ['c']])
    (hcall : ({ g with state := .ground } : GraphicsIngress).decodeKitty D input.files input.cursor
      (data.drop 1) = some (g', result)) :
    g'.options = g.options ∧ ImageStep D g input g' (uploadedImages result) := by
  unfold decodeKitty at hcall
  split at hcall
  · cases hcall
    exact ⟨rfl, .kept fun _ _ hlookup => hlookup⟩
  · next params payload hparse =>
      have haction := haction params payload hparse
      dsimp only at hcall
      rw [if_neg (by simp_all), if_neg (by simp_all)] at hcall
      split at hcall
      · cases hcall
        exact ⟨rfl, .kept fun _ _ hlookup => hlookup⟩
      · next hlimit =>
          split at hcall
          · cases hcall
            exact ⟨rfl, .kept fun _ _ hlookup => hlookup⟩
          · next hmore =>
              have hcomplete : g.completedUpload (data.drop 1) =
                  some (g.assemble (g.explicitId params) params payload) := by
                simp only [completedUpload, hparse]
                refine if_neg ?_
                rintro (hno | hno | hno)
                · exact haction hno
                · exact hmore hno
                · exact hlimit hno
              have hmid (chunks) : Midway g { g with state := .ground, kittyChunks := chunks } :=
                ⟨rfl, rfl⟩
              exact finishKittyUpload_step (hmid _) ⟨data, hcommand, hcomplete⟩ hcall

/-! ## 3. Steps -/

theorem dispatchOsc_step (hends : g.state = .osc data ∧ input.byte = bel ∨
      g.state = .oscEsc data ∧ input.byte = backslash) :
    let call := ({ g with state := .ground } : GraphicsIngress).dispatchOsc D input.cursor data
    call.1.options = g.options ∧ ImageStep D g input call.1 (imagesOf call.2.events) := by
  unfold dispatchOsc
  dsimp only
  split
  · refine step_nothing ⟨?_, ?_⟩ ?_ <;> rfl
  · next hcaptured =>
      obtain ⟨hoption, hfront⟩ :
          g.options.iterm2Inline = true ∧ iterm2Front.isPrefixOf data = true := by
        simpa using hcaptured
      cases hdecode : ({ g with state := .ground } : GraphicsIngress).decodeIterm2 D input.cursor
          (data.drop iterm2Front.length) with
      | error e => refine step_nothing ⟨?_, ?_⟩ ?_ <;> rfl
      | ok call =>
        obtain ⟨next, image, placement, advance⟩ := call
        obtain ⟨hoptions, himages⟩ := decodeIterm2_images hdecode
        exact ⟨hoptions, .iterm2 ⟨hends, hoption, hfront⟩ hdecode himages⟩

theorem dispatchDcs_step (hstate : g.state = .dcsEsc data) (hbyte : input.byte = backslash) :
    let call := ({ g with state := .ground } : GraphicsIngress).dispatchDcs D input.cursor data
    call.1.options = g.options ∧ ImageStep D g input call.1 (imagesOf call.2.events) := by
  unfold dispatchDcs
  dsimp only
  split
  · refine step_nothing ⟨?_, ?_⟩ ?_ <;> rfl
  · next hcaptured =>
      obtain ⟨hoption, hsixel⟩ : g.options.sixel = true ∧ looksLikeSixel data = true := by
        simpa using hcaptured
      cases hdecode : ({ g with state := .ground } : GraphicsIngress).decodeSixel D input.cursor
          ([esc, 0x50] ++ data ++ [esc, backslash]) with
      | error e => refine step_nothing ⟨?_, ?_⟩ ?_ <;> rfl
      | ok call =>
        obtain ⟨next, image, placement, advance⟩ := call
        obtain ⟨hoptions, himages⟩ := decodeSixel_images hdecode
        exact ⟨hoptions, .sixel ⟨hstate, hbyte, hoption, hsixel⟩ hdecode himages⟩

theorem dispatchApc_step (hstate : g.state = .apcEsc data) (hbyte : input.byte = backslash)
    (hcall : ({ g with state := .ground } : GraphicsIngress).dispatchApc D input.files input.cursor
      data = some (g', out)) :
    g'.options = g.options ∧ ImageStep D g input g' (imagesOf out.events) := by
  have hground : Midway g { g with state := .ground } := ⟨rfl, rfl⟩
  unfold dispatchApc at hcall
  split at hcall
  · cases hcall
    refine step_nothing ⟨?_, ?_⟩ ?_ <;> rfl
  · next hcaptured =>
      obtain ⟨hoption, hfront⟩ :
          g.options.kitty = true ∧ ([0x47] : List UInt8).isPrefixOf data = true := by
        simpa using hcaptured
      cases hcommand : parseKittyCommand (data.drop 1) with
      | mk params payload =>
      simp only [hcommand] at hcall
      split_ifs at hcall with hdelete hquery hplace hcontrol hcompose hempty
      · cases hcall
        refine ⟨rfl, .kept fun id image hlookup => ?_⟩
        cases hid : kittyImageId params with
        | none => simp [hid] at hlookup
        | some other =>
          simp only [hid, Map.lookup_erase_eq] at hlookup
          split at hlookup
          · cases hlookup
          · exact hlookup
      · cases hcall
        refine step_nothing ⟨?_, ?_⟩ ?_ <;> rfl
      · split at hcall
        · cases hcall
          refine step_nothing ⟨?_, ?_⟩ ?_ <;> rfl
        · cases hcall
          refine step_nothing ⟨?_, ?_⟩ ?_ <;> rfl
      · refine updated_step hground (fun id image changed failure _ hchanged => ?_) hcall
        have heq : _ = changed := congrArg Prod.fst (Option.some.inj hchanged)
        exact heq ▸ .control params
      · refine updated_step hground (fun id image changed failure _ hchanges => ?_) hcall
        rcases changes_cases hchanges with rfl | hcompose
        · exact .refused
        · exact .compose hcompose
      · cases hcall
        refine step_nothing ⟨?_, ?_⟩ ?_ <;> rfl
      · obtain ⟨⟨decoded, result⟩, hdecode, heq⟩ := Option.map_eq_some_iff.mp hcall
        have haction (params' payload')
            (hparse : parseKittyParamsAndPayload (data.drop 1) = some (params', payload')) :
            (params'.get 'a').getD ['t'] ∉ [['d'], ['q'], ['p'], ['a'], ['c']] := by
          cases (parseKittyCommand_payload hparse).symm.trans hcommand
          simp [hdelete, hquery, hplace, hcontrol, hcompose]
        have hstep := decodeKitty_step ⟨hstate, hbyte, hoption, hfront⟩ haction hdecode
        obtain ⟨hfirst, himages⟩ := uploaded_eq (decoded, result)
        rw [heq] at hfirst himages
        rw [show g' = decoded from hfirst, himages]
        exact hstep

theorem advanceByte_step
    (hstep : g.advanceByte D input.files input.cursor input.byte = some (g', out)) :
    g'.options = g.options ∧ ImageStep D g input g' (imagesOf out.events) := by
  unfold advanceByte at hstep
  dsimp only at hstep
  split at hstep
  · split at hstep <;> cases hstep <;> refine step_nothing ⟨?_, ?_⟩ ?_ <;> rfl
  · split_ifs at hstep <;> cases hstep <;> refine step_nothing ⟨?_, ?_⟩ ?_ <;> rfl
  · next data hosc =>
      split_ifs at hstep with hbel hesc
      · exact step_of_call (dispatchOsc_step (.inl ⟨hosc, hbel⟩)) hstep
      · cases hstep
        refine step_nothing ⟨?_, ?_⟩ ?_ <;> rfl
      · exact step_of_call (parserState_step _) hstep
  · next data hosc =>
      split_ifs at hstep with hend
      · exact step_of_call (dispatchOsc_step (.inr ⟨hosc, hend⟩)) hstep
      · cases hstep
        refine step_nothing ⟨?_, ?_⟩ ?_ <;> rfl
  · split_ifs at hstep
    · cases hstep
      refine step_nothing ⟨?_, ?_⟩ ?_ <;> rfl
    · exact step_of_call (parserState_step _) hstep
  · next data hdcs =>
      split_ifs at hstep with hend
      · exact step_of_call (dispatchDcs_step hdcs hend) hstep
      · exact step_of_call (parserState_step _) hstep
  · split_ifs at hstep
    · cases hstep
      refine step_nothing ⟨?_, ?_⟩ ?_ <;> rfl
    · exact step_of_call (parserState_step _) hstep
  · next data hapc =>
      split_ifs at hstep with hend
      · exact dispatchApc_step hapc hend hstep
      · exact step_of_call (parserState_step _) hstep

/-! ## 4. Sizes -/

theorem ensureKittyAnimationRoot_size (image : TerminalImageData) :
    (ensureKittyAnimationRoot image).width = image.width ∧
      (ensureKittyAnimationRoot image).height = image.height := by
  unfold ensureKittyAnimationRoot
  split <;> exact ⟨rfl, rfl⟩

theorem Edits.size {id : UInt64} {changed : TerminalImageData}
    (h : Edits D g input id image changed) :
    changed.width = image.width ∧ changed.height = image.height := by
  cases h with
  | refused => exact ⟨rfl, rfl⟩
  | control params =>
    have hplay (image : TerminalImageData) :
        (controlKittyAnimation.play params image).1.width = image.width ∧
          (controlKittyAnimation.play params image).1.height = image.height := by
      unfold controlKittyAnimation.play
      dsimp only
      split <;> exact ⟨rfl, rfl⟩
    unfold controlKittyAnimation
    split
    · split
      · exact ⟨rfl, rfl⟩
      · exact hplay _
    · exact hplay image
  | compose hcompose =>
    obtain ⟨sourceFrame, -, hcompose⟩ := Outcome.bind_eq_ok hcompose
    obtain ⟨destFrame, -, hcompose⟩ := Outcome.bind_eq_ok hcompose
    obtain ⟨source, -, hcompose⟩ := Outcome.bind_eq_ok hcompose
    obtain ⟨dest, -, hcompose⟩ := Outcome.bind_eq_ok hcompose
    simp only at hcompose
    split at hcompose
    · cases hcompose
    · obtain ⟨sourceRect, -, hcompose⟩ := Outcome.bind_eq_ok hcompose
      obtain ⟨destRgba, -, hcompose⟩ := Outcome.bind_eq_ok hcompose
      cases hcompose
      exact ⟨rfl, rfl⟩
  | frame _ _ _ hadd =>
    obtain ⟨canvas, -, hadd⟩ := Outcome.bind_eq_ok hadd
    simp only at hadd
    split at hadd
    · cases hadd
    · obtain ⟨blended, -, hadd⟩ := Outcome.bind_eq_ok hadd
      cases hadd
      exact ⟨rfl, rfl⟩

/-! ## 5. Images that are shown -/

theorem advanceByte_iterm2 (hcommand : CompletesIterm2 g input data) :
    g.advanceByte D input.files input.cursor input.byte =
      some (({ g with state := .ground } : GraphicsIngress).placed
        (({ g with state := .ground } : GraphicsIngress).decodeIterm2 D input.cursor
          (data.drop iterm2Front.length))) := by
  obtain ⟨hends, hoption, hfront⟩ := hcommand
  unfold advanceByte
  rcases hends with ⟨hstate, hbyte⟩ | ⟨hstate, hbyte⟩
  · simp [hstate, hbyte, dispatchOsc, hoption, hfront]
  · simp [hstate, hbyte, dispatchOsc, hoption, hfront]

theorem advanceByte_sixel (hcommand : CompletesSixel g input data) :
    g.advanceByte D input.files input.cursor input.byte =
      some (({ g with state := .ground } : GraphicsIngress).placed
        (({ g with state := .ground } : GraphicsIngress).decodeSixel D input.cursor
          ([esc, 0x50] ++ data ++ [esc, backslash]))) := by
  obtain ⟨hstate, hbyte, hoption, hsixel⟩ := hcommand
  unfold advanceByte
  simp [hstate, hbyte, dispatchDcs, hoption, hsixel]

theorem finishKittyUpload_shows (mid : GraphicsIngress) (cursor : GraphicsCursor)
    (explicitId : UInt64) {decoded : DecodedPixels}
    (hpixels : mid.kittyPixels D files assembly.params assembly.encoded = .ok decoded)
    (haction : (assembly.params.get 'a').getD ['t'] = ['t'] ∨
      (assembly.params.get 'a').getD ['t'] = ['T']) :
    ∃ g' result, mid.finishKittyUpload D files cursor explicitId assembly = some (g', result) ∧
      uploadedImages result = [terminalImageDataFromDecoded explicitId .kitty decoded none] := by
  obtain ⟨-, -, hshown⟩ := storeKittyImage_cases mid cursor explicitId
    assembly.params ((assembly.params.get 'a').getD ['t']) decoded
  refine ⟨(mid.storeKittyImage cursor explicitId assembly.params
    ((assembly.params.get 'a').getD ['t']) decoded).1, _, ?_, hshown⟩
  unfold finishKittyUpload
  dsimp only
  rw [hpixels]
  rcases haction with haction | haction
  · rw [haction]
    rfl
  · rw [haction]
    rfl

theorem advanceByte_upload {decoded : DecodedPixels}
    (hupload : CompletesUpload D g input assembly decoded)
    (haction : (assembly.params.get 'a').getD ['t'] = ['t'] ∨
      (assembly.params.get 'a').getD ['t'] = ['T']) :
    ∃ g' out id, g.advanceByte D input.files input.cursor input.byte = some (g', out) ∧
      imagesOf out.events = [terminalImageDataFromDecoded id .kitty decoded none] := by
  obtain ⟨⟨data, ⟨hstate, hbyte, hoption, hfront⟩, hcomplete⟩, hpixels⟩ := hupload
  unfold completedUpload at hcomplete
  split at hcomplete
  · cases hcomplete
  · next params payload hparse =>
      dsimp only at hcomplete
      split_ifs at hcomplete with hno
      cases hcomplete
      obtain ⟨hcommand, hmore, hlimit⟩ :
          (params.get 'a').getD ['t'] ∉ [['d'], ['q'], ['p'], ['a'], ['c']] ∧ ¬params.isOne 'm' ∧
            ¬encodedStorageLimit g.options.storageLimitMb <
              (g.assemble (g.explicitId params) params payload).encoded.length := by
        simpa [not_or] using hno
      simp only [List.mem_cons, List.not_mem_nil, or_false, not_or] at hcommand
      obtain ⟨hdelete, hquery, hplace, hcontrol, hcompose⟩ := hcommand
      let mid : GraphicsIngress :=
        { g with state := .ground, kittyChunks := g.kittyChunks.erase (g.explicitId params) }
      obtain ⟨g', result, hfinish, hshown⟩ := finishKittyUpload_shows mid input.cursor
        (g.explicitId params) hpixels haction
      obtain ⟨hfirst, himages⟩ := uploaded_eq (g', result)
      refine ⟨(uploaded (g', result)).1, (uploaded (g', result)).2, g.explicitId params, ?_,
        himages.trans hshown⟩
      have hdecode : ({ g with state := .ground } : GraphicsIngress).decodeKitty D input.files
          input.cursor (data.drop 1) = some (g', result) := by
        unfold decodeKitty
        rw [hparse]
        dsimp only
        rw [if_neg (by simp [hdelete, hquery]), if_neg hplace]
        exact (if_neg hlimit).trans ((if_neg hmore).trans hfinish)
      unfold advanceByte
      rw [hstate]
      dsimp only
      rw [if_pos hbyte]
      unfold dispatchApc
      rw [if_neg (by simp [hoption, hfront]), parseKittyCommand_payload hparse]
      dsimp only
      rw [if_neg hdelete, if_neg hquery, if_neg hplace, if_neg hcontrol, if_neg hcompose,
        if_neg (by simp), hdecode]
      rfl

/-! ## 6. Runs -/

theorem advanceLoop_append_inputs (result : GraphicsAdvance) (front back : List Input) :
    g.advanceLoop D result (front ++ back) =
      (g.advanceLoop D result front).bind fun call => call.1.advanceLoop D call.2 back := by
  induction front generalizing g result with
  | nil => rfl
  | cons input front ih =>
    rw [List.cons_append, advanceLoop, advanceLoop]
    cases g.advanceByte D input.files input.cursor input.byte with
    | none => rfl
    | some call => exact ih _

theorem advanceLoop_options {inputs : List Input} {result : GraphicsAdvance}
    (hloop : g.advanceLoop D result inputs = some (g', out)) : g'.options = g.options := by
  induction inputs generalizing g result with
  | nil =>
    cases hloop
    rfl
  | cons input inputs ih =>
    rw [advanceLoop] at hloop
    split at hloop
    · cases hloop
    · next next produced hstep => exact (ih hloop).trans (advanceByte_step hstep).1

theorem advanceChunks_enabled (henabled : g.options.enabled = true) (chunks : List (List Input)) :
    g.advanceChunks D chunks = g.advanceLoop D {} chunks.flatten := by
  induction chunks generalizing g with
  | nil => rfl
  | cons chunk chunks ih =>
    have hchunk : g.advance D chunk = g.advanceLoop D {} chunk := if_neg (by simp [henabled])
    rw [advanceChunks, hchunk, List.flatten_cons, advanceLoop_append_inputs]
    cases hloop : g.advanceLoop D {} chunk with
    | none => rfl
    | some call =>
      obtain ⟨next, produced⟩ := call
      dsimp only
      rw [ih ((advanceLoop_options hloop).symm ▸ henabled)]
      exact (advanceLoop_append D next produced chunks.flatten).symm

end GraphicsIngress

end Hapcli.Graphics

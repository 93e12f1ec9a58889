/-
  Subject:   Kitty commands that fail: what they leave changed in the stored images, and the current
             frame of an animation.

  An animation command gives the image its root frame before it looks at anything else, and the
  control command sets the current frame and a delay before it looks at the state it is to set.

  * **`failed_command_iff`** -- a failed command leaves the images exactly under `LeavesImages`;
  * **`error_atomicity`** -- that, and the current frame of every stored image, in every run.
-/
import Hapcli.Graphics.ChunkedUpload

namespace Hapcli.Graphics

open Hapcli.Rust
open Hapcli.Terminal (bel esc backslash)

/-! ## 1. Failed commands -/

/-- The frame whose delay a control command sets. -/
def pacedFrame (params : Params) (image : TerminalImageData) : Nat :=
  min ((parseKittyFrameIndex (params.get 'r')).getD image.animation.currentFrame)
    (image.frames.length - 1)

/-- The command is refused for the frame that it names, or the frame and the delay that it sets are
    those of the image. -/
def Settled (params : Params) (image : TerminalImageData) : Prop :=
  (∃ frame, parseKittyFrameIndex (params.get 'c') = some frame ∧ image.frames.length ≤ frame) ∨
    (∀ frame, parseKittyFrameIndex (params.get 'c') = some frame →
        image.animation.currentFrame = frame ∧ image.animation.running = false) ∧
      ∀ frame, image.frames[pacedFrame params image]? = some frame →
        frame.paced (parseKittyFrameGap (params.get 'z')) = frame

variable {changed image : TerminalImageData} {e : GraphicsError} {params : Params}

theorem ensureKittyAnimationRoot_eq_iff :
    ensureKittyAnimationRoot image = image ↔ image.frames ≠ [] := by
  unfold ensureKittyAnimationRoot
  split
  · next hempty =>
      refine iff_of_false (fun heq => ?_) (not_not.mpr hempty)
      have hframes := congrArg TerminalImageData.frames heq
      rw [hempty] at hframes
      cases hframes
  · next hframes => exact iff_of_true rfl hframes

theorem modify_eq_self_iff {α : Type} {f : α → α} {l : List α} {i : Nat} :
    l.modify i f = l ↔ ∀ x, l[i]? = some x → f x = x := by
  constructor
  · intro heq x hx
    have hget := congrArg (·[i]?) heq
    simp only [List.getElem?_modify_eq, hx] at hget
    exact Option.some.inj hget
  · intro hsame
    refine List.ext_getElem? fun j => ?_
    rw [List.getElem?_modify]
    split
    · next hj =>
        subst hj
        cases hget : l[i]? with
        | none => rfl
        | some x => exact congrArg some (hsame x hget)
    · exact Option.map_id'

theorem play_error (h : (controlKittyAnimation.play params image).2 = some e) :
    (controlKittyAnimation.play params image).1 =
      { image with
        frames := image.frames.modify (pacedFrame params image) fun frame =>
          frame.paced (parseKittyFrameGap (params.get 'z')) } := by
  unfold controlKittyAnimation.play at h ⊢
  dsimp only at h ⊢
  split at h <;> first | rfl | cases h

/-- A control command that fails leaves the image exactly if it is settled. -/
theorem controlKittyAnimation_error_iff (h : (controlKittyAnimation params image).2 = some e) :
    (controlKittyAnimation params image).1 = image ↔ Settled params image := by
  unfold Settled
  unfold controlKittyAnimation at h ⊢
  cases hframe : parseKittyFrameIndex (params.get 'c') with
  | none =>
    simp only [hframe] at h ⊢
    rw [play_error h]
    constructor
    · intro heq
      refine .inr ⟨fun frame hno => (by cases hno), ?_⟩
      exact (modify_eq_self_iff).mp (congrArg TerminalImageData.frames heq)
    · rintro (⟨frame, hno, -⟩ | ⟨-, hpaced⟩)
      · cases hno
      · rw [(modify_eq_self_iff).mpr hpaced]
  | some frame =>
    simp only [hframe] at h ⊢
    by_cases hlength : image.frames.length ≤ frame
    · rw [if_pos hlength]
      exact iff_of_true rfl (.inl ⟨frame, rfl, hlength⟩)
    · rw [if_neg hlength] at h ⊢
      rw [play_error h]
      constructor
      · intro heq
        have hanimation := congrArg TerminalImageData.animation heq
        have hsame : { image with animation := { image.animation with
            currentFrame := frame, running := false } } = image := by
          dsimp only at hanimation
          rw [hanimation]
        rw [hsame] at heq
        refine .inr ⟨fun other hother => ?_, (modify_eq_self_iff).mp
          (congrArg TerminalImageData.frames heq)⟩
        cases hother
        exact ⟨(congrArg TerminalImageAnimationState.currentFrame hanimation).symm,
          (congrArg TerminalImageAnimationState.running hanimation).symm⟩
      · rintro (⟨other, hother, hover⟩ | ⟨hcurrent, hpaced⟩)
        · cases hother
          exact absurd hover hlength
        · obtain ⟨hcurrentFrame, hrunning⟩ := hcurrent frame rfl
          have hsame : { image with animation := { image.animation with
              currentFrame := frame, running := false } } = image := by
            rw [← hcurrentFrame, ← hrunning]
          rw [hsame, (modify_eq_self_iff).mpr hpaced]

theorem controlKittyAnimation_frames_length (params : Params) (image : TerminalImageData) :
    (controlKittyAnimation params image).1.frames.length = image.frames.length := by
  have hplay (image : TerminalImageData) :
      (controlKittyAnimation.play params image).1.frames.length = image.frames.length := by
    unfold controlKittyAnimation.play
    dsimp only
    split <;> exact List.length_modify ..
  unfold controlKittyAnimation
  split
  · split
    · rfl
    · exact hplay _
  · exact hplay image

theorem control_root_iff
    (h : controlKittyAnimation params (ensureKittyAnimationRoot image) = (changed, some e)) :
    changed = image ↔ image.frames ≠ [] ∧ Settled params image := by
  have hfailed : (controlKittyAnimation params (ensureKittyAnimationRoot image)).2 = some e := by
    rw [h]
  have hchanged : (controlKittyAnimation params (ensureKittyAnimationRoot image)).1 = changed := by
    rw [h]
  have hiff := controlKittyAnimation_error_iff hfailed
  rw [hchanged] at hiff
  by_cases hframes : image.frames = []
  · refine iff_of_false (fun heq => ?_) fun hno => hno.1 hframes
    have hlength := controlKittyAnimation_frames_length params (ensureKittyAnimationRoot image)
    rw [hchanged, heq, hframes] at hlength
    simp [ensureKittyAnimationRoot, hframes] at hlength
  · rw [(ensureKittyAnimationRoot_eq_iff).mpr hframes] at hiff
    exact hiff.trans ⟨fun hsettled => ⟨hframes, hsettled⟩, And.right⟩

theorem changes_root_iff {command : TerminalImageData → Outcome TerminalImageData}
    (h : changes command (ensureKittyAnimationRoot image) = some (changed, some e)) :
    changed = image ↔ image.frames ≠ [] := by
  unfold changes at h
  split at h
  · cases h
  · cases h
    exact ensureKittyAnimationRoot_eq_iff
  · cases h

variable {D : Decoders} {g g' : GraphicsIngress} {input : Input} {out : GraphicsAdvance}

namespace GraphicsIngress

variable {mid : GraphicsIngress}

variable {data : List UInt8}

section

variable (hcall : mid.editKittyImage params edit = some (g', .error e))

include hcall

theorem editKittyImage_same_iff : (∀ id, g'.kittyImages.lookup id = mid.kittyImages.lookup id) ↔
      ∀ id image changed, kittyImageId params = some id →
        mid.kittyImages.lookup id = some image →
        edit (ensureKittyAnimationRoot image) = some (changed, some e) → changed = image := by
  unfold editKittyImage at hcall
  split at hcall
  · next hnone =>
      cases hcall
      exact iff_of_true (fun _ => rfl) fun id image changed hid => by simp [hnone] at hid
  · next imageId hid =>
      split at hcall
      · next hnone =>
          cases hcall
          refine iff_of_true (fun _ => rfl) fun id image changed hid' hlookup => ?_
          cases hid.symm.trans hid'
          cases hnone.symm.trans hlookup
      · next image hlookup =>
          obtain ⟨⟨changed, failure⟩, hchanged, heq⟩ := Option.map_eq_some_iff.mp hcall
          cases failure with
          | none => cases heq
          | some failure =>
            cases heq
            constructor
            · intro hsame id image' changed' hid' hlookup' hchanged'
              cases hid.symm.trans hid'
              cases hlookup.symm.trans hlookup'
              cases hchanged.symm.trans hchanged'
              have hlook := hsame imageId
              rw [AList.lookup_insert, hlookup] at hlook
              exact Option.some.inj hlook
            · intro hall id
              rw [Map.lookup_insert_eq, hall imageId image changed hid hlookup hchanged]
              split
              · next hid => rw [hid, hlookup]
              · rfl

theorem failed_edit_iff {left : TerminalImageData → Prop}
    (hleft : ∀ image changed, edit (ensureKittyAnimationRoot image) = some (changed, some e) →
      (changed = image ↔ left image)) :
    (∀ id, g'.kittyImages.lookup id = mid.kittyImages.lookup id) ↔
      ∀ id image, kittyImageId params = some id → mid.kittyImages.lookup id = some image →
        left image := by
  rw [editKittyImage_same_iff hcall]
  constructor
  · intro hall id image hid hlookup
    unfold editKittyImage at hcall
    simp only [hid, hlookup] at hcall
    obtain ⟨⟨changed, failure⟩, hchanged, heq⟩ := Option.map_eq_some_iff.mp hcall
    cases failure with
    | none => cases heq
    | some failure =>
      cases heq
      exact (hleft image changed hchanged).mp (hall id image changed hid hlookup hchanged)
  · intro hall id image changed hid hlookup hchanged
    exact (hleft image changed hchanged).mpr (hall id image hid hlookup)

end

/-- **What a kitty command finds so that its failure leaves the images**: an animation command finds
    the image with its root frame, and a control command finds it settled. -/
structure LeavesImages (D : Decoders) (g : GraphicsIngress) (input : Input) (data : List UInt8) :
    Prop where
  control : ∀ params payload id image, parseKittyCommand (data.drop 1) = (params, payload) →
    (params.get 'a').getD ['t'] = ['a'] → kittyImageId params = some id →
    g.kittyImages.lookup id = some image → image.frames ≠ [] ∧ Settled params image
  compose : ∀ params payload id image, parseKittyCommand (data.drop 1) = (params, payload) →
    (params.get 'a').getD ['t'] = ['c'] → kittyImageId params = some id →
    g.kittyImages.lookup id = some image → image.frames ≠ []
  frame : ∀ assembly decoded id image, g.completedUpload (data.drop 1) = some assembly →
    (assembly.params.get 'a').getD ['t'] = ['f'] →
    g.kittyPixels D input.files assembly.params assembly.encoded = .ok decoded →
    kittyImageId assembly.params = some id → g.kittyImages.lookup id = some image →
      image.frames ≠ []

theorem advanceByte_kitty (hcommand : CompletesKitty g input data) :
    g.advanceByte D input.files input.cursor input.byte =
      ({ g with state := .ground } : GraphicsIngress).dispatchApc D input.files input.cursor
        data := by
  obtain ⟨hstate, hbyte, -, -⟩ := hcommand
  unfold advanceByte
  rw [hstate]
  dsimp only
  rw [if_pos hbyte]

theorem finishKittyUpload_failed_iff {assembly : KittyChunkAssembly} {explicitId : UInt64}
    (hcall : mid.finishKittyUpload D input.files input.cursor explicitId assembly =
      some (g', .error e)) :
    (∀ id, g'.kittyImages.lookup id = mid.kittyImages.lookup id) ↔
      ∀ decoded id image, (assembly.params.get 'a').getD ['t'] = ['f'] →
        mid.kittyPixels D input.files assembly.params assembly.encoded = .ok decoded →
        kittyImageId assembly.params = some id → mid.kittyImages.lookup id = some image →
          image.frames ≠ [] := by
  unfold finishKittyUpload at hcall
  dsimp only at hcall
  split at hcall
  · next hrefused =>
      cases hcall
      exact iff_of_true (fun _ => rfl) fun _ _ _ hframe => absurd hframe hrefused.2.2
  · split at hcall
    · cases hcall
    · next hpixels =>
        cases hcall
        refine iff_of_true (fun _ => rfl) fun decoded _ _ _ hdecoded => ?_
        cases hpixels.symm.trans hdecoded
    · next decoded hpixels =>
        split at hcall
        · next haction =>
            obtain ⟨⟨edited, result⟩, hedit, heq⟩ := Option.map_eq_some_iff.mp hcall
            cases result with
            | ok image => cases heq
            | error failure =>
              cases heq
              rw [failed_edit_iff hedit fun image changed hchanges => changes_root_iff hchanges]
              exact ⟨fun hall _ id image _ _ => hall id image,
                fun hall id image => hall decoded id image haction hpixels⟩
        · cases hcall

theorem decodeKitty_failed_iff
    (haction : ∀ params payload, parseKittyParamsAndPayload data = some (params, payload) →
      (params.get 'a').getD ['t'] ∉ [['d'], ['q'], ['p'], ['a'], ['c']])
    (hcall : ({ g with state := .ground } : GraphicsIngress).decodeKitty D input.files input.cursor
      data = some (g', .error e)) :
    (∀ id, g'.kittyImages.lookup id = g.kittyImages.lookup id) ↔
      ∀ assembly decoded id image, g.completedUpload data = some assembly →
        (assembly.params.get 'a').getD ['t'] = ['f'] →
        g.kittyPixels D input.files assembly.params assembly.encoded = .ok decoded →
        kittyImageId assembly.params = some id → g.kittyImages.lookup id = some image →
          image.frames ≠ [] := by
  unfold decodeKitty at hcall
  split at hcall
  · cases hcall
  · next params payload hparse =>
      have haction := haction params payload hparse
      have hcomplete : g.completedUpload data =
          if params.isOne 'm' ∨ encodedStorageLimit g.options.storageLimitMb <
            (g.assemble (g.explicitId params) params payload).encoded.length then none
          else some (g.assemble (g.explicitId params) params payload) := by
        simp only [completedUpload, hparse, haction, false_or]
      dsimp only at hcall
      rw [if_neg (by simp_all), if_neg (by simp_all)] at hcall
      split at hcall
      · next hlimit =>
          cases hcall
          rw [if_pos (.inr hlimit)] at hcomplete
          exact iff_of_true (fun _ => rfl) fun _ _ _ _ hsome => by simp [hcomplete] at hsome
      · next hlimit =>
          split at hcall
          · cases hcall
          · next hmore =>
              rw [if_neg (by rintro (hno | hno); exacts [hmore hno, hlimit hno])] at hcomplete
              have hiff := finishKittyUpload_failed_iff hcall
              refine Iff.trans hiff ⟨fun hall assembly decoded id image hassembly => ?_, ?_⟩
              · cases hcomplete.symm.trans hassembly
                exact hall decoded id image
              · exact fun hall decoded id image => hall _ decoded id image hcomplete

theorem uploaded_error {call : GraphicsIngress × Except GraphicsError (Option KittyDecodeResult)}
    {text : Str} (h : .error text ∈ (uploaded call).2.events) : ∃ e, call.2 = .error e := by
  obtain ⟨g, result⟩ := call
  match result with
  | .error e => exact ⟨e, rfl⟩
  | .ok none => cases h
  | .ok (some (.imageUpdated image)) => simp [uploaded, GraphicsAdvance.event] at h
  | .ok (some (.placement placement advance)) => simp [uploaded] at h
  | .ok (some (.image image placement advance)) => cases placement <;> simp [uploaded] at h

theorem failed_command_iff (hcommand : CompletesKitty g input data)
    (hstep : g.advanceByte D input.files input.cursor input.byte = some (g', out))
    (herror : ∃ text, .error text ∈ out.events) :
    (∀ id, g'.kittyImages.lookup id = g.kittyImages.lookup id) ↔ LeavesImages D g input data := by
  rw [advanceByte_kitty hcommand] at hstep
  unfold dispatchApc at hstep
  rw [if_neg (by simp [hcommand.option, hcommand.front])] at hstep
  cases hparsed : parseKittyCommand (data.drop 1) with
  | mk params payload =>
  simp only [hparsed] at hstep
  obtain ⟨text, herror⟩ := herror
  -- no upload is complete where the action is not one of an upload
  have hupload (haction : (params.get 'a').getD ['t'] ∈ [['d'], ['q'], ['p'], ['a'], ['c']]) :
      g.completedUpload (data.drop 1) = none := by
    unfold completedUpload
    split
    · rfl
    · next params' payload' hparse =>
        cases (parseKittyCommand_payload hparse).symm.trans hparsed
        exact if_pos (.inl haction)
  split_ifs at hstep with hdelete hquery hplace hcontrol hcompose hempty
  · cases hstep
    simp [GraphicsAdvance.event] at herror
  · cases hstep
    simp [GraphicsAdvance.event] at herror
  · have hleaves : LeavesImages D g input data := by
      refine ⟨fun _ _ _ _ hcommand haction => ?_, fun _ _ _ _ hcommand haction => ?_,
        fun _ _ _ _ hassembly => ?_⟩
      · cases hparsed.symm.trans hcommand
        simp [hplace] at haction
      · cases hparsed.symm.trans hcommand
        simp [hplace] at haction
      · cases (hupload (by simp [hplace])).symm.trans hassembly
    split at hstep
    · cases hstep
      exact iff_of_true (fun _ => rfl) hleaves
    · cases hstep
      exact iff_of_true (fun _ => rfl) hleaves
  · obtain ⟨⟨edited, result⟩, hedit, heq⟩ := Option.map_eq_some_iff.mp hstep
    cases result with
    | ok image =>
      cases heq
      simp [GraphicsAdvance.event] at herror
    | error e =>
      cases heq
      rw [failed_edit_iff hedit fun image changed hchanged =>
        control_root_iff (Option.some.inj hchanged)]
      constructor
      · intro hall
        refine ⟨fun _ _ id image hcommand _ hid hlookup => ?_, fun _ _ _ _ hcommand haction => ?_,
          fun _ _ _ _ hassembly => ?_⟩
        · cases hparsed.symm.trans hcommand
          exact hall id image hid hlookup
        · cases hparsed.symm.trans hcommand
          simp [hcontrol] at haction
        · cases (hupload (by simp [hcontrol])).symm.trans hassembly
      · exact fun hleaves id image => hleaves.control params payload id image hparsed hcontrol
  · obtain ⟨⟨edited, result⟩, hedit, heq⟩ := Option.map_eq_some_iff.mp hstep
    cases result with
    | ok image =>
      cases heq
      simp [GraphicsAdvance.event] at herror
    | error e =>
      cases heq
      rw [failed_edit_iff hedit fun image changed hchanged => changes_root_iff hchanged]
      constructor
      · intro hall
        refine ⟨fun _ _ _ _ hcommand haction => ?_, fun _ _ id image hcommand _ hid hlookup => ?_,
          fun _ _ _ _ hassembly => ?_⟩
        · cases hparsed.symm.trans hcommand
          simp [hcompose] at haction
        · cases hparsed.symm.trans hcommand
          exact hall id image hid hlookup
        · cases (hupload (by simp [hcompose])).symm.trans hassembly
      · exact fun hleaves id image => hleaves.compose params payload id image hparsed hcompose
  · cases hstep
    cases herror
  · obtain ⟨⟨decoded, result⟩, hdecode, heq⟩ := Option.map_eq_some_iff.mp hstep
    have haction (params' payload')
        (hparse : parseKittyParamsAndPayload (data.drop 1) = some (params', payload')) :
        (params'.get 'a').getD ['t'] ∉ [['d'], ['q'], ['p'], ['a'], ['c']] := by
      cases (parseKittyCommand_payload hparse).symm.trans hparsed
      simp [hdelete, hquery, hplace, hcontrol, hcompose]
    have hevents : .error text ∈ (uploaded (decoded, result)).2.events := by
      rw [heq]
      exact herror
    obtain ⟨e, hresult⟩ := uploaded_error hevents
    cases hresult
    cases heq
    rw [decodeKitty_failed_iff haction hdecode]
    constructor
    · intro hall
      refine ⟨fun _ _ _ _ hcommand haction => ?_, fun _ _ _ _ hcommand haction => ?_,
        fun assembly decoded id image => hall assembly decoded id image⟩
      · cases hparsed.symm.trans hcommand
        exact absurd haction hcontrol
      · cases hparsed.symm.trans hcommand
        exact absurd haction hcompose
    · exact fun hleaves => hleaves.frame

theorem dispatchOsc_images (mid : GraphicsIngress) (cursor : GraphicsCursor) (data : List UInt8) :
    (mid.dispatchOsc D cursor data).1.kittyImages = mid.kittyImages := by
  unfold dispatchOsc
  split
  · rfl
  · cases hdecode : mid.decodeIterm2 D cursor (data.drop iterm2Front.length) with
    | error e => rfl
    | ok call => exact (decodeIterm2_images hdecode).2

theorem dispatchDcs_images (mid : GraphicsIngress) (cursor : GraphicsCursor) (data : List UInt8) :
    (mid.dispatchDcs D cursor data).1.kittyImages = mid.kittyImages := by
  unfold dispatchDcs
  dsimp only
  split
  · rfl
  · cases hdecode : mid.decodeSixel D cursor ([esc, 0x50] ++ data ++ [esc, backslash]) with
    | error e => rfl
    | ok call => exact (decodeSixel_images hdecode).2

theorem parserStateOrSizeError_images (state : ParserState) :
    (g.parserStateOrSizeError state).1.kittyImages = g.kittyImages := by
  unfold parserStateOrSizeError
  split <;> rfl

theorem advanceByte_images (hno : ∀ data, ¬CompletesKitty g input data)
    (hstep : g.advanceByte D input.files input.cursor input.byte = some (g', out)) :
    g'.kittyImages = g.kittyImages := by
  have hcall {call : GraphicsIngress × GraphicsAdvance} (heq : some call = some (g', out)) :
      g'.kittyImages = call.1.kittyImages := by
    cases heq
    rfl
  unfold advanceByte at hstep
  dsimp only at hstep
  split at hstep
  · split at hstep <;> exact hcall hstep
  · split_ifs at hstep <;> exact hcall hstep
  · split_ifs at hstep
    · exact (hcall hstep).trans (dispatchOsc_images _ _ _)
    · exact hcall hstep
    · exact (hcall hstep).trans (parserStateOrSizeError_images _)
  · split_ifs at hstep
    · exact (hcall hstep).trans (dispatchOsc_images _ _ _)
    · exact hcall hstep
  · split_ifs at hstep
    · exact hcall hstep
    · exact (hcall hstep).trans (parserStateOrSizeError_images _)
  · split_ifs at hstep
    · exact (hcall hstep).trans (dispatchDcs_images _ _ _)
    · exact (hcall hstep).trans (parserStateOrSizeError_images _)
  · split_ifs at hstep
    · exact hcall hstep
    · exact (hcall hstep).trans (parserStateOrSizeError_images _)
  · next data hstate =>
      split_ifs at hstep with hbyte
      · unfold dispatchApc at hstep
        split at hstep
        · exact hcall hstep
        · next hcaptured =>
            obtain ⟨hoption, hfront⟩ :
                g.options.kitty = true ∧ ([0x47] : List UInt8).isPrefixOf data = true := by
              simpa using hcaptured
            exact absurd ⟨hstate, hbyte, hoption, hfront⟩ (hno data)
      · exact (hcall hstep).trans (parserStateOrSizeError_images _)

theorem failed_byte_iff
    (hstep : g.advanceByte D input.files input.cursor input.byte = some (g', out))
    (herror : ∃ text, .error text ∈ out.events) :
    (∀ id, g'.kittyImages.lookup id = g.kittyImages.lookup id) ↔
      ∀ data, CompletesKitty g input data → LeavesImages D g input data := by
  by_cases hcommand : ∃ data, CompletesKitty g input data
  · obtain ⟨data, hcommand⟩ := hcommand
    rw [failed_command_iff hcommand hstep herror]
    constructor
    · intro hleaves data' hcommand'
      cases hcommand.state.symm.trans hcommand'.state
      exact hleaves
    · exact fun hall => hall data hcommand
  · refine iff_of_true (fun id => ?_) fun data hdata => absurd ⟨data, hdata⟩ hcommand
    rw [advanceByte_images (not_exists.mp hcommand) hstep]

end GraphicsIngress

/-! ## 2. The current frame -/

namespace TerminalImageData

/-- **The current frame is one of the frames**; an image without frames is at its first. -/
def Played (image : TerminalImageData) : Prop :=
  image.animation.currentFrame < max image.frames.length 1

theorem Played.lt (h : image.Played) (hframes : image.frames ≠ []) :
    image.animation.currentFrame < image.frames.length := by
  have hlength := List.length_pos_iff.mpr hframes
  unfold Played at h
  omega

end TerminalImageData

theorem ensureKittyAnimationRoot_played (h : image.Played) :
    (ensureKittyAnimationRoot image).Played := by
  unfold ensureKittyAnimationRoot
  split
  · next hempty =>
      rw [TerminalImageData.Played, hempty] at h
      exact h
  · exact h

theorem controlKittyAnimation_played (h : image.Played) :
    (controlKittyAnimation params image).1.Played := by
  have hplay (image : TerminalImageData) (h : image.Played) :
      (controlKittyAnimation.play params image).1.Played := by
    have hframes (gap : Option (UInt32 × Bool)) (index : Nat) :
        image.animation.currentFrame <
          max (image.frames.modify index (·.paced gap)).length 1 := by
      rw [List.length_modify]
      exact h
    unfold controlKittyAnimation.play
    dsimp only
    split <;> exact hframes _ _
  unfold controlKittyAnimation
  split
  · next frame _ =>
      split
      · exact h
      · next hlength =>
          refine hplay _ ?_
          show frame < max image.frames.length 1
          omega
  · exact hplay image h

theorem composeKittyAnimationFrame_played (h : image.Played)
    (hcompose : composeKittyAnimationFrame params image = .ok changed) : changed.Played := by
  obtain ⟨sourceFrame, -, hcompose⟩ := Outcome.bind_eq_ok hcompose
  obtain ⟨destFrame, -, hcompose⟩ := Outcome.bind_eq_ok hcompose
  obtain ⟨source, -, hcompose⟩ := Outcome.bind_eq_ok hcompose
  obtain ⟨dest, -, hcompose⟩ := Outcome.bind_eq_ok hcompose
  simp only at hcompose
  split at hcompose
  · cases hcompose
  · obtain ⟨sourceRect, -, hcompose⟩ := Outcome.bind_eq_ok hcompose
    obtain ⟨destRgba, -, hcompose⟩ := Outcome.bind_eq_ok hcompose
    cases hcompose
    unfold TerminalImageData.Played
    rw [List.length_modify]
    exact h

theorem addKittyAnimationFrame_played {decoded : DecodedPixels}
    (hadd : addKittyAnimationFrame params decoded image = .ok changed) : changed.Played := by
  obtain ⟨canvas, -, hadd⟩ := Outcome.bind_eq_ok hadd
  simp only at hadd
  split at hadd
  · cases hadd
  · obtain ⟨blended, -, hadd⟩ := Outcome.bind_eq_ok hadd
    cases hadd
    unfold storeFrame TerminalImageData.Played
    generalize storedFrames _ _ _ _ = stored
    dsimp only
    omega

namespace GraphicsIngress

theorem Edits.played {id : UInt64} (h : image.Played)
    (hedits : Edits D g input id (ensureKittyAnimationRoot image) changed) : changed.Played := by
  have hroot := ensureKittyAnimationRoot_played h
  cases hedits with
  | refused => exact hroot
  | control params => exact controlKittyAnimation_played hroot
  | compose hcompose => exact composeKittyAnimationFrame_played hroot hcompose
  | frame _ _ _ hadd => exact addKittyAnimationFrame_played hadd

/-- The stored images are all at one of their frames. -/
def Played (g : GraphicsIngress) : Prop :=
  ∀ id image, g.kittyImages.lookup id = some image → image.Played

theorem Played.insert (h : g.Played) {id : UInt64}
    (himage : image.Played) (hinsert : g'.kittyImages = g.kittyImages.insert id image) :
    g'.Played := by
  intro other stored hlookup
  rw [hinsert, Map.lookup_insert_eq] at hlookup
  split at hlookup
  · cases hlookup
    exact himage
  · exact h other stored hlookup

theorem Played.advanceByte (h : g.Played)
    (hstep : g.advanceByte D input.files input.cursor input.byte = some (g', out)) : g'.Played := by
  have himages := (advanceByte_step hstep).2
  generalize imagesOf out.events = shown at himages
  cases himages with
  | kept hkept => exact fun id image hlookup => h id image (hkept id image hlookup)
  | iterm2 _ _ hsame => exact fun id image hlookup => h id image (hsame ▸ hlookup)
  | sixel _ _ hsame => exact fun id image hlookup => h id image (hsame ▸ hlookup)
  | stored _ _ hinsert => exact h.insert (lt_max_of_lt_right Nat.one_pos) hinsert
  | edited hlookup hedits hinsert => exact h.insert (hedits.played (h _ _ hlookup)) hinsert

theorem Played.advanceLoop (h : g.Played) {inputs : List Input} {result : GraphicsAdvance}
    (hloop : g.advanceLoop D result inputs = some (g', out)) : g'.Played := by
  induction inputs generalizing g result with
  | nil =>
    cases hloop
    exact h
  | cons input inputs ih =>
    rw [GraphicsIngress.advanceLoop] at hloop
    split at hloop
    · cases hloop
    · next next produced hstep => exact ih (h.advanceByte hstep) hloop

theorem Played.advanceChunks (h : g.Played) {chunks : List (List Input)}
    (hrun : g.advanceChunks D chunks = some (g', out)) : g'.Played := by
  by_cases henabled : g.options.enabled = true
  · rw [advanceChunks_enabled henabled] at hrun
    exact h.advanceLoop hrun
  · rw [advanceChunks_disabled D (by simpa using henabled)] at hrun
    cases hrun
    exact h

/-- **FAILED COMMANDS AND CURRENT FRAMES.** When a failed command leaves the stored images; and in
    every run the current frame of every animated image is one of its frames. -/
theorem error_atomicity (D : Decoders) :
    (∀ (g g' : GraphicsIngress) (input : Input) (out : GraphicsAdvance),
      g.advanceByte D input.files input.cursor input.byte = some (g', out) →
        (∃ text, .error text ∈ out.events) →
        ((∀ id, g'.kittyImages.lookup id = g.kittyImages.lookup id) ↔
          ∀ data, CompletesKitty g input data → LeavesImages D g input data)) ∧
      ∀ (o : GraphicsOptions) (chunks : List (List Input)) (g : GraphicsIngress)
        (out : GraphicsAdvance), (new o).advanceChunks D chunks = some (g, out) →
          ∀ id image, g.kittyImages.lookup id = some image → image.frames ≠ [] →
            image.animation.currentFrame < image.frames.length := by
  refine ⟨fun g g' input out hstep herror => failed_byte_iff hstep herror, ?_⟩
  intro o chunks g out hrun id image hlookup hframes
  have hnew : (new o).Played := fun id image hlookup => by cases hlookup
  exact (hnew.advanceChunks hrun id image hlookup).lt hframes

/-- A picture of one pixel, a second frame for it, and a command that chooses that frame and names a
    state that there is not: `ESC _Ga=a,i=5,c=2,s=9 ESC`. -/
def chosenFrame : List Input :=
  (plainCommand "a=T,f=32,i=5,s=1,v=1" "AAAAAA==").inputs ++
    (plainCommand "a=f,f=32,i=5,s=1,v=1" "AAAAAA==").inputs ++
    ([esc, 0x5f] ++ asBytes "Ga=a,i=5,c=2,s=9".toList ++ [esc]).map plainInput

theorem chosenFrame_fails :
    ∃ g produced g' out image image', (new {}).advance noImages chosenFrame = some (g, produced) ∧
      g.advanceByte noImages (plainInput backslash).files (plainInput backslash).cursor backslash =
        some (g', out) ∧ (∃ text, .error text ∈ out.events) ∧
      g.kittyImages.lookup 5 = some image ∧ g'.kittyImages.lookup 5 = some image' ∧
      image.frames.length = 2 ∧ image.animation.currentFrame = 0 ∧
      image'.animation.currentFrame = 1 := by
  have hevaluated : (((new {}).advance noImages chosenFrame).bind fun call =>
      (call.1.advanceByte noImages (plainInput backslash).files (plainInput backslash).cursor
        backslash).map fun next =>
          (call.1.kittyImages.lookup 5, next.1.kittyImages.lookup 5, next.2.events)).map
      (fun found => (found.1.map fun image => (image.frames.length, image.animation.currentFrame),
        found.2.1.map fun image => image.animation.currentFrame, found.2.2)) =
      some (some (2, 0), some 1, [.error GraphicsError.unsupportedImage.text]) := by
    decide
  obtain ⟨⟨before, behind, events⟩, hfound, heq⟩ := Option.map_eq_some_iff.mp hevaluated
  obtain ⟨⟨g, produced⟩, hrun, hfound⟩ := Option.bind_eq_some_iff.mp hfound
  obtain ⟨⟨g', out⟩, hstep, hnext⟩ := Option.map_eq_some_iff.mp hfound
  cases hnext
  simp only [Prod.mk.injEq, Option.map_eq_some_iff] at heq
  obtain ⟨⟨image, hlookup, hlength, hcurrent⟩, ⟨image', hlookup', hcurrent'⟩, hevents⟩ := heq
  exact ⟨g, produced, g', out, image, image', hrun, hstep,
    ⟨_, hevents ▸ List.mem_cons_self⟩, hlookup, hlookup', hlength, hcurrent, hcurrent'⟩

/-- The command finds another frame than it chooses, and the current frame is one of two. -/
theorem error_atomicity_chosen_frame :
    ∃ g produced image, (new {}).advance noImages chosenFrame = some (g, produced) ∧
      ¬(∀ data, CompletesKitty g (plainInput backslash) data →
        LeavesImages noImages g (plainInput backslash) data) ∧
      g.kittyImages.lookup 5 = some image ∧
      image.animation.currentFrame < image.frames.length := by
  obtain ⟨g, produced, g', out, image, image', hrun, hstep, herror, hlookup, hlookup', hlength,
    hcurrent, hcurrent'⟩ := chosenFrame_fails
  obtain ⟨hfailed, hplayed⟩ := error_atomicity noImages
  refine ⟨g, produced, image, hrun, fun hleaves => ?_, hlookup, ?_⟩
  · have hsame := (hfailed g g' (plainInput backslash) out hstep herror).mpr hleaves 5
    rw [hlookup, hlookup'] at hsame
    cases hsame
    omega
  · have hchunks : (new {}).advanceChunks noImages [chosenFrame] = some (g, produced) := by
      rw [advanceChunks, hrun]
      exact congrArg (fun out => some (g, out)) (GraphicsAdvance.append_empty produced)
    refine hplayed {} [chosenFrame] g produced hchunks 5 image hlookup fun hempty => ?_
    rw [hempty] at hlength
    cases hlength

/-- **A command that fails chooses the frame all the same.** -/
theorem failed_command_chooses :
    ¬∀ (D : Decoders) (g g' : GraphicsIngress) (input : Input) (out : GraphicsAdvance),
      g.advanceByte D input.files input.cursor input.byte = some (g', out) →
        (∃ text, .error text ∈ out.events) →
          ∀ id, g'.kittyImages.lookup id = g.kittyImages.lookup id := by
  intro h
  obtain ⟨g, -, g', out, image, image', -, hstep, herror, hlookup, hlookup', -, hcurrent,
    hcurrent'⟩ := chosenFrame_fails
  have hsame := h noImages g g' (plainInput backslash) out hstep herror 5
  rw [hlookup, hlookup'] at hsame
  cases hsame
  omega

end GraphicsIngress

end Hapcli.Graphics

/-
  Subject:   `GraphicsIngress`: the byte machine in front of the terminal that takes the image
             protocols (iTerm2, sixel, kitty) out of the output and passes on everything else.

  Every byte comes with the cursor at that moment and with the files that a kitty upload may name.
  `none` is a panic. What an error leaves changed (the chunks of an upload, the root frame of an
  animation) stays changed.

  * **`advanceOrdered_eq`** -- the ordered segments carry the same bytes and the same events.
-/
import Hapcli.Graphics.Canvas
import Hapcli.Graphics.Placement
import Hapcli.Terminal.OscFraming

namespace Hapcli.Graphics

open Hapcli.Rust
open Hapcli.Terminal (bel esc backslash bracket)

/-! ## 1. Images -/

structure TerminalImageFrame where
  rgba : List UInt8
  delayMsNumerator : UInt32
  delayMsDenominator : UInt32
  gapless : Bool
  deriving DecidableEq

structure TerminalImageAnimationState where
  running : Bool := false
  loading : Bool := false
  currentFrame : Nat := 0
  loopLimit : Option UInt32 := none
  deriving DecidableEq

structure TerminalImageData where
  id : UInt64
  protocol : TerminalImageProtocol
  version : UInt64
  width : UInt32
  height : UInt32
  rgba : List UInt8
  frames : List TerminalImageFrame
  animation : TerminalImageAnimationState
  name : Option Str
  deriving DecidableEq

inductive TerminalGraphicsEvent where
  | imageReady (image : TerminalImageData)
  | imageUpdated (image : TerminalImageData)
  | place (placement : TerminalImagePlacement)
  | delete (id : Option UInt64)
  | respond (bytes : List UInt8)
  | error (text : Str)
  deriving DecidableEq

def terminalImageDataFromDecoded (id : UInt64) (protocol : TerminalImageProtocol)
    (decoded : DecodedPixels) (name : Option Str) : TerminalImageData :=
  let frames : List TerminalImageFrame := decoded.frames.map fun frame =>
    { rgba := frame.rgba, delayMsNumerator := frame.delayMsNumerator
      delayMsDenominator := frame.delayMsDenominator, gapless := false }
  { id, protocol, version := 0, width := decoded.width, height := decoded.height
    rgba := decoded.rgba, frames, animation := { running := !frames.isEmpty }, name }

def ensureKittyAnimationRoot (image : TerminalImageData) : TerminalImageData :=
  if image.frames = [] then
    { image with frames := [{ rgba := image.rgba, delayMsNumerator := 0, delayMsDenominator := 1
                              gapless := true }] }
  else image

/-! ## 2. Animation commands -/

variable (params : Params)

/-- The canvas that `add_kitty_animation_frame` draws on: the frame it replaces, the frame it
    builds on, one color, or nothing. -/
def frameCanvas (image : TerminalImageData) (targetFrame : Option Nat) : Outcome (List UInt8) :=
  match targetFrame, parseKittyFrameIndex (params.get 'c'),
    parseKittyRgbaColor (params.get 'Y') with
  | some index, _, _ => Outcome.okOr (image.frames[index]?.map (·.rgba)) .unsupportedImage
  | none, some index, _ => Outcome.okOr (image.frames[index]?.map (·.rgba)) .unsupportedImage
  | none, none, some color => filledRgbaCanvas image.width image.height color
  | none, none, none => emptyCanvas image.width image.height

/-- The delay and the gaplessness of a frame, where the command names them. -/
def TerminalImageFrame.paced (frame : TerminalImageFrame) (gap : Option (UInt32 × Bool)) :
    TerminalImageFrame :=
  match gap with
  | some (delayMs, gapless) =>
    { frame with delayMsNumerator := delayMs, delayMsDenominator := 1, gapless }
  | none => frame

/-- The canvas becomes the frame `targetFrame`, or a new last frame: its index, and the frames. -/
def storedFrames (frames : List TerminalImageFrame) (targetFrame : Option Nat)
    (canvas : List UInt8) : Nat × List TerminalImageFrame :=
  let gap := parseKittyFrameGap (params.get 'z')
  match targetFrame with
  | some index =>
    (index, frames.modify index fun frame => { frame with rgba := canvas }.paced gap)
  | none =>
    (frames.length, frames ++ [{ rgba := canvas, delayMsNumerator := (gap.getD (40, false)).1
                                 delayMsDenominator := 1, gapless := (gap.getD (40, false)).2 }])

/-- The end of `add_kitty_animation_frame`: the first frame is the picture itself. -/
def storeFrame (image : TerminalImageData) (targetFrame : Option Nat)
    (canvas : List UInt8) : TerminalImageData :=
  let stored := storedFrames params image.frames targetFrame canvas
  { image with
    frames := stored.2
    rgba := if stored.1 = 0 then (stored.2.head?.map (·.rgba)).getD image.rgba else image.rgba
    animation := { image.animation with
      currentFrame := min image.animation.currentFrame (stored.2.length - 1) } }

/-- `add_kitty_animation_frame`, on an image with its root frame. -/
def addKittyAnimationFrame (decoded : DecodedPixels)
    (image : TerminalImageData) : Outcome TerminalImageData := do
  let targetFrame := parseKittyFrameIndex (params.get 'r')
  let canvas ← frameCanvas params image targetFrame
  let destX := (parseU32 (params.get 'x')).getD 0
  let destY := (parseU32 (params.get 'y')).getD 0
  if saturatingAdd destX decoded.width > image.width.toNat ∨
      saturatingAdd destY decoded.height > image.height.toNat then
    Outcome.error .unsupportedImage
  else
    let canvas ← blendProtocolRgbaRect canvas image.width decoded.rgba decoded.width decoded.height
      destX destY (params.isOne 'X')
    Outcome.ok (storeFrame params image targetFrame canvas)

/-- `control_kitty_animation`, on an image with its root frame: the image as it is left, and the
    error where there is one. -/
def controlKittyAnimation (image : TerminalImageData) : TerminalImageData × Option GraphicsError :=
  match parseKittyFrameIndex (params.get 'c') with
  | some currentFrame =>
    if image.frames.length ≤ currentFrame then (image, some .unsupportedImage)
    else play { image with animation := { image.animation with currentFrame, running := false } }
  | none => play image
where
  /-- The delay of a frame, then the state and the loop limit. -/
  play (image : TerminalImageData) : TerminalImageData × Option GraphicsError :=
    let gap := parseKittyFrameGap (params.get 'z')
    let frameIndex :=
      min ((parseKittyFrameIndex (params.get 'r')).getD image.animation.currentFrame)
        (image.frames.length - 1)
    let image := { image with frames := image.frames.modify frameIndex (·.paced gap) }
    match parseU32 (params.get 's'), kittyLoopLimit (params.get 'v') with
    | some 1, _ =>
      ({ image with animation := { image.animation with running := false, loading := false } },
        none)
    | some 2, _ =>
      ({ image with animation := { image.animation with
          running := true, loading := true, loopLimit := some 1 } }, none)
    | some 3, loopLimit =>
      ({ image with animation := { image.animation with
          running := true, loading := false, loopLimit } }, none)
    | some _, _ => (image, some .unsupportedImage)
    | none, some loopLimit =>
      ({ image with animation := { image.animation with loopLimit := some loopLimit } }, none)
    | none, none => (image, none)

def rectsOverlap (ax ay bx bTop width height : UInt32) : Bool :=
  ax.toNat < saturatingAdd bx width && bx.toNat < saturatingAdd ax width &&
    ay.toNat < saturatingAdd bTop height && bTop.toNat < saturatingAdd ay height

/-- `compose_kitty_animation_frame`, on an image with its root frame. -/
def composeKittyAnimationFrame (image : TerminalImageData) : Outcome TerminalImageData := do
  let sourceFrame ← Outcome.okOr (parseKittyFrameIndex (params.get 'r')) .unsupportedImage
  let destFrame ← Outcome.okOr (parseKittyFrameIndex (params.get 'c')) .unsupportedImage
  let source ← Outcome.okOr image.frames[sourceFrame]? .unsupportedImage
  let dest ← Outcome.okOr image.frames[destFrame]? .unsupportedImage
  let width := ((parseU32 (params.get 'w')).filter (0 < ·)).getD image.width
  let height := ((parseU32 (params.get 'h')).filter (0 < ·)).getD image.height
  let sourceX := (parseU32 (params.get 'x')).getD 0
  let sourceY := (parseU32 (params.get 'y')).getD 0
  let destX := (parseU32 (params.get 'X')).getD 0
  let destY := (parseU32 (params.get 'Y')).getD 0
  if saturatingAdd sourceX width > image.width.toNat ∨
      saturatingAdd sourceY height > image.height.toNat ∨
      saturatingAdd destX width > image.width.toNat ∨
      saturatingAdd destY height > image.height.toNat ∨
      (sourceFrame = destFrame ∧ rectsOverlap sourceX sourceY destX destY width height) then
    Outcome.error .unsupportedImage
  else
    let sourceRect ← copyProtocolRgbaRect source.rgba image.width sourceX sourceY width height
    let destRgba ← blendProtocolRgbaRect dest.rgba image.width sourceRect width height destX destY
      (params.isOne 'C')
    Outcome.ok { image with
      frames := image.frames.modify destFrame fun frame => { frame with rgba := destRgba }
      rgba := if destFrame = 0 then destRgba else image.rgba }

/-- A command that changes the image only where it succeeds. -/
def changes (command : TerminalImageData → Outcome TerminalImageData) (image : TerminalImageData) :
    Option (TerminalImageData × Option GraphicsError) :=
  match command image with
  | none => none
  | some (.error e) => some (image, some e)
  | some (.ok changed) => some (changed, none)

/-! ## 3. The ingress -/

inductive ParserState where
  | ground
  | esc
  | osc (data : List UInt8)
  | oscEsc (data : List UInt8)
  | dcs (data : List UInt8)
  | dcsEsc (data : List UInt8)
  | apc (data : List UInt8)
  | apcEsc (data : List UInt8)
  deriving DecidableEq

def parserStateLen : ParserState → Nat
  | .osc data | .oscEsc data | .dcs data | .dcsEsc data | .apc data | .apcEsc data => data.length
  | .ground | .esc => 0

structure KittyChunkAssembly where
  params : Params
  encoded : List UInt8

structure GraphicsIngress where
  options : GraphicsOptions
  state : ParserState
  nextImageId : UInt64
  kittyChunks : AList fun _ : UInt64 => KittyChunkAssembly
  kittyImages : AList fun _ : UInt64 => TerminalImageData

structure GraphicsAdvance where
  terminalBytes : List UInt8 := []
  events : List TerminalGraphicsEvent := []
  deriving DecidableEq

namespace GraphicsAdvance

/-- What was produced before and then now. -/
def append (a b : GraphicsAdvance) : GraphicsAdvance :=
  ⟨a.terminalBytes ++ b.terminalBytes, a.events ++ b.events⟩

/-- Bytes for the terminal. -/
def output (bytes : List UInt8) : GraphicsAdvance := { terminalBytes := bytes }

/-- One event. -/
def event (e : TerminalGraphicsEvent) : GraphicsAdvance := { events := [e] }

/-- `TerminalGraphicsEvent::Error`. -/
def failure (e : GraphicsError) : GraphicsAdvance := event (.error e.text)

end GraphicsAdvance

/-- What is produced, or a panic. -/
abbrev Produced := Option (GraphicsIngress × GraphicsAdvance)

/-- The front of an iTerm2 image: `1337;File=`. -/
def iterm2Front : List UInt8 := [0x31, 0x33, 0x33, 0x37, 0x3b, 0x46, 0x69, 0x6c, 0x65, 0x3d]

inductive KittyDecodeResult where
  | image (image : TerminalImageData) (placement : Option TerminalImagePlacement)
      (advance : List UInt8)
  | imageUpdated (image : TerminalImageData)
  | placement (placement : TerminalImagePlacement) (advance : List UInt8)

namespace GraphicsIngress

def new (options : GraphicsOptions) : GraphicsIngress :=
  { options, state := .ground, nextImageId := 1, kittyChunks := ∅, kittyImages := ∅ }

variable (D : Decoders) (files : Files) (g : GraphicsIngress) (cursor : GraphicsCursor)

variable (params : Params)

/-- The size that an iTerm2 command gives its picture. -/
def iterm2Size (width height : UInt32) : UInt32 × UInt32 :=
  (((params.lookup "width".toList).bind (parsePixelSize · width)).getD width,
    ((params.lookup "height".toList).bind (parsePixelSize · height)).getD height)

variable (data : List UInt8)

def decodeIterm2 : Except GraphicsError
    (GraphicsIngress × TerminalImageData × TerminalImagePlacement × List UInt8) :=
  match data.idxOf? 0x3a with
  | none => .error .unsupportedImage
  | some separator =>
    let params := parseSemicolonParams (data.take separator)
    match base64DecodeBytes (data.drop (separator + 1)) with
    | none => .error .invalidBase64
    | some payload => do
        enforceStorageLimit payload.length g.options.storageLimitMb
        let name := ((params.lookup "name".toList).bind base64Decode).bind fun bytes =>
          (fromUtf8 bytes).toOption
        let decoded ← decodeImageBytes D payload g.options.pixelLimit
        let size := iterm2Size params decoded.width decoded.height
        let image := terminalImageDataFromDecoded g.nextImageId .iterm2 decoded name
        let image := { image with width := size.1, height := size.2 }
        let doNotMove := (params.lookup "doNotMoveCursor".toList).any fun value =>
          value = ['1'] || value.map Char.toLower = "true".toList
        let (placement, advance) := placementForImage g.options image.id image.protocol
          image.width image.height cursor (wholeImage (!doNotMove) image.width image.height)
        return ({ g with nextImageId := g.nextImageId + 1 }, image, placement, advance)

def decodeSixel (sequence : List UInt8) : Except GraphicsError
    (GraphicsIngress × TerminalImageData × TerminalImagePlacement × List UInt8) := do
  enforceStorageLimit sequence.length g.options.storageLimitMb
  match D.sixel sequence with
  | .error text => .error (.decode text)
  | .ok decoded => do
      let width := UInt32.ofNat decoded.width
      let height := UInt32.ofNat decoded.height
      enforcePixelLimit width height g.options.pixelLimit
      let image : TerminalImageData :=
        { id := g.nextImageId, protocol := .sixel, version := 0, width, height
          rgba := decoded.pixels.bytes, frames := [], animation := {}, name := none }
      let (placement, advance) := placementForImage g.options image.id image.protocol width height
        cursor (wholeImage true width height)
      return ({ g with nextImageId := g.nextImageId + 1 }, image, placement, advance)

def kittyImageId : Option UInt64 := (params.get 'i').bind toId

def placeKittyImage : Except GraphicsError (TerminalImagePlacement × List UInt8) :=
  match kittyImageId params with
  | none => .error .unsupportedImage
  | some imageId =>
    match g.kittyImages.lookup imageId with
    | none => .error .unsupportedImage
    | some image =>
      .ok (placementForImage g.options imageId .kitty image.width image.height cursor
        (kittyPlacementOptions params image.width image.height cursor))

/-- The image that the command names, with its root frame, is changed where it stands. -/
def editKittyImage (edit : TerminalImageData → Option (TerminalImageData × Option GraphicsError)) :
    Option (GraphicsIngress × Except GraphicsError TerminalImageData) :=
  match kittyImageId params with
  | none => some (g, .error .unsupportedImage)
  | some imageId =>
    match g.kittyImages.lookup imageId with
    | none => some (g, .error .unsupportedImage)
    | some image =>
      (edit (ensureKittyAnimationRoot image)).map fun (image, failure) =>
        ({ g with kittyImages := g.kittyImages.insert imageId image },
          match failure with
          | some e => .error e
          | none => .ok image)

/-- The pixels of a complete kitty upload. -/
def kittyPixels (encoded : List UInt8) : Outcome DecodedPixels := do
  let complete ← Outcome.ofExcept
    (decodeKittyPayload files params encoded g.options.storageLimitMb)
  if params.get 'f' = some ['2', '4'] then decodeRawRgb complete params
  else if params.get 'f' = some ['3', '2'] then decodeRawRgba complete params
  else Outcome.ofExcept (decodeImageBytes D complete g.options.pixelLimit)

/-- The end of `decode_kitty` for a new image. -/
def storeKittyImage (explicitId : UInt64) (params : Params) (action : Str)
    (decoded : DecodedPixels) : GraphicsIngress × KittyDecodeResult :=
  let image := terminalImageDataFromDecoded explicitId .kitty decoded none
  let g := { g with
    nextImageId := max g.nextImageId (explicitId + 1)
    kittyImages := g.kittyImages.insert explicitId image }
  if action = ['t'] then (g, .image image none [])
  else
    let (placement, advance) := placementForImage g.options image.id image.protocol image.width
      image.height cursor (kittyPlacementOptions params image.width image.height cursor)
    (g, .image image (some placement) advance)

/-- `decode_kitty`, once all chunks are there. -/
def finishKittyUpload (explicitId : UInt64) (assembly : KittyChunkAssembly) :
    Option (GraphicsIngress × Except GraphicsError (Option KittyDecodeResult)) :=
  let params := assembly.params
  let action := (params.get 'a').getD ['t']
  if action ≠ ['t'] ∧ action ≠ ['T'] ∧ action ≠ ['f'] then some (g, .error .unsupportedImage)
  else
    match g.kittyPixels D files params assembly.encoded with
    | none => none
    | some (.error e) => some (g, .error e)
    | some (.ok decoded) =>
      if action = ['f'] then
        (g.editKittyImage params (changes (addKittyAnimationFrame params decoded))).map
          fun (g, result) => (g, result.map fun image => some (.imageUpdated image))
      else
        let (g, result) := g.storeKittyImage cursor explicitId params action decoded
        some (g, .ok (some result))

/-- The image id of an upload: the one it names, that of the only upload under way, or the next. -/
def explicitId : UInt64 :=
  ((params.get 'i').bind toId).getD
    (if g.kittyChunks.keys.length = 1 then g.kittyChunks.keys.headD g.nextImageId
     else g.nextImageId)

/-- The chunks so far and this one; its parameters replace the earlier ones. -/
def assemble (explicitId : UInt64) (params : Params) (payload : List UInt8) : KittyChunkAssembly :=
  let assembly := (g.kittyChunks.lookup explicitId).getD ⟨params, []⟩
  ⟨params ∪ assembly.params, assembly.encoded ++ payload⟩

def decodeKitty : Option (GraphicsIngress × Except GraphicsError (Option KittyDecodeResult)) :=
  match parseKittyParamsAndPayload data with
  | none => some (g, .ok none)
  | some (params, payload) =>
    let commandAction := (params.get 'a').getD ['t']
    if commandAction = ['d'] ∨ commandAction = ['q'] then some (g, .ok none)
    else if commandAction = ['p'] then
      some (g, (g.placeKittyImage cursor params).map fun (placement, advance) =>
        some (.placement placement advance))
    else
      let explicitId := g.explicitId params
      let assembly := g.assemble explicitId params payload
      let g := { g with kittyChunks := g.kittyChunks.erase explicitId }
      if encodedStorageLimit g.options.storageLimitMb < assembly.encoded.length then
        some (g, .error .storageLimitExceeded)
      else if params.isOne 'm' then
        some ({ g with kittyChunks := g.kittyChunks.insert explicitId assembly }, .ok none)
      else g.finishKittyUpload D files cursor explicitId assembly

/-! ## 4. Complete control strings -/

/-- An image and its placement, or the error. -/
def placed (result : Except GraphicsError
    (GraphicsIngress × TerminalImageData × TerminalImagePlacement × List UInt8)) :
    GraphicsIngress × GraphicsAdvance :=
  match result with
  | .ok (g, image, placement, advance) => (g, ⟨advance, [.imageReady image, .place placement]⟩)
  | .error e => (g, .failure e)

def dispatchOsc : GraphicsIngress × GraphicsAdvance :=
  if !g.options.iterm2Inline || !iterm2Front.isPrefixOf data then
    (g, .output ([esc, bracket] ++ data ++ [bel]))
  else g.placed (g.decodeIterm2 D cursor (data.drop iterm2Front.length))

def dispatchDcs : GraphicsIngress × GraphicsAdvance :=
  let sequence := [esc, 0x50] ++ data ++ [esc, backslash]
  if !g.options.sixel || !looksLikeSixel data then (g, .output sequence)
  else g.placed (g.decodeSixel D cursor sequence)

def kittyQueryResponse (id : UInt64) : List UInt8 :=
  asBytes (['\x1b', '_', 'G', 'i', '='] ++ numToString id.toNat ++ [';', 'O', 'K', '\x1b', '\\'])

/-- The event of an animation command. -/
def updated (call : GraphicsIngress × Except GraphicsError TerminalImageData) :
    GraphicsIngress × GraphicsAdvance :=
  match call with
  | (g, .ok image) => (g, .event (.imageUpdated image))
  | (g, .error e) => (g, .failure e)

/-- The end of `dispatch_apc`: what an upload produces. -/
def uploaded (call : GraphicsIngress × Except GraphicsError (Option KittyDecodeResult)) :
    GraphicsIngress × GraphicsAdvance :=
  match call with
  | (g, .ok (some (.image image placement advance))) =>
    (g, ⟨advance, .imageReady image :: (placement.map TerminalGraphicsEvent.place).toList⟩)
  | (g, .ok (some (.imageUpdated image))) => (g, .event (.imageUpdated image))
  | (g, .ok (some (.placement placement advance))) => (g, ⟨advance, [.place placement]⟩)
  | (g, .ok none) => (g, {})
  | (g, .error e) => (g, .failure e)

def dispatchApc : Produced :=
  if !g.options.kitty || !([0x47] : List UInt8).isPrefixOf data then
    some (g, .output ([esc, 0x5f] ++ data ++ [esc, backslash]))
  else
    let (params, payload) := parseKittyCommand (data.drop 1)
    let action := (params.get 'a').getD ['t']
    if action = ['d'] then
      let kittyImages := match kittyImageId params with
        | some id => g.kittyImages.erase id
        | none => ∅
      some ({ g with kittyImages }, .event (.delete (kittyImageId params)))
    else if action = ['q'] then
      some (g, .event (.respond (kittyQueryResponse ((kittyImageId params).getD 0))))
    else if action = ['p'] then
      match g.placeKittyImage cursor params with
      | .ok (placement, advance) => some (g, ⟨advance, [.place placement]⟩)
      | .error e => some (g, .failure e)
    else if action = ['a'] then
      (g.editKittyImage params fun image => some (controlKittyAnimation params image)).map updated
    else if action = ['c'] then
      (g.editKittyImage params (changes (composeKittyAnimationFrame params))).map updated
    else if payload = none then some (g, {})
    else (g.decodeKitty D files cursor (data.drop 1)).map uploaded

/-! ## 5. The byte machine -/

def parserStateOrSizeError (state : ParserState) : GraphicsIngress × GraphicsAdvance :=
  if parserStateLen state ≤ encodedStorageLimit g.options.storageLimitMb then
    ({ g with state }, {})
  else ({ g with state := .ground }, .failure .storageLimitExceeded)

def advanceByte (byte : UInt8) : Produced :=
  let ground := { g with state := .ground }
  match g.state with
  | .ground =>
    if byte = esc then some ({ g with state := .esc }, {}) else some (g, .output [byte])
  | .esc =>
    if byte = bracket then some ({ g with state := .osc [] }, {})
    else if byte = 0x50 then some ({ g with state := .dcs [] }, {})
    else if byte = 0x5f then some ({ g with state := .apc [] }, {})
    else some (ground, .output [esc, byte])
  | .osc data =>
    if byte = bel then some (ground.dispatchOsc D cursor data)
    else if byte = esc then some ({ g with state := .oscEsc data }, {})
    else some (g.parserStateOrSizeError (.osc (data ++ [byte])))
  | .oscEsc data =>
    if byte = backslash then some (ground.dispatchOsc D cursor data)
    else some (ground, .output ([esc, bracket] ++ data ++ [esc, byte]))
  | .dcs data =>
    if byte = esc then some ({ g with state := .dcsEsc data }, {})
    else some (g.parserStateOrSizeError (.dcs (data ++ [byte])))
  | .dcsEsc data =>
    if byte = backslash then some (ground.dispatchDcs D cursor data)
    else some (g.parserStateOrSizeError (.dcs (data ++ [esc, byte])))
  | .apc data =>
    if byte = esc then some ({ g with state := .apcEsc data }, {})
    else some (g.parserStateOrSizeError (.apc (data ++ [byte])))
  | .apcEsc data =>
    if byte = backslash then ground.dispatchApc D files cursor data
    else some (g.parserStateOrSizeError (.apc (data ++ [esc, byte])))

end GraphicsIngress

/-- A byte of the output, the cursor it finds, and the files at that moment. -/
structure Input where
  byte : UInt8
  cursor : GraphicsCursor
  files : Files

namespace GraphicsIngress

variable (D : Decoders)

/-- The loop of `advance`; what was produced before stands in front. -/
@[grind] def advanceLoop (g : GraphicsIngress) (result : GraphicsAdvance) : List Input → Produced
  | [] => some (g, result)
  | input :: inputs =>
    match g.advanceByte D input.files input.cursor input.byte with
    | none => none
    | some (g, produced) => advanceLoop g (result.append produced) inputs

/-- `advance`, each byte with its own cursor. -/
def advance (g : GraphicsIngress) (inputs : List Input) : Produced :=
  if !g.options.enabled then some (g, .output (inputs.map (·.byte)))
  else g.advanceLoop D {} inputs

/-- `advance`, called for one chunk after another. -/
def advanceChunks (g : GraphicsIngress) : List (List Input) → Produced
  | [] => some (g, {})
  | chunk :: chunks =>
    match g.advance D chunk with
    | none => none
    | some (g, produced) =>
      (advanceChunks g chunks).map fun (g, behind) => (g, produced.append behind)

end GraphicsIngress

inductive TerminalGraphicsSegment where
  | terminal (bytes : List UInt8)
  | event (e : TerminalGraphicsEvent)

def enteredControlSequence (before after : ParserState) : Bool :=
  (before matches .ground | .esc) && !(after matches .ground | .esc)

/-- The bytes so far, as a segment if there are any. -/
def pendingSegment (terminalBytes : List UInt8) : List TerminalGraphicsSegment :=
  if terminalBytes = [] then [] else [.terminal terminalBytes]

namespace GraphicsIngress

variable (D : Decoders)

/-- The loop of `advance_ordered`. -/
@[grind] def orderedLoop (g : GraphicsIngress) (terminalBytes : List UInt8) :
    List Input → Option (GraphicsIngress × List TerminalGraphicsSegment)
  | [] => some (g, pendingSegment terminalBytes)
  | input :: inputs =>
    match g.advanceByte D input.files input.cursor input.byte with
    | none => none
    | some (g', produced) =>
      let terminalBytes := terminalBytes ++ produced.terminalBytes
      if produced.events ≠ [] then
        (orderedLoop g' [] inputs).map fun (g, segments) =>
          (g, pendingSegment terminalBytes ++ produced.events.map .event ++ segments)
      else if enteredControlSequence g.state g'.state then
        (orderedLoop g' [] inputs).map fun (g, segments) =>
          (g, pendingSegment terminalBytes ++ segments)
      else orderedLoop g' terminalBytes inputs

/-- `advance_ordered`: the segments in the order in which they are emitted. -/
def advanceOrdered (g : GraphicsIngress) (inputs : List Input) :
    Option (GraphicsIngress × List TerminalGraphicsSegment) :=
  if !g.options.enabled then some (g, [.terminal (inputs.map (·.byte))])
  else g.orderedLoop D [] inputs

end GraphicsIngress

/-- The bytes and the events of segments. -/
@[grind] def produces : List TerminalGraphicsSegment → GraphicsAdvance
  | [] => {}
  | .terminal bytes :: segments => (GraphicsAdvance.output bytes).append (produces segments)
  | .event e :: segments => (GraphicsAdvance.event e).append (produces segments)

/-! ## 6. Segments -/

namespace GraphicsAdvance

variable (a b : GraphicsAdvance)

@[simp] theorem append_events : (a.append b).events = a.events ++ b.events := rfl

@[simp] theorem empty_append : append {} a = a := rfl

@[simp] theorem append_empty : a.append {} = a := by simp [append]

theorem append_assoc (a b c : GraphicsAdvance) : (a.append b).append c = a.append (b.append c) := by
  simp [append]

end GraphicsAdvance

theorem produces_append (front back : List TerminalGraphicsSegment) :
    produces (front ++ back) = (produces front).append (produces back) := by
  induction front with
  | nil => rfl
  | cons segment front ih =>
    cases segment with
    | terminal bytes => simp [produces, ih, GraphicsAdvance.append_assoc]
    | event e => simp [produces, ih, GraphicsAdvance.append_assoc]

theorem produces_pendingSegment (bytes : List UInt8) :
    produces (pendingSegment bytes) = .output bytes := by
  unfold pendingSegment
  split
  · rename_i h
    rw [h]
    rfl
  · exact GraphicsAdvance.append_empty _

theorem produces_events (events : List TerminalGraphicsEvent) :
    produces (events.map .event) = { events } := by
  induction events with
  | nil => rfl
  | cons e events ih =>
    rw [List.map_cons, produces, ih]
    rfl

namespace GraphicsIngress

variable (D : Decoders)

theorem advanceLoop_append (g : GraphicsIngress) (result : GraphicsAdvance) (inputs : List Input) :
    g.advanceLoop D result inputs =
      (g.advanceLoop D {} inputs).map fun call => (call.1, result.append call.2) := by
  induction inputs generalizing g result with
  | nil => simp [advanceLoop]
  | cons input inputs ih =>
    simp only [advanceLoop]
    cases g.advanceByte D input.files input.cursor input.byte with
    | none => rfl
    | some call =>
      obtain ⟨g', produced⟩ := call
      simp only [GraphicsAdvance.empty_append]
      rw [ih g' (result.append produced), ih g' produced, Option.map_map]
      exact congrArg (fun f => Option.map f _)
        (funext fun call => by simp [GraphicsAdvance.append_assoc])

theorem orderedLoop_eq (g : GraphicsIngress) (terminalBytes : List UInt8) (inputs : List Input) :
    (g.orderedLoop D terminalBytes inputs).map (fun call => (call.1, produces call.2)) =
      g.advanceLoop D (.output terminalBytes) inputs := by
  induction inputs generalizing g terminalBytes with
  | nil => simp [orderedLoop, advanceLoop, produces_pendingSegment]
  | cons input inputs ih =>
    simp only [orderedLoop, advanceLoop]
    cases hstep : g.advanceByte D input.files input.cursor input.byte with
    | none => rfl
    | some call =>
      obtain ⟨g', produced⟩ := call
      obtain ⟨bytes, events⟩ := produced
      have hnext := ih g' []
      rw [show GraphicsAdvance.output [] = {} from rfl] at hnext
      -- what is flushed stands in front of what the rest of the chunk produces
      have hflush (front : List TerminalGraphicsSegment) :
          ((g'.orderedLoop D [] inputs).map fun call => (call.1, front ++ call.2)).map
              (fun call => (call.1, produces call.2)) =
            g'.advanceLoop D (produces front) inputs := by
        rw [advanceLoop_append, ← hnext, Option.map_map, Option.map_map]
        exact congrArg (fun f => Option.map f _)
          (funext fun call => by simp [produces_append])
      dsimp only
      split
      · rw [hflush, produces_append, produces_pendingSegment, produces_events]
        simp [GraphicsAdvance.append, GraphicsAdvance.output]
      · rename_i hevents
        have hevents : events = [] := not_not.mp hevents
        subst hevents
        split
        · rw [hflush, produces_pendingSegment]
          simp [GraphicsAdvance.append, GraphicsAdvance.output]
        · rw [ih]
          simp [GraphicsAdvance.append, GraphicsAdvance.output]

theorem advanceOrdered_eq (g : GraphicsIngress) (inputs : List Input) :
    (g.advanceOrdered D inputs).map (fun call => (call.1, produces call.2)) =
      g.advance D inputs := by
  unfold advanceOrdered advance
  split
  · simp [produces]
  · exact orderedLoop_eq D g [] inputs

end GraphicsIngress

end Hapcli.Graphics

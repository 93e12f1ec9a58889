/-
  Subject:   A kitty upload in several commands, `m=1` as long as more follows, against the same
             upload in one.

  The parameters of the whole upload are those of its first command; the later ones name some of
  them again, or none, and each carries a part of the payload.

  * **`chunked_eq_whole`** -- the upload in commands leaves the ingress, and gives the events, of
    the upload in one.
-/
import Hapcli.Graphics.Images

namespace Hapcli.Graphics

open Hapcli.Rust
open Hapcli.Terminal (bel esc backslash bracket)

/-! ## 1. Parameters -/

/-- The parameters differ in `m` at most. -/
def Params.Agree (p q : Params) : Prop := ∀ key, key ≠ 'm' → p.get key = q.get key

namespace Params.Agree

variable {p q : Params}

section

variable (h : p.Agree q)

include h

theorem isOne (key : Char) (hkey : key ≠ 'm') : p.isOne key = q.isOne key := by
  rw [Params.isOne, Params.isOne, h key hkey]

theorem kittyImageId : GraphicsIngress.kittyImageId p = GraphicsIngress.kittyImageId q := by
  rw [GraphicsIngress.kittyImageId, GraphicsIngress.kittyImageId, h 'i' (by decide)]

theorem decodeKittyPayload (files : Files) (encoded : List UInt8) (storageLimitMb : UInt32) :
    Graphics.decodeKittyPayload files p encoded storageLimitMb =
      Graphics.decodeKittyPayload files q encoded storageLimitMb := by
  unfold Graphics.decodeKittyPayload
  rw [h 't' (by decide)]

theorem rawDimensions : Graphics.rawDimensions p = Graphics.rawDimensions q := by
  unfold Graphics.rawDimensions
  rw [h 's' (by decide), h 'v' (by decide)]

theorem kittyPixels (D : Decoders) (files : Files) (g : GraphicsIngress) (encoded : List UInt8) :
    g.kittyPixels D files p encoded = g.kittyPixels D files q encoded := by
  unfold GraphicsIngress.kittyPixels decodeRawRgb decodeRawRgba
  rw [h.decodeKittyPayload, h 'f' (by decide), h.rawDimensions]

theorem addKittyAnimationFrame (decoded : DecodedPixels) (image : TerminalImageData) :
    Graphics.addKittyAnimationFrame p decoded image =
      Graphics.addKittyAnimationFrame q decoded image := by
  unfold Graphics.addKittyAnimationFrame frameCanvas storeFrame storedFrames
  rw [h 'r' (by decide), h 'c' (by decide), h 'Y' (by decide), h 'x' (by decide),
    h 'y' (by decide), h 'z' (by decide), h.isOne 'X' (by decide)]

theorem kittyPlacementOptions (width height : UInt32) (cursor : GraphicsCursor) :
    Graphics.kittyPlacementOptions p width height cursor =
      Graphics.kittyPlacementOptions q width height cursor := by
  unfold Graphics.kittyPlacementOptions
  rw [h 'x' (by decide), h 'y' (by decide), h 'w' (by decide), h 'h' (by decide),
    h 'c' (by decide), h 'r' (by decide), h 'z' (by decide), h.isOne 'C' (by decide)]

theorem finishKittyUpload (D : Decoders) (files : Files) (g : GraphicsIngress)
    (cursor : GraphicsCursor) (explicitId : UInt64) (encoded : List UInt8) :
    g.finishKittyUpload D files cursor explicitId ⟨p, encoded⟩ =
      g.finishKittyUpload D files cursor explicitId ⟨q, encoded⟩ := by
  have hframe : Graphics.addKittyAnimationFrame p = Graphics.addKittyAnimationFrame q :=
    funext fun decoded => funext fun image => h.addKittyAnimationFrame decoded image
  unfold GraphicsIngress.finishKittyUpload GraphicsIngress.editKittyImage
    GraphicsIngress.storeKittyImage
  dsimp only
  simp only [h 'a' (by decide), h.kittyPixels, hframe, h.kittyImageId, h.kittyPlacementOptions]

end

end Params.Agree

/-! ## 2. Control strings -/

variable {D : Decoders} {g : GraphicsIngress}

namespace GraphicsIngress

/-- The bytes of one control string, all under one cursor. -/
def typed (cursor : GraphicsCursor) (files : Files) (bytes : List UInt8) : List Input :=
  bytes.map fun byte => ⟨byte, cursor, files⟩

theorem advanceLoop_apcData (cursor : GraphicsCursor) (files : Files) (front : List UInt8)
    {data : List UInt8} (hstate : g.state = .apc front) (hesc : esc ∉ data)
    (hlimit : (front ++ data).length ≤ encodedStorageLimit g.options.storageLimitMb) :
    g.advanceLoop D {} (typed cursor files data) =
      some ({ g with state := .apc (front ++ data) }, {}) := by
  induction data generalizing g front with
  | nil =>
    rw [List.append_nil, ← hstate]
    rfl
  | cons byte data ih =>
    obtain ⟨hbyte, hdata⟩ : esc ≠ byte ∧ esc ∉ data := by simpa [not_or] using hesc
    have hsplit : front ++ byte :: data = (front ++ [byte]) ++ data := by simp
    rw [hsplit] at hlimit ⊢
    have hwithin : parserStateLen (.apc (front ++ [byte])) ≤
        encodedStorageLimit g.options.storageLimitMb := by
      rw [List.length_append] at hlimit
      exact (Nat.le_add_right _ _).trans hlimit
    have hstep : g.advanceByte D files cursor byte =
        some ({ g with state := .apc (front ++ [byte]) }, {}) := by
      unfold advanceByte
      rw [hstate]
      dsimp only
      rw [if_neg (Ne.symm hbyte), parserStateOrSizeError_within hwithin]
    rw [typed, List.map_cons, advanceLoop]
    dsimp only
    rw [hstep]
    exact ih _ rfl hdata hlimit

theorem advanceLoop_single (g : GraphicsIngress) (input : Input) :
    g.advanceLoop D {} [input] = g.advanceByte D input.files input.cursor input.byte := by
  rw [advanceLoop]
  cases g.advanceByte D input.files input.cursor input.byte with
  | none => rfl
  | some call => rfl

theorem advanceLoop_apc (cursor : GraphicsCursor) (files : Files) {data : List UInt8}
    (hstate : g.state = .ground) (hesc : esc ∉ data)
    (hlimit : data.length ≤ encodedStorageLimit g.options.storageLimitMb) :
    g.advanceLoop D {} (typed cursor files ([esc, 0x5f] ++ data ++ [esc, backslash])) =
      g.dispatchApc D files cursor data := by
  have hopen : g.advanceLoop D {} (typed cursor files [esc, 0x5f]) =
      some ({ g with state := .apc [] }, {}) := by
    obtain ⟨options, state, nextImageId, kittyChunks, kittyImages⟩ := g
    obtain rfl : state = .ground := hstate
    rfl
  have hinside : ({ g with state := .apc [] } : GraphicsIngress).advanceLoop D {}
      (typed cursor files data) = some ({ g with state := .apc data }, {}) :=
    advanceLoop_apcData cursor files [] rfl hesc hlimit
  have hclose : ({ g with state := .apc data } : GraphicsIngress).advanceLoop D {}
      (typed cursor files [esc, backslash]) = g.dispatchApc D files cursor data := by
    obtain ⟨options, state, nextImageId, kittyChunks, kittyImages⟩ := g
    obtain rfl : state = .ground := hstate
    exact advanceLoop_single _ ⟨backslash, cursor, files⟩
  have hsplit : typed cursor files ([esc, 0x5f] ++ data ++ [esc, backslash]) =
      typed cursor files [esc, 0x5f] ++ (typed cursor files data ++
        typed cursor files [esc, backslash]) := by simp [typed]
  rw [hsplit, advanceLoop_append_inputs, hopen, Option.bind_some, advanceLoop_append_inputs,
    hinside, Option.bind_some]
  exact hclose

end GraphicsIngress

/-! ## 3. The commands of an upload -/

/-- `ESC _G header ; payload ESC \`, and what the ingress finds while it comes. -/
structure UploadCommand where
  header : List UInt8
  payload : List UInt8
  cursor : GraphicsCursor
  files : Files

namespace UploadCommand

variable (c : UploadCommand)

def params : Params := parseCommaParams c.header

/-- What stands between `ESC _` and `ESC \`. -/
def text : List UInt8 := [0x47] ++ c.header ++ [0x3b] ++ c.payload

def inputs : List Input :=
  GraphicsIngress.typed c.cursor c.files ([esc, 0x5f] ++ c.text ++ [esc, backslash])

/-- The header is one, no byte of the command ends it, and it is within the limit. -/
structure Fits (o : GraphicsOptions) : Prop where
  header : 0x3b ∉ c.header
  text : esc ∉ c.text
  limit : c.text.length ≤ encodedStorageLimit o.storageLimitMb

end UploadCommand

/-- Uploads of pixels: no deletion, query, placement, control or composition. -/
def Uploads (params : Params) : Prop :=
  (params.get 'a').getD ['t'] ∉ [['d'], ['q'], ['p'], ['a'], ['c']]

instance (params : Params) : Decidable (Uploads params) := inferInstanceAs (Decidable (_ ∉ _))

/-- **The commands, all but the last with `m=1`, are a split of the whole upload**: its parameters
    stand in the first, and the payloads are its payload, cut anywhere. -/
structure SplitOf (o : GraphicsOptions) (whole : UploadCommand) (more : List UploadCommand)
    (last : UploadCommand) : Prop where
  uploads : Uploads whole.params
  fits : ∀ c ∈ whole :: (more ++ [last]), c.Fits o
  first : ∀ c ∈ (more ++ [last]).head?, c.params.Agree whole.params
  among : ∀ c ∈ more ++ [last], ∀ key value, key ≠ 'm' → c.params.get key = some value →
    whole.params.get key = some value
  follows : ∀ c ∈ more, c.params.isOne 'm' = true
  ends : last.params.isOne 'm' = false ∧ whole.params.isOne 'm' = false
  payload : whole.payload = ((more ++ [last]).map UploadCommand.payload).flatten
  finds : last.cursor = whole.cursor ∧ last.files = whole.files

namespace GraphicsIngress

variable {id : UInt64}

/-- The ingress in the middle of the upload `id`. -/
def uploading (g : GraphicsIngress) (id : UInt64) : Option KittyChunkAssembly → GraphicsIngress
  | none => g
  | some assembly => { g with kittyChunks := g.kittyChunks.insert id assembly }

/-- The parts so far and a further command. -/
def extended (assembly : Option KittyChunkAssembly) (c : UploadCommand) : KittyChunkAssembly :=
  let assembly := assembly.getD ⟨c.params, []⟩
  ⟨c.params ∪ assembly.params, assembly.encoded ++ c.payload⟩

variable {assembly : Option KittyChunkAssembly} {c : UploadCommand} {commands : List UploadCommand}
  {whole : Params}

theorem parse_text (hheader : 0x3b ∉ c.header) :
    parseKittyParamsAndPayload (c.text.drop 1) = some (c.params, c.payload) := by
  have htext : c.text.drop 1 = c.header ++ 0x3b :: c.payload := by simp [UploadCommand.text]
  have hindex : (c.header ++ 0x3b :: c.payload).idxOf? 0x3b = some c.header.length := by
    refine List.idxOf?_eq_some_iff.mpr ⟨by simp, by simp, fun j hj heq => hheader ?_⟩
    rw [List.getElem_append_left hj] at heq
    exact heq ▸ List.getElem_mem hj
  unfold parseKittyParamsAndPayload
  rw [htext, hindex, Option.map_some, List.take_left, UploadCommand.params]
  simp

theorem decodeKitty_part (hid : id ∉ g.kittyChunks.keys) (hheader : 0x3b ∉ c.header)
    (huploads : Uploads c.params) (hexplicit : (g.uploading id assembly).explicitId c.params = id)
    (hlimit : (extended assembly c).encoded.length ≤ encodedStorageLimit g.options.storageLimitMb) :
    (g.uploading id assembly).decodeKitty D c.files c.cursor (c.text.drop 1) =
      if c.params.isOne 'm' then some (g.uploading id (some (extended assembly c)), .ok none)
      else g.finishKittyUpload D c.files c.cursor id (extended assembly c) := by
  have hassemble : (g.uploading id assembly).assemble id c.params c.payload =
      extended assembly c := by
    unfold assemble extended
    cases assembly with
    | none => rw [uploading, Map.notMem_keys_iff.mp hid]
    | some assembly => rw [uploading, AList.lookup_insert]
  have herase : ({ g.uploading id assembly with
      kittyChunks := (g.uploading id assembly).kittyChunks.erase id } : GraphicsIngress) = g := by
    cases assembly with
    | none => rw [uploading, Map.erase_of_notMem hid]
    | some assembly => rw [uploading, Map.erase_insert hid]
  have hlimit : ¬encodedStorageLimit (g.uploading id assembly).options.storageLimitMb <
      (extended assembly c).encoded.length := by
    rw [show (g.uploading id assembly).options = g.options by cases assembly <;> rfl]
    exact not_lt.mpr hlimit
  simp only [Uploads, List.mem_cons, List.not_mem_nil, or_false, not_or] at huploads
  obtain ⟨hdelete, hquery, hplace, -, -⟩ := huploads
  unfold decodeKitty
  rw [parse_text hheader]
  dsimp only
  rw [if_neg (by simp [hdelete, hquery]), if_neg hplace, hexplicit, hassemble]
  refine (if_neg hlimit).trans ?_
  by_cases hmore : c.params.isOne 'm' = true
  · rw [if_pos hmore, if_pos hmore]
    exact congrArg (fun g => some (uploading g id (some (extended assembly c)), Except.ok none))
      herase
  · rw [if_neg hmore, if_neg hmore]
    exact congrArg (fun g => finishKittyUpload D c.files g c.cursor id (extended assembly c)) herase

theorem advanceLoop_part (hkitty : g.options.kitty = true) (hstate : g.state = .ground)
    (hid : id ∉ g.kittyChunks.keys) (hfits : c.Fits g.options) (huploads : Uploads c.params)
    (hexplicit : (g.uploading id assembly).explicitId c.params = id)
    (hlimit : (extended assembly c).encoded.length ≤ encodedStorageLimit g.options.storageLimitMb) :
    (g.uploading id assembly).advanceLoop D {} c.inputs =
      if c.params.isOne 'm' then some (g.uploading id (some (extended assembly c)), {})
      else (g.finishKittyUpload D c.files c.cursor id (extended assembly c)).map uploaded := by
  have hsame : (g.uploading id assembly).options = g.options ∧
      (g.uploading id assembly).state = .ground := by
    cases assembly with
    | none => exact ⟨rfl, hstate⟩
    | some assembly => exact ⟨rfl, hstate⟩
  obtain ⟨hoptions, hground⟩ := hsame
  have hcommand : parseKittyCommand (c.text.drop 1) = (c.params, some c.payload) :=
    parseKittyCommand_payload (parse_text hfits.header)
  have hfront : ([0x47] : List UInt8).isPrefixOf c.text = true := by simp [UploadCommand.text]
  have hkinds := huploads
  simp only [Uploads, List.mem_cons, List.not_mem_nil, or_false, not_or] at hkinds
  obtain ⟨hdelete, hquery, hplace, hcontrol, hcompose⟩ := hkinds
  rw [UploadCommand.inputs,
    advanceLoop_apc c.cursor c.files hground hfits.text (hoptions ▸ hfits.limit)]
  unfold dispatchApc
  rw [if_neg (by simp [hoptions, hkitty, hfront]), hcommand]
  dsimp only
  rw [if_neg hdelete, if_neg hquery, if_neg hplace, if_neg hcontrol, if_neg hcompose,
    if_neg (by simp), decodeKitty_part hid hfits.header huploads hexplicit hlimit]
  by_cases hmore : c.params.isOne 'm' = true
  · rw [if_pos hmore, if_pos hmore]
    rfl
  · rw [if_neg hmore, if_neg hmore]

/-! ## 4. Uploads -/

/-- The payload so far. -/
def encodedSoFar (assembly : Option KittyChunkAssembly) : List UInt8 :=
  (assembly.map (·.encoded)).getD []

theorem extended_encoded (assembly : Option KittyChunkAssembly) (c : UploadCommand) :
    (extended assembly c).encoded = encodedSoFar assembly ++ c.payload := by
  cases assembly <;> rfl

/-- The parameters of the upload, and those so far: the first command has them all. -/
def Begun (whole : Params) (assembly : Option KittyChunkAssembly) (commands : List UploadCommand) :
    Prop :=
  match assembly with
  | some assembly => assembly.params.Agree whole
  | none => ∀ c ∈ commands.head?, c.params.Agree whole

theorem extended_agree (hbegun : Begun whole assembly (c :: commands))
    (hamong : ∀ key value, key ≠ 'm' → c.params.get key = some value → whole.get key = some value) :
    (extended assembly c).params.Agree whole := by
  intro key hkey
  show AList.lookup [key] (c.params ∪ _) = AList.lookup [key] whole
  by_cases hmem : [key] ∈ c.params
  · obtain ⟨value, hvalue⟩ := Option.isSome_iff_exists.mp (AList.lookup_isSome.mpr hmem)
    rw [AList.lookup_union_left hmem, hvalue]
    exact (hamong key value hkey hvalue).symm
  · rw [AList.lookup_union_right hmem]
    cases assembly with
    | none => exact hbegun c rfl key hkey
    | some assembly => exact hbegun key hkey

theorem explicitId_uploading {assembly : KittyChunkAssembly} {params : Params}
    (hnamed : (params.get 'i').bind toId = some id ∨
      (params.get 'i').bind toId = none ∧ g.kittyChunks = ∅) :
    (g.uploading id (some assembly)).explicitId params = id := by
  unfold explicitId
  rcases hnamed with hnamed | ⟨hnone, hempty⟩
  · rw [hnamed]
    rfl
  · rw [hnone, uploading]
    dsimp only
    rw [hempty]
    rfl

/-- A command of the upload `id`: it has no other parameters, and names the id, or nothing else is
    being uploaded. -/
structure PartOf (g : GraphicsIngress) (id : UInt64) (whole : Params) (c : UploadCommand) :
    Prop where
  fits : c.Fits g.options
  among : ∀ key value, key ≠ 'm' → c.params.get key = some value → whole.get key = some value
  named : (c.params.get 'i').bind toId = some id ∨
    (c.params.get 'i').bind toId = none ∧ g.kittyChunks = ∅

theorem PartOf.uploads (h : PartOf g id whole c) (huploads : Uploads whole) : Uploads c.params := by
  cases haction : c.params.get 'a' with
  | none =>
    rw [Uploads, haction]
    decide
  | some action =>
    rw [Uploads, haction, ← h.among 'a' action (by decide) haction]
    exact huploads

section

variable (hkitty : g.options.kitty = true) (hstate : g.state = .ground)
  (hid : id ∉ g.kittyChunks.keys)

include hkitty hstate hid

theorem advanceLoop_next (hwhole : g.explicitId whole = id) (huploads : Uploads whole)
    (hpart : PartOf g id whole c) (hbegun : Begun whole assembly (c :: commands))
    (hlimit : (encodedSoFar assembly ++ c.payload).length ≤
      encodedStorageLimit g.options.storageLimitMb) :
    (g.uploading id assembly).advanceLoop D {} c.inputs =
      if c.params.isOne 'm' then some (g.uploading id (some (extended assembly c)), {})
      else (g.finishKittyUpload D c.files c.cursor id (extended assembly c)).map uploaded := by
  refine advanceLoop_part hkitty hstate hid hpart.fits (hpart.uploads huploads) ?_ ?_
  · cases assembly with
    | some assembly => exact explicitId_uploading hpart.named
    | none =>
      have hagree : c.params.Agree whole := hbegun c rfl
      rw [uploading, ← hwhole, explicitId, explicitId, hagree 'i' (by decide)]
  · rw [extended_encoded]
    exact hlimit

theorem advanceLoop_parts (hwhole : g.explicitId whole = id) (huploads : Uploads whole)
    {more : List UploadCommand} {last : UploadCommand}
    (hparts : ∀ c ∈ more ++ [last], PartOf g id whole c)
    (hfollows : ∀ c ∈ more, c.params.isOne 'm' = true) (hends : last.params.isOne 'm' = false)
    (hbegun : Begun whole assembly (more ++ [last])) (hlimit : (encodedSoFar assembly ++
      ((more ++ [last]).map UploadCommand.payload).flatten).length ≤
        encodedStorageLimit g.options.storageLimitMb) :
    (g.uploading id assembly).advanceLoop D {} ((more ++ [last]).flatMap UploadCommand.inputs) =
      (g.finishKittyUpload D last.files last.cursor id
        ⟨whole, encodedSoFar assembly ++ ((more ++ [last]).map UploadCommand.payload).flatten⟩).map
          uploaded := by
  induction more generalizing assembly with
  | nil =>
    have hlast : PartOf g id whole last := hparts last (by simp)
    have hpayload : (([] ++ [last]).map UploadCommand.payload).flatten = last.payload := by simp
    have hinputs : ([] ++ [last]).flatMap UploadCommand.inputs = last.inputs := by simp
    rw [hpayload] at hlimit ⊢
    rw [hinputs, advanceLoop_next hkitty hstate hid hwhole huploads hlast hbegun hlimit, hends,
      if_neg Bool.false_ne_true, ← extended_encoded,
      ← (extended_agree hbegun hlast.among).finishKittyUpload]
  | cons c more ih =>
    have hc : PartOf g id whole c := hparts c (by simp)
    have hpayload : ((c :: more ++ [last]).map UploadCommand.payload).flatten =
        c.payload ++ ((more ++ [last]).map UploadCommand.payload).flatten := by simp
    have hinputs : (c :: more ++ [last]).flatMap UploadCommand.inputs =
        c.inputs ++ (more ++ [last]).flatMap UploadCommand.inputs := by simp
    have hsoFar : encodedSoFar (some (extended assembly c)) =
        encodedSoFar assembly ++ c.payload := extended_encoded assembly c
    rw [hpayload, ← List.append_assoc, ← hsoFar] at hlimit ⊢
    have hfirst : (encodedSoFar assembly ++ c.payload).length ≤
        encodedStorageLimit g.options.storageLimitMb := by
      rw [hsoFar, List.length_append] at hlimit
      exact (Nat.le_add_right _ _).trans hlimit
    rw [hinputs, advanceLoop_append_inputs,
      advanceLoop_next hkitty hstate hid hwhole huploads hc hbegun hfirst,
      hfollows c List.mem_cons_self, if_pos rfl, Option.bind_some]
    have hbegun : Begun whole (some (extended assembly c)) (more ++ [last]) :=
      extended_agree hbegun hc.among
    exact ih (fun c hmem => hparts c (List.mem_cons_of_mem _ hmem))
      (fun c hmem => hfollows c (List.mem_cons_of_mem _ hmem)) hbegun hlimit

end

theorem advanceLoop_off (hkitty : g.options.kitty = false) (hstate : g.state = .ground)
    (hfits : ∀ c ∈ commands, c.Fits g.options) (result : GraphicsAdvance) :
    ∃ bytes, g.advanceLoop D result (commands.flatMap UploadCommand.inputs) =
      some (g, ⟨bytes, result.events⟩) := by
  induction commands generalizing result with
  | nil => exact ⟨result.terminalBytes, rfl⟩
  | cons c commands ih =>
    have hc : c.Fits g.options := hfits c List.mem_cons_self
    have hcommand : g.advanceLoop D {} c.inputs =
        some (g, .output ([esc, 0x5f] ++ c.text ++ [esc, backslash])) := by
      rw [UploadCommand.inputs, advanceLoop_apc c.cursor c.files hstate hc.text hc.limit]
      exact if_pos (by simp [hkitty])
    rw [List.flatMap_cons, advanceLoop_append_inputs, advanceLoop_append, hcommand]
    obtain ⟨bytes, hbytes⟩ := ih (fun c hmem => hfits c (List.mem_cons_of_mem _ hmem))
      (result.append (.output ([esc, 0x5f] ++ c.text ++ [esc, backslash])))
    refine ⟨bytes, hbytes.trans ?_⟩
    simp [GraphicsAdvance.output]

theorem part_of_named (hfits : c.Fits g.options)
    (hamong : ∀ key value, key ≠ 'm' → c.params.get key = some value → whole.get key = some value)
    (hnamed : c.params.get 'i' = whole.get 'i' ∧ (kittyImageId whole).isSome ∨ g.kittyChunks = ∅) :
    PartOf g (g.explicitId whole) whole c := by
  refine ⟨hfits, hamong, ?_⟩
  have hwhole (imageId : UInt64) (h : (whole.get 'i').bind toId = some imageId) :
      g.explicitId whole = imageId := by
    rw [explicitId, h]
    rfl
  rcases hnamed with ⟨hsame, hsome⟩ | hempty
  · obtain ⟨imageId, himageId⟩ := Option.isSome_iff_exists.mp hsome
    rw [hsame, hwhole imageId himageId]
    exact .inl himageId
  · cases hid : (c.params.get 'i').bind toId with
    | none => exact .inr ⟨rfl, hempty⟩
    | some imageId =>
      obtain ⟨value, hvalue, hparsed⟩ := Option.bind_eq_some_iff.mp hid
      rw [hwhole imageId (by rw [hamong 'i' value (by decide) hvalue]; exact hparsed)]
      exact .inl rfl

variable {last : UploadCommand} {more : List UploadCommand}

theorem advanceLoop_upload (hkitty : g.options.kitty = true) (hstate : g.state = .ground)
    (hpending : g.explicitId whole ∉ g.kittyChunks.keys) (huploads : Uploads whole)
    (hparts : ∀ c ∈ more ++ [last], PartOf g (g.explicitId whole) whole c)
    (hfollows : ∀ c ∈ more, c.params.isOne 'm' = true) (hends : last.params.isOne 'm' = false)
    (hfirst : ∀ c ∈ (more ++ [last]).head?, c.params.Agree whole) {payload : List UInt8}
    (hpayload : payload = ((more ++ [last]).map UploadCommand.payload).flatten)
    (hlimit : payload.length ≤ encodedStorageLimit g.options.storageLimitMb) :
    g.advanceLoop D {} ((more ++ [last]).flatMap UploadCommand.inputs) =
      (g.finishKittyUpload D last.files last.cursor (g.explicitId whole) ⟨whole, payload⟩).map
        uploaded := by
  have hrun : (g.uploading (g.explicitId whole) none).advanceLoop D {}
      ((more ++ [last]).flatMap UploadCommand.inputs) = _ :=
    advanceLoop_parts hkitty hstate hpending rfl huploads hparts hfollows hends hfirst
      (hpayload ▸ hlimit)
  rw [hpayload]
  exact hrun

theorem advanceLoop_split (hkitty : g.options.kitty = true) (hstate : g.state = .ground)
    {whole : UploadCommand} (hsplit : SplitOf g.options whole more last)
    (hpending : g.explicitId whole.params ∉ g.kittyChunks.keys)
    (hnamed : (∀ c ∈ more ++ [last], c.params.get 'i' = whole.params.get 'i') ∧
        (kittyImageId whole.params).isSome ∨ g.kittyChunks = ∅) :
    g.advanceLoop D {} ((more ++ [last]).flatMap UploadCommand.inputs) =
      g.advanceLoop D {} whole.inputs := by
  have hwhole : whole.Fits g.options := hsplit.fits whole List.mem_cons_self
  have hlimit : whole.payload.length ≤ encodedStorageLimit g.options.storageLimitMb := by
    have htext := hwhole.limit
    simp only [UploadCommand.text, List.length_append] at htext
    omega
  have hparts (c) (hc : c ∈ more ++ [last]) :
      PartOf g (g.explicitId whole.params) whole.params c :=
    part_of_named (hsplit.fits c (List.mem_cons_of_mem _ hc)) (hsplit.among c hc)
      (hnamed.imp_left fun h => ⟨h.1 c hc, h.2⟩)
  have hchunked := advanceLoop_upload (D := D) hkitty hstate hpending hsplit.uploads hparts
    hsplit.follows hsplit.ends.1 hsplit.first hsplit.payload hlimit
  have hone (c) (hc : c ∈ [] ++ [whole]) :
      PartOf g (g.explicitId whole.params) whole.params c := by
    obtain rfl : c = whole := by simpa using hc
    exact part_of_named hwhole (fun _ _ _ hvalue => hvalue) (hnamed.imp_left fun h => ⟨rfl, h.2⟩)
  have hfirst (c : UploadCommand) (hc : c ∈ ([] ++ [whole]).head?) :
      c.params.Agree whole.params := by
    obtain rfl : whole = c := by simpa using hc
    exact fun _ _ => rfl
  have hwholePayload : whole.payload = (([] ++ [whole]).map UploadCommand.payload).flatten := by
    simp
  have hunsplit := advanceLoop_upload (D := D) hkitty hstate hpending hsplit.uploads hone (by simp)
    hsplit.ends.2 hfirst hwholePayload hlimit
  obtain ⟨hcursor, hfiles⟩ := hsplit.finds
  rw [hchunked, hcursor, hfiles, ← hunsplit]
  simp

/-- **A CHUNKED UPLOAD IS THE WHOLE ONE**, for every payload and every way of cutting it. -/
theorem chunked_eq_whole (D : Decoders) (g : GraphicsIngress) {whole : UploadCommand}
    {more : List UploadCommand} {last : UploadCommand} (hstate : g.state = .ground)
    (hsplit : SplitOf g.options whole more last)
    (hpending : g.explicitId whole.params ∉ g.kittyChunks.keys)
    (hnamed : (∀ c ∈ more ++ [last], c.params.get 'i' = whole.params.get 'i') ∧
        (kittyImageId whole.params).isSome ∨ g.kittyChunks = ∅) :
    let chunked := g.advance D ((more ++ [last]).flatMap UploadCommand.inputs)
    let unsplit := g.advance D whole.inputs
    chunked.map (fun call => (call.1, call.2.events)) =
        unsplit.map (fun call => (call.1, call.2.events)) ∧
      (g.options.enabled = true → g.options.kitty = true → chunked = unsplit) := by
  dsimp only
  by_cases henabled : g.options.enabled = true
  · have hadvance (inputs : List Input) : g.advance D inputs = g.advanceLoop D {} inputs :=
      if_neg (by simp [henabled])
    rw [hadvance, hadvance]
    by_cases hkitty : g.options.kitty = true
    · have hequal := advanceLoop_split (D := D) hkitty hstate hsplit hpending hnamed
      exact ⟨congrArg _ hequal, fun _ _ => hequal⟩
    · have hoff : g.options.kitty = false := by simpa using hkitty
      obtain ⟨chunked, hchunked⟩ := advanceLoop_off (D := D) hoff hstate
        (fun c hc => hsplit.fits c (List.mem_cons_of_mem _ hc)) {}
      have hone (c) (hc : c ∈ [whole]) : c.Fits g.options :=
        List.mem_singleton.mp hc ▸ hsplit.fits whole List.mem_cons_self
      obtain ⟨unsplit, hunsplit⟩ := advanceLoop_off (D := D) hoff hstate hone {}
      rw [List.flatMap_singleton] at hunsplit
      rw [hchunked, hunsplit]
      exact ⟨rfl, fun _ hkitty' => absurd hkitty' hkitty⟩
  · have hadvance (inputs : List Input) :
        g.advance D inputs = some (g, .output (inputs.map (·.byte))) := if_pos (by simp [henabled])
    rw [hadvance, hadvance]
    exact ⟨rfl, fun henabled' => absurd henabled' henabled⟩

/-- A command on a screen of 80 by 24, without files. -/
def plainCommand (header payload : String) : UploadCommand :=
  ⟨asBytes header.toList, asBytes payload.toList, (plainInput 0).cursor, (plainInput 0).files⟩

/-- One raw pixel, its payload cut inside a group of four characters; the second command names
    nothing. -/
theorem chunked_eq_whole_pixel :
    let whole := plainCommand "a=T,f=32,i=5,s=1,v=1" "AAAAAA=="
    let first := plainCommand "a=T,f=32,i=5,s=1,v=1,m=1" "AAA"
    let last := plainCommand "m=0" "AAA=="
    (new {}).advance noImages ([first, last].flatMap UploadCommand.inputs) =
      (new {}).advance noImages whole.inputs := by
  intro whole first last
  have hfirst : first.params = whole.params.insert ['m'] ['1'] := AList.ext (by decide)
  have hlast : last.params = AList.insert ['m'] ['0'] ∅ := AList.ext (by decide)
  have hagree : first.params.Agree whole.params := by
    intro key hkey
    rw [Params.get, hfirst, AList.lookup_insert_ne (by simpa using hkey)]
    rfl
  have hsplit : SplitOf {} whole [first] last := by
    refine ⟨by decide, ?_, ?_, ?_, by decide, by decide, by decide,
      rfl, rfl⟩
    · have hall : ∀ c ∈ [whole, first, last], 0x3b ∉ c.header ∧ esc ∉ c.text ∧
          c.text.length ≤ encodedStorageLimit 16 := by decide
      exact fun c hc => ⟨(hall c hc).1, (hall c hc).2.1, (hall c hc).2.2⟩
    · intro c hc
      obtain rfl : first = c := by simpa using hc
      exact hagree
    · intro c hc key value hkey hvalue
      rcases List.mem_cons.mp hc with rfl | hc
      · rw [← hagree key hkey]
        exact hvalue
      · obtain rfl := List.mem_singleton.mp hc
        rw [Params.get, hlast, AList.lookup_insert_ne (by simpa using hkey)] at hvalue
        cases hvalue
  exact (chunked_eq_whole noImages (new {}) rfl hsplit (by decide) (.inr rfl)).2 rfl rfl

end GraphicsIngress

end Hapcli.Graphics

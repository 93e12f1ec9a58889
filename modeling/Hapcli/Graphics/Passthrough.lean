/-
  Subject:   What the graphics ingress does to output that holds no image: every piece of the stream
             is passed on as it came, except that an OSC always ends in `BEL`.

  * **`passthrough_exact_iff`** -- the output is the input, less the rest, exactly if no OSC of the
    stream ends in `ESC \`.
-/
import Hapcli.Graphics.ControlStrings
import Hapcli.Graphics.Ingress

namespace Hapcli.Graphics

open Hapcli.Terminal (bel esc backslash bracket)

/-! ## 1. What is passed on -/

namespace Piece

/-- The piece as the ingress passes it on. -/
def echo : Piece → List UInt8
  | osc data _ _ => [esc, bracket] ++ data ++ [bel]
  | piece => piece.bytes

/-- The piece is an image command of a protocol that is switched on. -/
def captured (o : GraphicsOptions) : Piece → Bool
  | osc data _ _ => o.iterm2Inline && iterm2Front.isPrefixOf data
  | string .dcs data _ => o.sixel && looksLikeSixel data
  | string .apc data _ => o.kitty && ([0x47] : List UInt8).isPrefixOf data
  | _ => false

theorem echo_of_not_st {piece : Piece} (h : piece.endsOscBySt = false) :
    piece.echo = piece.bytes := by
  cases piece with
  | plain | escape | cancelled | string => rfl
  | osc data hdata terminator =>
    cases terminator with
    | bel => rfl
    | st => cases h

end Piece

namespace Stream

/-- **Ordinary output**: no image command, no control string over the size limit. -/
def Ordinary (o : GraphicsOptions) (s : Stream) : Prop :=
  (∀ piece ∈ s.items, piece.captured o = false) ∧
    s.Within (encodedStorageLimit o.storageLimitMb)

theorem Ordinary.of_push {o : GraphicsOptions} {s : Stream} {byte : UInt8}
    (h : (s.push byte).Ordinary o) : s.Ordinary o := by
  obtain ⟨more, hmore⟩ := push_items s byte
  refine ⟨fun piece hpiece => h.1 piece ?_, within_push h.2⟩
  rw [hmore]
  exact List.mem_append_left _ hpiece

theorem Ordinary.of_foldl {o : GraphicsOptions} {s : Stream} {bytes : List UInt8}
    (h : (bytes.foldl push s).Ordinary o) : s.Ordinary o := by
  induction bytes generalizing s with
  | nil => exact h
  | cons byte bytes ih => exact (ih h).of_push

/-- The complete pieces as the ingress passes them on. -/
def echo (s : Stream) : List UInt8 := s.items.flatMap Piece.echo

theorem echo_complete (s : Stream) (piece : Piece) :
    (s.complete piece).echo = s.echo ++ piece.echo := by simp [echo, complete]

end Stream

/-- The state of the machine that holds the rest of a stream. -/
def ParserState.ofRest : Rest → ParserState
  | .none => .ground
  | .escape => .esc
  | .osc data _ => .osc data
  | .oscEscape data _ => .oscEsc data
  | .string .dcs data _ => .dcs data
  | .string .apc data _ => .apc data
  | .stringEscape .dcs data _ => .dcsEsc data
  | .stringEscape .apc data _ => .apcEsc data

/-! ## 2. The simulation -/

namespace GraphicsIngress

variable (D : Decoders)

/-- The ingress that holds the rest of `s`. -/
def holding (g : GraphicsIngress) (s : Stream) : GraphicsIngress :=
  { g with state := .ofRest s.rest }

variable {data : List UInt8} {g : GraphicsIngress}

theorem dispatchOsc_echo (cursor : GraphicsCursor)
    (h : (g.options.iterm2Inline && iterm2Front.isPrefixOf data) = false) :
    g.dispatchOsc D cursor data = (g, .output ([esc, bracket] ++ data ++ [bel])) := by
  refine if_pos ?_
  rcases Bool.and_eq_false_iff.mp h with h | h <;> simp [h]

theorem dispatchDcs_echo (cursor : GraphicsCursor)
    (h : (g.options.sixel && looksLikeSixel data) = false) :
    g.dispatchDcs D cursor data = (g, .output ([esc, 0x50] ++ data ++ [esc, backslash])) := by
  refine if_pos ?_
  rcases Bool.and_eq_false_iff.mp h with h | h <;> simp [h]

theorem dispatchApc_echo (files : Files) (cursor : GraphicsCursor)
    (h : (g.options.kitty && ([0x47] : List UInt8).isPrefixOf data) = false) :
    g.dispatchApc D files cursor data =
      some (g, .output ([esc, 0x5f] ++ data ++ [esc, backslash])) := by
  refine if_pos ?_
  rcases Bool.and_eq_false_iff.mp h with h | h <;> simp [h]

theorem parserStateOrSizeError_within {state : ParserState}
    (h : parserStateLen state ≤ encodedStorageLimit g.options.storageLimitMb) :
    g.parserStateOrSizeError state = ({ g with state }, {}) := if_pos h

theorem advanceByte_push (files : Files) (cursor : GraphicsCursor) (g : GraphicsIngress)
    (s : Stream) {byte : UInt8} (h : (s.push byte).Ordinary g.options) :
    ∃ bytes, (g.holding s).advanceByte D files cursor byte =
        some (g.holding (s.push byte), .output bytes) ∧
      (s.push byte).echo = s.echo ++ bytes := by
  obtain ⟨items, rest⟩ := s
  have hstay (rest' : Rest) (hpush : Stream.push ⟨items, rest⟩ byte = ⟨items, rest'⟩)
      (hstep : (g.holding ⟨items, rest⟩).advanceByte D files cursor byte =
        some (g.holding ⟨items, rest'⟩, {})) :
      ∃ bytes, (g.holding ⟨items, rest⟩).advanceByte D files cursor byte =
          some (g.holding (Stream.push ⟨items, rest⟩ byte), .output bytes) ∧
        (Stream.push ⟨items, rest⟩ byte).echo = Stream.echo ⟨items, rest⟩ ++ bytes :=
    ⟨[], by rw [hstep, hpush]; rfl, by rw [hpush, List.append_nil]; rfl⟩
  -- a piece that the byte completes is not captured
  have hdone (piece : Piece)
      (hpush : Stream.push ⟨items, rest⟩ byte = Stream.complete ⟨items, rest⟩ piece)
      (hstep : piece.captured g.options = false →
        (g.holding ⟨items, rest⟩).advanceByte D files cursor byte =
          some ({ g with state := .ground }, .output piece.echo)) :
      ∃ bytes, (g.holding ⟨items, rest⟩).advanceByte D files cursor byte =
          some (g.holding (Stream.push ⟨items, rest⟩ byte), .output bytes) ∧
        (Stream.push ⟨items, rest⟩ byte).echo = Stream.echo ⟨items, rest⟩ ++ bytes := by
    have hcaptured := h.1 piece (hpush ▸ List.mem_append_right _ (List.mem_singleton_self _))
    exact ⟨piece.echo, by rw [hstep hcaptured, hpush]; rfl, by rw [hpush, Stream.echo_complete]⟩
  have hsize := h.2.2
  cases rest with
  | none =>
    by_cases hesc : byte = esc
    · exact hstay .escape (dif_pos hesc) (if_pos hesc)
    · exact hdone (.plain byte hesc) (dif_neg hesc) fun _ => if_neg hesc
  | escape =>
    by_cases hosc : byte = bracket
    · exact hstay (.osc [] _) (dif_pos hosc) (if_pos hosc)
    by_cases hdcs : byte = StringKind.dcs.introducer
    · exact hstay (.string .dcs [] .nil) ((dif_neg hosc).trans (dif_pos hdcs))
        ((if_neg hosc).trans (if_pos hdcs))
    by_cases hapc : byte = StringKind.apc.introducer
    · exact hstay (.string .apc [] .nil)
        ((dif_neg hosc).trans ((dif_neg hdcs).trans (dif_pos hapc)))
        ((if_neg hosc).trans ((if_neg hdcs).trans (if_pos hapc)))
    · exact hdone (.escape byte _)
        ((dif_neg hosc).trans ((dif_neg hdcs).trans (dif_neg hapc)))
        fun _ => (if_neg hosc).trans ((if_neg hdcs).trans (if_neg hapc))
  | osc data hdata =>
    by_cases hbel : byte = bel
    · refine hdone (.osc data hdata .bel) (dif_pos hbel) fun hcaptured => ?_
      exact (if_pos hbel).trans (congrArg some (dispatchOsc_echo D cursor hcaptured))
    by_cases hesc : byte = esc
    · exact hstay (.oscEscape data hdata) ((dif_neg hbel).trans (dif_pos hesc))
        ((if_neg hbel).trans (if_pos hesc))
    · have hpush : Stream.push ⟨items, .osc data hdata⟩ byte = ⟨items, .osc (data ++ [byte]) _⟩ :=
        (dif_neg hbel).trans (dif_neg hesc)
      refine hstay _ hpush (((if_neg hbel).trans (if_neg hesc)).trans ?_)
      rw [hpush] at hsize
      exact congrArg some (parserStateOrSizeError_within hsize)
  | oscEscape data hdata =>
    by_cases hend : byte = backslash
    · refine hdone (.osc data hdata .st) (dif_pos hend) fun hcaptured => ?_
      exact (if_pos hend).trans (congrArg some (dispatchOsc_echo D cursor hcaptured))
    · exact hdone (.cancelled data hdata byte hend) (dif_neg hend) fun _ => if_neg hend
  | string kind data hdata =>
    by_cases hesc : byte = esc
    · cases kind with
      | dcs | apc => exact hstay (.stringEscape _ data hdata) (dif_pos hesc) (if_pos hesc)
    · have hpush : Stream.push ⟨items, .string kind data hdata⟩ byte =
          ⟨items, .string kind (data ++ [byte]) _⟩ := dif_neg hesc
      rw [hpush] at hsize
      cases kind with
      | dcs | apc =>
        exact hstay _ hpush
          ((if_neg hesc).trans (congrArg some (parserStateOrSizeError_within hsize)))
  | stringEscape kind data hdata =>
    by_cases hend : byte = backslash
    · refine hdone (.string kind data hdata) (dif_pos hend) fun hcaptured => ?_
      cases kind with
      | dcs => exact (if_pos hend).trans (congrArg some (dispatchDcs_echo D cursor hcaptured))
      | apc => exact (if_pos hend).trans (dispatchApc_echo D files cursor hcaptured)
    · have hpush : Stream.push ⟨items, .stringEscape kind data hdata⟩ byte =
          ⟨items, .string kind (data ++ [esc, byte]) _⟩ := dif_neg hend
      rw [hpush] at hsize
      cases kind with
      | dcs | apc =>
        exact hstay _ hpush
          ((if_neg hend).trans (congrArg some (parserStateOrSizeError_within hsize)))

theorem advanceLoop_push (g : GraphicsIngress) (s : Stream) (result : GraphicsAdvance)
    {inputs : List Input} (h : ((inputs.map (·.byte)).foldl Stream.push s).Ordinary g.options) :
    ∃ bytes, (g.holding s).advanceLoop D result inputs =
        some (g.holding ((inputs.map (·.byte)).foldl Stream.push s),
          result.append (.output bytes)) ∧
      ((inputs.map (·.byte)).foldl Stream.push s).echo = s.echo ++ bytes := by
  induction inputs generalizing s result with
  | nil =>
    exact ⟨[], by simp [advanceLoop, GraphicsAdvance.append, GraphicsAdvance.output], by simp⟩
  | cons input inputs ih =>
    obtain ⟨front, hstep, hfront⟩ := advanceByte_push D input.files input.cursor g s
      (Stream.Ordinary.of_foldl h)
    obtain ⟨back, hloop, hback⟩ := ih (s.push input.byte) (result.append (.output front)) h
    refine ⟨front ++ back, ?_, ?_⟩
    · rw [advanceLoop, hstep]
      exact hloop.trans (by simp [GraphicsAdvance.append, GraphicsAdvance.output])
    · show ((inputs.map (·.byte)).foldl Stream.push (s.push input.byte)).echo = _
      rw [hback, hfront, List.append_assoc]

/-- The bytes of the chunks. -/
def chunkBytes (chunks : List (List Input)) : List UInt8 := chunks.flatten.map (·.byte)

theorem advanceChunks_push (g : GraphicsIngress) (henabled : g.options.enabled = true) (s : Stream)
    {chunks : List (List Input)}
    (h : ((chunkBytes chunks).foldl Stream.push s).Ordinary g.options) :
    ∃ bytes, (g.holding s).advanceChunks D chunks =
        some (g.holding ((chunkBytes chunks).foldl Stream.push s), .output bytes) ∧
      ((chunkBytes chunks).foldl Stream.push s).echo = s.echo ++ bytes := by
  induction chunks generalizing s with
  | nil => exact ⟨[], rfl, by simp [chunkBytes]⟩
  | cons chunk chunks ih =>
    have hsplit : chunkBytes (chunk :: chunks) = chunk.map (·.byte) ++ chunkBytes chunks := by
      simp [chunkBytes]
    rw [hsplit, List.foldl_append] at h ⊢
    obtain ⟨front, hloop, hfront⟩ := advanceLoop_push D g s {} (Stream.Ordinary.of_foldl h)
    obtain ⟨back, hchunks, hback⟩ := ih _ h
    have hchunk : (g.holding s).advance D chunk =
        some (g.holding ((chunk.map (·.byte)).foldl Stream.push s), .output front) :=
      (if_neg (by simp [holding, henabled])).trans hloop
    refine ⟨front ++ back, ?_, by rw [hback, hfront, List.append_assoc]⟩
    rw [advanceChunks, hchunk]
    dsimp only
    rw [hchunks]
    rfl

end GraphicsIngress

/-! ## 3. Exactness -/

namespace Piece

/-- An OSC that ends in `ESC \` is not passed on as it came, whatever follows. -/
theorem echo_append_ne {piece : Piece} (h : piece.endsOscBySt = true) (front back : List UInt8) :
    piece.echo ++ front ≠ piece.bytes ++ back := by
  cases piece with
  | plain | escape | cancelled | string => cases h
  | osc data hdata terminator =>
    cases terminator with
    | bel => cases h
    | st =>
      intro heq
      have hends : bel :: front = esc :: backslash :: back := by
        simpa [echo, bytes, Terminator.bytes] using heq
      cases hends

theorem flatMap_echo_eq_iff (items : List Piece) :
    items.flatMap echo = items.flatMap bytes ↔ ∀ piece ∈ items, piece.endsOscBySt = false := by
  induction items with
  | nil => simp
  | cons piece items ih =>
    rw [List.flatMap_cons, List.flatMap_cons, List.forall_mem_cons]
    by_cases hst : piece.endsOscBySt = true
    · refine ⟨fun heq => absurd heq (echo_append_ne hst _ _), fun h => ?_⟩
      rw [h.1] at hst
      cases hst
    · have hst : piece.endsOscBySt = false := by simpa using hst
      rw [echo_of_not_st hst, List.append_cancel_left_eq, ih]
      exact ⟨fun h => ⟨hst, h⟩, fun h => h.2⟩

end Piece

/-- What the ingress still withholds of a stream: the incomplete control sequence at its end. -/
def withheld (o : GraphicsOptions) (bytes : List UInt8) : List UInt8 :=
  if o.enabled then (Stream.read bytes).rest.bytes else []

/-- The output is the input, less what is withheld, and nothing is taken for an image. -/
def Transparent (o : GraphicsOptions) (bytes : List UInt8) (out : GraphicsAdvance) : Prop :=
  out.terminalBytes ++ withheld o bytes = bytes ∧ out.events = []

namespace GraphicsIngress

variable (D : Decoders)

theorem advanceChunks_disabled {g : GraphicsIngress} (h : g.options.enabled = false)
    (chunks : List (List Input)) :
    g.advanceChunks D chunks = some (g, .output (chunkBytes chunks)) := by
  induction chunks with
  | nil => rfl
  | cons chunk chunks ih =>
    have hchunk : g.advance D chunk = some (g, .output (chunk.map (·.byte))) :=
      if_pos (by simp [h])
    rw [advanceChunks, hchunk]
    dsimp only
    rw [ih]
    simp [GraphicsAdvance.append, GraphicsAdvance.output, chunkBytes]

/-- **The ingress is transparent to ordinary output exactly if it is switched off or no OSC of the
    stream ends in `ESC \`**, for every chunking. -/
theorem passthrough_exact_iff (o : GraphicsOptions) (chunks : List (List Input))
    (h : (Stream.read (chunkBytes chunks)).Ordinary o) :
    ∃ g out, (new o).advanceChunks D chunks = some (g, out) ∧
      (Transparent o (chunkBytes chunks) out ↔
        (o.enabled = true →
          ∀ piece ∈ (Stream.read (chunkBytes chunks)).items, piece.endsOscBySt = false)) := by
  by_cases henabled : o.enabled = true
  · obtain ⟨bytes, hrun, hecho⟩ := advanceChunks_push D (new o) henabled Stream.empty h
    refine ⟨_, _, hrun, ?_⟩
    have hecho : bytes = (Stream.read (chunkBytes chunks)).items.flatMap Piece.echo := hecho.symm
    have hbytes := Stream.read_bytes (chunkBytes chunks)
    rw [← Piece.flatMap_echo_eq_iff, ← hecho]
    show (bytes ++ withheld o (chunkBytes chunks) = chunkBytes chunks ∧ _) ↔ _
    rw [withheld, if_pos henabled]
    have hcut : bytes ++ (Stream.read (chunkBytes chunks)).rest.bytes = chunkBytes chunks ↔
        bytes = (Stream.read (chunkBytes chunks)).items.flatMap Piece.bytes := by
      conv_lhs => rhs; rw [← hbytes]
      exact List.append_left_inj _
    rw [hcut]
    exact ⟨fun h _ => h.1, fun h => ⟨h henabled, rfl⟩⟩
  · have hdisabled : o.enabled = false := by simpa using henabled
    refine ⟨new o, _, advanceChunks_disabled D hdisabled chunks, ?_⟩
    refine ⟨fun _ h => absurd h henabled, fun _ => ⟨?_, rfl⟩⟩
    rw [withheld, if_neg henabled, List.append_nil]
    rfl

/-- A byte on a screen of 80 by 24, without files. -/
def plainInput (byte : UInt8) : Input :=
  { byte
    cursor := { line := 0, row := 0, col := 0, cols := 80, rows := 24, cellWidth := 10
                cellHeight := 20 }
    files := ⟨fun _ => .error [], fun _ => .error []⟩ }

/-- Crates to which no bytes are an image. -/
def noImages : Decoders :=
  ⟨fun _ => none, fun _ => .error [], fun _ => .error [], fun _ => .error []⟩

/-- `a`, the color query `ESC ] 10 ; ? BEL` and `ESC [ m`, cut in two places: the query and the
    escape come out as they went in. -/
theorem passthrough_exact_prompt :
    let chunks := [[0x61, 0x1b], [0x5d, 0x31, 0x30, 0x3b, 0x3f], [0x07, 0x1b, 0x5b, 0x6d]].map
      (List.map plainInput)
    ∃ g out, (new {}).advanceChunks noImages chunks = some (g, out) ∧
      Transparent {} (chunkBytes chunks) out := by
  intro chunks
  obtain ⟨g, out, hrun, hiff⟩ := passthrough_exact_iff noImages {} chunks
    ⟨by decide, by decide, by decide⟩
  exact ⟨g, out, hrun, hiff.mpr fun _ => by decide⟩

/-- The window title `ESC ] 0 ; t ESC \` comes out with `BEL` at its end. -/
theorem title_loses_st :
    ¬∀ (D : Decoders) (o : GraphicsOptions) (chunks : List (List Input)),
      (Stream.read (chunkBytes chunks)).Ordinary o →
        ∃ g out, (new o).advanceChunks D chunks = some (g, out) ∧
          Transparent o (chunkBytes chunks) out := by
  intro h
  obtain ⟨g, out, hrun, hexact, -⟩ := h noImages {}
    [[0x1b, 0x5d, 0x30, 0x3b, 0x74, 0x1b, 0x5c].map plainInput] ⟨by decide, by decide, by decide⟩
  have hout : some out = some (.output [0x1b, 0x5d, 0x30, 0x3b, 0x74, 0x07]) :=
    (congrArg (Option.map Prod.snd) hrun).symm
  rw [Option.some.inj hout] at hexact
  revert hexact
  decide

end GraphicsIngress

end Hapcli.Graphics

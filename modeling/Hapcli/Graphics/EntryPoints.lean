/-
  Subject:   The four ways into the ingress: `advance`, `advance_segments`, `advance_ordered`,
             `advance_with`.

  Two of them say in which order bytes and events come, two give them apart. All four are read
  against one order, that of the bytes of the input.

  * **`entryPoints_agree`** -- the segments carry the order of the input, the other results are its
    two halves, and the ingress is left in one state.
-/
import Hapcli.Graphics.Ingress

namespace Hapcli.Graphics

/-! ## 1. The entry points -/

/-- What the caller of `advance_with` gets: the calls of `emit_terminal`, and the events. -/
structure EmittedWith where
  terminal : List (List UInt8) := []
  events : List TerminalGraphicsEvent := []

/-- The closure that `advance_with` hands to `advance_ordered`. -/
def EmittedWith.emit (emitted : EmittedWith) : TerminalGraphicsSegment → EmittedWith
  | .terminal terminalBytes => { emitted with terminal := emitted.terminal ++ [terminalBytes] }
  | .event e => { emitted with events := emitted.events ++ [e] }

namespace GraphicsIngress

variable (D : Decoders)

/-- The loop of `advance_segments`. -/
def segmentsLoop (g : GraphicsIngress) (segments : List TerminalGraphicsSegment)
    (terminalBytes : List UInt8) :
    List Input → Option (GraphicsIngress × List TerminalGraphicsSegment)
  | [] =>
    some (g, if terminalBytes ≠ [] then segments ++ [.terminal terminalBytes] else segments)
  | input :: inputs =>
    match g.advanceByte D input.files input.cursor input.byte with
    | none => none
    | some (g', result) =>
      let terminalBytes := terminalBytes ++ result.terminalBytes
      if result.events ≠ [] then
        let segments :=
          if terminalBytes ≠ [] then segments ++ [.terminal terminalBytes] else segments
        segmentsLoop g' (segments ++ result.events.map .event) [] inputs
      else if enteredControlSequence g.state g'.state && terminalBytes ≠ [] then
        segmentsLoop g' (segments ++ [.terminal terminalBytes]) [] inputs
      else segmentsLoop g' segments terminalBytes inputs

def advanceSegments (g : GraphicsIngress) (inputs : List Input) :
    Option (GraphicsIngress × List TerminalGraphicsSegment) :=
  if !g.options.enabled then some (g, [.terminal (inputs.map (·.byte))])
  else g.segmentsLoop D [] [] inputs

def advanceWith (g : GraphicsIngress) (inputs : List Input) :
    Option (GraphicsIngress × EmittedWith) :=
  (g.advanceOrdered D inputs).map fun (g, segments) => (g, segments.foldl EmittedWith.emit {})

end GraphicsIngress

/-! ## 2. One order -/

/-- A byte for the terminal, or an event. -/
inductive Output where
  | byte (b : UInt8)
  | event (e : TerminalGraphicsEvent)
  deriving DecidableEq

/-- What one byte of the input gives: bytes, then events. -/
def GraphicsAdvance.outputs (result : GraphicsAdvance) : List Output :=
  result.terminalBytes.map .byte ++ result.events.map .event

variable (segments : List TerminalGraphicsSegment)

/-- What segments carry, in their order. -/
def segmentOutputs : List Output :=
  segments.flatMap fun segment =>
    match segment with
    | .terminal bytes => bytes.map .byte
    | .event e => [.event e]

/-- The bytes among what is put out. -/
def terminalBytesOf (outputs : List Output) : List UInt8 :=
  outputs.filterMap fun output =>
    match output with
    | .byte b => some b
    | .event _ => none

/-- The events among what is put out. -/
def eventsOf (outputs : List Output) : List TerminalGraphicsEvent :=
  outputs.filterMap fun output =>
    match output with
    | .byte _ => none
    | .event e => some e

namespace GraphicsIngress

variable (D : Decoders)

/-- What each byte of the input gives, one after the other. -/
def interleavedLoop (g : GraphicsIngress) : List Input → Option (GraphicsIngress × List Output)
  | [] => some (g, [])
  | input :: inputs =>
    match g.advanceByte D input.files input.cursor input.byte with
    | none => none
    | some (g', result) =>
      (interleavedLoop g' inputs).map fun (g, outputs) => (g, result.outputs ++ outputs)

/-- The output in the order of the input. -/
def interleaved (g : GraphicsIngress) (inputs : List Input) :
    Option (GraphicsIngress × List Output) :=
  if !g.options.enabled then some (g, inputs.map fun input => .byte input.byte)
  else g.interleavedLoop D inputs

end GraphicsIngress

/-! ## 3. The segments -/

@[simp] theorem segmentOutputs_append (front back : List TerminalGraphicsSegment) :
    segmentOutputs (front ++ back) = segmentOutputs front ++ segmentOutputs back :=
  List.flatMap_append

@[simp] theorem segmentOutputs_events (events : List TerminalGraphicsEvent) :
    segmentOutputs (events.map .event) = events.map .event := by
  induction events with
  | nil => rfl
  | cons e events ih => exact congrArg (Output.event e :: ·) ih

variable (bytes : List UInt8)

@[simp] theorem segmentOutputs_pendingSegment :
    segmentOutputs (pendingSegment bytes) = bytes.map .byte := by
  unfold pendingSegment
  split
  · next h => rw [h]; rfl
  · exact List.append_nil _

theorem terminalBytesOf_append (front back : List Output) :
    terminalBytesOf (front ++ back) = terminalBytesOf front ++ terminalBytesOf back :=
  List.filterMap_append

theorem eventsOf_append (front back : List Output) :
    eventsOf (front ++ back) = eventsOf front ++ eventsOf back :=
  List.filterMap_append

@[simp] theorem terminalBytesOf_bytes : terminalBytesOf (bytes.map .byte) = bytes := by
  simp [terminalBytesOf, List.filterMap_map]

@[simp] theorem eventsOf_bytes : eventsOf (bytes.map .byte) = [] := by
  simp [eventsOf]

theorem produces_eq :
    produces segments =
      ⟨terminalBytesOf (segmentOutputs segments), eventsOf (segmentOutputs segments)⟩ := by
  induction segments with
  | nil => rfl
  | cons segment segments ih =>
    have hcons : segmentOutputs (segment :: segments) =
        segmentOutputs [segment] ++ segmentOutputs segments := segmentOutputs_append [segment] _
    rw [hcons, terminalBytesOf_append, eventsOf_append]
    cases segment with
    | terminal bytes =>
      have hone : segmentOutputs [.terminal bytes] = bytes.map .byte := List.append_nil _
      rw [hone, terminalBytesOf_bytes, eventsOf_bytes, produces, ih]
      rfl
    | event e =>
      rw [produces, ih]
      rfl

theorem foldl_emit (emitted : EmittedWith) :
    (segments.foldl EmittedWith.emit emitted).terminal.flatten =
        emitted.terminal.flatten ++ terminalBytesOf (segmentOutputs segments) ∧
      (segments.foldl EmittedWith.emit emitted).events =
        emitted.events ++ eventsOf (segmentOutputs segments) := by
  induction segments generalizing emitted with
  | nil => exact ⟨(List.append_nil _).symm, (List.append_nil _).symm⟩
  | cons segment segments ih =>
    have hcons : segmentOutputs (segment :: segments) =
        segmentOutputs [segment] ++ segmentOutputs segments := segmentOutputs_append [segment] _
    obtain ⟨hterminal, hevents⟩ := ih (emitted.emit segment)
    rw [List.foldl_cons, hterminal, hevents, hcons, terminalBytesOf_append, eventsOf_append,
      ← List.append_assoc, ← List.append_assoc]
    cases segment with
    | terminal bytes =>
      have hone : segmentOutputs [.terminal bytes] = bytes.map .byte := List.append_nil _
      rw [hone, terminalBytesOf_bytes, eventsOf_bytes, List.append_nil]
      exact ⟨congrArg (· ++ _) List.flatten_concat, rfl⟩
    | event e => exact ⟨congrArg (· ++ _) (List.append_nil _).symm, rfl⟩

namespace GraphicsIngress

variable {D : Decoders}

theorem flushed_eq (segments : List TerminalGraphicsSegment) (bytes : List UInt8) :
    (if bytes ≠ [] then segments ++ [.terminal bytes] else segments) =
      segments ++ pendingSegment bytes := by
  unfold pendingSegment
  by_cases hbytes : bytes = []
  · rw [if_neg (not_not.mpr hbytes), if_pos hbytes, List.append_nil]
  · rw [if_pos hbytes, if_neg hbytes]

variable (g : GraphicsIngress)

theorem segmentsLoop_eq (segments : List TerminalGraphicsSegment) (terminalBytes : List UInt8)
    (inputs : List Input) :
    g.segmentsLoop D segments terminalBytes inputs =
      (g.orderedLoop D terminalBytes inputs).map fun call => (call.1, segments ++ call.2) := by
  induction inputs generalizing g segments terminalBytes with
  | nil =>
    rw [segmentsLoop, orderedLoop, flushed_eq]
    rfl
  | cons input inputs ih =>
    simp only [segmentsLoop, orderedLoop]
    cases g.advanceByte D input.files input.cursor input.byte with
    | none => rfl
    | some call =>
      obtain ⟨g', bytes, events⟩ := call
      -- a flushed segment stands behind those there are
      have hflush (front : List TerminalGraphicsSegment) :
          g'.segmentsLoop D (segments ++ front) [] inputs =
            ((g'.orderedLoop D [] inputs).map fun call => (call.1, front ++ call.2)).map
              fun call => (call.1, segments ++ call.2) := by
        rw [ih, Option.map_map]
        exact congrArg (fun f => Option.map f _) (funext fun call => by simp)
      dsimp only
      by_cases hevents : events = []
      · rw [if_neg (not_not.mpr hevents), if_neg (not_not.mpr hevents)]
        by_cases hentered : enteredControlSequence g.state g'.state = true
        · rw [if_pos hentered, ← hflush]
          by_cases hbytes : terminalBytes ++ bytes = []
          · simp [hentered, hbytes, pendingSegment]
          · simp [hentered, hbytes, pendingSegment]
        · rw [if_neg hentered, if_neg (by simp [hentered]), ih]
      · rw [if_pos hevents, if_pos hevents, ← hflush, flushed_eq, List.append_assoc]

theorem orderedLoop_outputs (terminalBytes : List UInt8) (inputs : List Input) :
    (g.orderedLoop D terminalBytes inputs).map (fun call => (call.1, segmentOutputs call.2)) =
      (g.interleavedLoop D inputs).map fun call => (call.1, terminalBytes.map .byte ++ call.2) := by
  induction inputs generalizing g terminalBytes with
  | nil => simp [orderedLoop, interleavedLoop]
  | cons input inputs ih =>
    simp only [orderedLoop, interleavedLoop]
    cases g.advanceByte D input.files input.cursor input.byte with
    | none => rfl
    | some call =>
      obtain ⟨g', bytes, events⟩ := call
      have hnext := ih g' []
      -- what is flushed stands in front of what the rest of the chunk puts out
      have hflush (front : List TerminalGraphicsSegment) :
          ((g'.orderedLoop D [] inputs).map fun call => (call.1, front ++ call.2)).map
              (fun call => (call.1, segmentOutputs call.2)) =
            (g'.interleavedLoop D inputs).map fun call =>
              (call.1, segmentOutputs front ++ call.2) := by
        have hmap := congrArg (Option.map fun call : GraphicsIngress × List Output =>
          (call.1, segmentOutputs front ++ call.2)) hnext
        simpa [Option.map_map, Function.comp_def] using hmap
      dsimp only
      split
      · rw [hflush, Option.map_map]
        simp [GraphicsAdvance.outputs, Function.comp_def]
      · next hevents =>
          obtain rfl : events = [] := not_not.mp hevents
          split
          · rw [hflush, Option.map_map]
            simp [GraphicsAdvance.outputs, Function.comp_def]
          · rw [ih, Option.map_map]
            simp [GraphicsAdvance.outputs, Function.comp_def]

theorem advanceSegments_eq (inputs : List Input) :
    g.advanceSegments D inputs = g.advanceOrdered D inputs := by
  unfold advanceSegments advanceOrdered
  split
  · rfl
  · rw [segmentsLoop_eq]
    exact congrFun Option.map_id _

theorem advanceOrdered_outputs (inputs : List Input) :
    (g.advanceOrdered D inputs).map (fun call => (call.1, segmentOutputs call.2)) =
      g.interleaved D inputs := by
  unfold advanceOrdered interleaved
  split
  · simp [segmentOutputs]
  · rw [orderedLoop_outputs]
    exact congrFun Option.map_id _

/-- **The four entry points agree**, from every state and on every input, whatever cursor and
    whatever files each byte finds. -/
theorem entryPoints_agree (D : Decoders) (g : GraphicsIngress) (inputs : List Input) :
    (g.advanceOrdered D inputs).map (fun call => (call.1, segmentOutputs call.2)) =
        g.interleaved D inputs ∧
      g.advanceSegments D inputs = g.advanceOrdered D inputs ∧
      g.advance D inputs =
        (g.interleaved D inputs).map (fun call =>
          (call.1, ⟨terminalBytesOf call.2, eventsOf call.2⟩)) ∧
      (g.advanceWith D inputs).map (fun call =>
          (call.1, call.2.terminal.flatten, call.2.events)) =
        (g.interleaved D inputs).map (fun call =>
          (call.1, terminalBytesOf call.2, eventsOf call.2)) := by
  refine ⟨advanceOrdered_outputs g inputs, advanceSegments_eq g inputs, ?_, ?_⟩
  · rw [← advanceOrdered_eq, ← advanceOrdered_outputs, Option.map_map]
    exact congrArg (fun f => Option.map f _)
      (funext fun call => congrArg (Prod.mk call.1) (produces_eq call.2))
  · rw [← advanceOrdered_outputs, advanceWith, Option.map_map, Option.map_map]
    refine congrArg (fun f => Option.map f _) (funext fun call => congrArg (Prod.mk call.1) ?_)
    obtain ⟨hterminal, hevents⟩ := foldl_emit call.2 {}
    exact Prod.ext hterminal hevents

end GraphicsIngress

end Hapcli.Graphics

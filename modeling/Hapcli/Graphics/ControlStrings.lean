/-
  Subject:   How a byte stream is cut into plain bytes, escapes and control strings: OSC (`ESC ]`),
             DCS (`ESC P`) and APC (`ESC _`).

  Nothing here knows what is done with a piece. A piece holds the proof that it is one, so that its
  bytes determine it.

  * `Stream.read_bytes` -- **every stream of bytes is cut without loss**.
-/
import Hapcli.Terminal.OscFraming
import Mathlib.Data.List.Induction

namespace Hapcli.Graphics

open Hapcli.Terminal (bel esc backslash bracket)

/-! ## 1. Pieces -/

/-- The text of an OSC: any bytes but `BEL` and `ESC`. -/
def OscText (data : List UInt8) : Prop := ∀ byte ∈ data, byte ≠ bel ∧ byte ≠ esc

/-- The text of a DCS or APC: an `ESC` stands for itself together with the byte behind it, unless
    that is the backslash which ends the string. -/
inductive Body : List UInt8 → Prop where
  | nil : Body []
  | byte {data : List UInt8} {byte : UInt8} (hdata : Body data) (h : byte ≠ esc) :
      Body (data ++ [byte])
  | pair {data : List UInt8} {byte : UInt8} (hdata : Body data) (h : byte ≠ backslash) :
      Body (data ++ [esc, byte])

/-- The two forms of the end of an OSC. -/
inductive Terminator where
  | bel
  | st
  deriving DecidableEq

def Terminator.bytes : Terminator → List UInt8
  | .bel => [Terminal.bel]
  | .st => [esc, backslash]

/-- The control strings that only `ESC \` ends. -/
inductive StringKind where
  | dcs
  | apc
  deriving DecidableEq

/-- The byte behind the `ESC` that opens the string: `P` or `_`. -/
def StringKind.introducer : StringKind → UInt8
  | .dcs => 0x50
  | .apc => 0x5f

/-- The `ESC` followed by this byte opens a control string. -/
def Opens (byte : UInt8) : Prop :=
  byte = bracket ∨ byte = StringKind.dcs.introducer ∨ byte = StringKind.apc.introducer

/-- A complete piece of a stream. -/
inductive Piece where
  | plain (byte : UInt8) (h : byte ≠ esc)
  | escape (byte : UInt8) (h : ¬Opens byte)
  | osc (data : List UInt8) (h : OscText data) (terminator : Terminator)
  | cancelled (data : List UInt8) (h : OscText data) (byte : UInt8) (hbyte : byte ≠ backslash)
  | string (kind : StringKind) (data : List UInt8) (h : Body data)

namespace Piece

/-- The piece as it stands in the stream. -/
def bytes : Piece → List UInt8
  | plain byte _ => [byte]
  | escape byte _ => [esc, byte]
  | osc data _ terminator => [esc, bracket] ++ data ++ terminator.bytes
  | cancelled data _ byte _ => [esc, bracket] ++ data ++ [esc, byte]
  | string kind data _ => [esc, kind.introducer] ++ data ++ [esc, backslash]

/-- The text of the control string. -/
def data : Piece → List UInt8
  | plain _ _ => []
  | escape _ _ => []
  | osc data _ _ => data
  | cancelled data _ _ _ => data
  | string _ data _ => data

/-- An OSC that ends in `ESC \`. -/
def endsOscBySt : Piece → Bool
  | osc _ _ .st => true
  | _ => false

end Piece

/-- What stands behind the last complete piece: nothing, or the front of one. -/
inductive Rest where
  | none
  | escape
  | osc (data : List UInt8) (h : OscText data)
  | oscEscape (data : List UInt8) (h : OscText data)
  | string (kind : StringKind) (data : List UInt8) (h : Body data)
  | stringEscape (kind : StringKind) (data : List UInt8) (h : Body data)

namespace Rest

def bytes : Rest → List UInt8
  | none => []
  | escape => [esc]
  | osc data _ => [esc, bracket] ++ data
  | oscEscape data _ => [esc, bracket] ++ data ++ [esc]
  | string kind data _ => [esc, kind.introducer] ++ data
  | stringEscape kind data _ => [esc, kind.introducer] ++ data ++ [esc]

def data : Rest → List UInt8
  | none => []
  | escape => []
  | osc data _ => data
  | oscEscape data _ => data
  | string _ data _ => data
  | stringEscape _ data _ => data

end Rest

/-! ## 2. Streams -/

theorem OscText.concat {data : List UInt8} {byte : UInt8} (h : OscText data) (hbel : byte ≠ bel)
    (hesc : byte ≠ esc) : OscText (data ++ [byte]) := by
  intro b hb
  rcases List.mem_append.mp hb with hb | hb
  · exact h b hb
  · rw [List.mem_singleton.mp hb]
    exact ⟨hbel, hesc⟩

/-- A stream, cut. -/
structure Stream where
  items : List Piece
  rest : Rest

namespace Stream

def empty : Stream := ⟨[], .none⟩

def bytes (s : Stream) : List UInt8 := s.items.flatMap Piece.bytes ++ s.rest.bytes

/-- One more piece is complete. -/
def complete (s : Stream) (piece : Piece) : Stream := ⟨s.items ++ [piece], .none⟩

/-- One more byte. -/
def push (s : Stream) (byte : UInt8) : Stream :=
  match s.rest with
  | .none => if h : byte = esc then ⟨s.items, .escape⟩ else s.complete (.plain byte h)
  | .escape =>
    if hosc : byte = bracket then ⟨s.items, .osc [] (by simp [OscText])⟩
    else if hdcs : byte = StringKind.dcs.introducer then ⟨s.items, .string .dcs [] .nil⟩
    else if hapc : byte = StringKind.apc.introducer then ⟨s.items, .string .apc [] .nil⟩
    else s.complete (.escape byte (by simp [Opens, hosc, hdcs, hapc]))
  | .osc data h =>
    if hbel : byte = bel then s.complete (.osc data h .bel)
    else if hesc : byte = esc then ⟨s.items, .oscEscape data h⟩
    else ⟨s.items, .osc (data ++ [byte]) (h.concat hbel hesc)⟩
  | .oscEscape data h =>
    if hend : byte = backslash then s.complete (.osc data h .st)
    else s.complete (.cancelled data h byte hend)
  | .string kind data h =>
    if hesc : byte = esc then ⟨s.items, .stringEscape kind data h⟩
    else ⟨s.items, .string kind (data ++ [byte]) (h.byte hesc)⟩
  | .stringEscape kind data h =>
    if hend : byte = backslash then s.complete (.string kind data h)
    else ⟨s.items, .string kind (data ++ [esc, byte]) (h.pair hend)⟩

/-- A stream of bytes, cut from the left. -/
def read (bytes : List UInt8) : Stream := bytes.foldl push empty

theorem read_concat (bytes : List UInt8) (byte : UInt8) :
    read (bytes ++ [byte]) = (read bytes).push byte := by simp [read]

theorem bytes_push (s : Stream) (byte : UInt8) : (s.push byte).bytes = s.bytes ++ [byte] := by
  obtain ⟨items, rest⟩ := s
  cases rest <;> simp only [push] <;> split_ifs <;>
    simp_all [bytes, complete, Piece.bytes, Rest.bytes, Terminator.bytes]

theorem read_bytes (bytes : List UInt8) : (read bytes).bytes = bytes := by
  induction bytes using List.reverseRecOn with
  | nil => rfl
  | append_singleton front byte ih => rw [read_concat, bytes_push, ih]

theorem push_items (s : Stream) (byte : UInt8) : ∃ more, (s.push byte).items = s.items ++ more := by
  obtain ⟨items, rest⟩ := s
  cases rest <;> simp only [push] <;> split_ifs <;> first
    | exact ⟨[], (List.append_nil _).symm⟩
    | exact ⟨[_], rfl⟩

/-- No text is longer than `limit`. -/
def Within (limit : Nat) (s : Stream) : Prop :=
  (∀ piece ∈ s.items, piece.data.length ≤ limit) ∧ s.rest.data.length ≤ limit

theorem within_push {limit : Nat} {s : Stream} {byte : UInt8} (h : (s.push byte).Within limit) :
    s.Within limit := by
  obtain ⟨more, hmore⟩ := push_items s byte
  refine ⟨fun piece hpiece => h.1 piece ?_, ?_⟩
  · rw [hmore]
    exact List.mem_append_left _ hpiece
  · obtain ⟨items, rest⟩ := s
    -- a completed piece is the last of the items
    have hlast : ∀ piece, (push ⟨items, rest⟩ byte).items = items ++ [piece] →
        piece.data.length ≤ limit := fun piece heq =>
      h.1 piece (heq ▸ List.mem_append_right _ (List.mem_singleton_self _))
    have hrest := h.2
    cases rest with
    | none | escape => exact Nat.zero_le _
    | osc data hdata =>
      by_cases hbel : byte = bel
      · exact hlast (.osc data hdata .bel) (by simp [push, hbel, complete])
      · by_cases hesc : byte = esc
        · simpa [push, hesc, Terminal.esc, Terminal.bel, Rest.data] using hrest
        · have : data.length + 1 ≤ limit := by simpa [push, hbel, hesc, Rest.data] using hrest
          exact Nat.le_of_succ_le this
    | oscEscape data hdata =>
      by_cases hend : byte = backslash
      · exact hlast (.osc data hdata .st) (by simp [push, hend, complete])
      · exact hlast (.cancelled data hdata byte hend) (by simp [push, hend, complete])
    | string kind data hdata =>
      by_cases hesc : byte = esc
      · simpa [push, hesc, Rest.data] using hrest
      · have : data.length + 1 ≤ limit := by simpa [push, hesc, Rest.data] using hrest
        exact Nat.le_of_succ_le this
    | stringEscape kind data hdata =>
      by_cases hend : byte = backslash
      · exact hlast (.string kind data hdata) (by simp [push, hend, complete])
      · have : data.length + 2 ≤ limit := by simpa [push, hend, Rest.data] using hrest
        exact Nat.le_of_add_right_le this

end Stream

end Hapcli.Graphics

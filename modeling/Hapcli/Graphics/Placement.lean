/-
  Subject:   Where an image is shown: the cells it covers, the part of it that they show, and the
             bytes that move the cursor behind it.
-/
import Hapcli.Graphics.Decode

namespace Hapcli.Graphics

/-! ## 1. Cells -/

structure GraphicsCursor where
  line : Int
  row : Nat
  col : Nat
  cols : Nat
  rows : Nat
  cellWidth : UInt16
  cellHeight : UInt16
  deriving DecidableEq

def divCeil (n d : Nat) : Nat := (n + d - 1) / d

def GraphicsCursor.imageCells (cursor : GraphicsCursor) (pixelWidth pixelHeight : UInt32) :
    Nat × Nat :=
  let cols := max (divCeil pixelWidth.toNat (max cursor.cellWidth.toNat 1)) 1
  let rows := max (divCeil pixelHeight.toNat (max cursor.cellHeight.toNat 1)) 1
  (min cols (max cursor.cols 1), min rows (max cursor.rows 1))

/-- The loop of `advance_bytes`: every row of the image from the column it starts in. -/
def advanceRows (imageCols terminalCols : Nat) : Nat → Nat → List UInt8
  | 0, _ => []
  | remainingRows + 1, col =>
    let spaces := List.replicate (min imageCols (max (terminalCols - col) 1)) (0x20 : UInt8)
    if remainingRows = 0 then spaces
    else spaces ++ [0x0d, 0x0a] ++ advanceRows imageCols terminalCols remainingRows 0

def advanceBytes (startCol imageCols imageRows terminalCols : Nat) : List UInt8 :=
  if imageCols = 0 ∨ imageRows = 0 then []
  else advanceRows imageCols terminalCols imageRows startCol

/-! ## 2. Placements -/

inductive TerminalImageProtocol where
  | iterm2
  | kitty
  | sixel
  deriving DecidableEq

structure TerminalImagePlacement where
  id : UInt64
  protocol : TerminalImageProtocol
  line : Int
  row : Nat
  col : Nat
  cols : Nat
  rows : Nat
  pixelWidth : UInt32
  pixelHeight : UInt32
  sourceX : UInt32
  sourceY : UInt32
  sourceWidth : UInt32
  sourceHeight : UInt32
  zIndex : Int
  placeholder : Bool
  deriving DecidableEq

structure PlacementOptions where
  moveCursor : Bool
  cols : Option Nat
  rows : Option Nat
  sourceX : UInt32
  sourceY : UInt32
  sourceWidth : UInt32
  sourceHeight : UInt32
  zIndex : Int
  deriving DecidableEq

/-- `clamp(1, upper.max(1))`. -/
def clampCells (cells upper : Nat) : Nat := min (max cells 1) (max upper 1)

def placementForImage (o : GraphicsOptions) (id : UInt64) (protocol : TerminalImageProtocol)
    (pixelWidth pixelHeight : UInt32) (cursor : GraphicsCursor) (options : PlacementOptions) :
    TerminalImagePlacement × List UInt8 :=
  let cells := cursor.imageCells options.sourceWidth options.sourceHeight
  let cols := clampCells (options.cols.getD cells.1) cursor.cols
  let rows := clampCells (options.rows.getD cells.2) cursor.rows
  ({ id, protocol, line := cursor.line, row := cursor.row, col := cursor.col, cols, rows, pixelWidth
     pixelHeight, sourceX := options.sourceX, sourceY := options.sourceY
     sourceWidth := options.sourceWidth, sourceHeight := options.sourceHeight
     zIndex := options.zIndex, placeholder := o.showPlaceholder },
    if options.moveCursor then advanceBytes cursor.col cols rows cursor.cols else [])

/-- The whole image, at its own size. -/
def wholeImage (moveCursor : Bool) (width height : UInt32) : PlacementOptions :=
  { moveCursor, cols := none, rows := none, sourceX := 0, sourceY := 0, sourceWidth := width
    sourceHeight := height, zIndex := 0 }

/-- `u32::saturating_sub`. -/
def saturatingSub (a b : UInt32) : UInt32 := if b ≤ a then a - b else 0

/-- `kitty_source_rect` along one axis: the offset and the extent of the part. -/
def kittySourceSpan (offset extent : Option UInt32) (imageExtent : UInt32) : UInt32 × UInt32 :=
  let source := min (offset.getD 0) (saturatingSub imageExtent 1)
  let room := saturatingSub imageExtent source
  (source, max (min ((extent.filter (0 < ·)).getD room) room) 1)

def completeKittyDisplayCells (cols rows : Option Nat) (sourceWidth sourceHeight : UInt32)
    (cursor : GraphicsCursor) : Option Nat × Option Nat :=
  let cellWidth := (max cursor.cellWidth 1).toNat
  let cellHeight := (max cursor.cellHeight 1).toNat
  let scale (cells cell across along nextCell : Nat) : Nat :=
    max (divCeil (min (usize (cells * cell) * across) (2 ^ 64 - 1) / max along 1) nextCell) 1
  match cols, rows with
  | some cols, none =>
    (some cols, some (scale cols cellWidth sourceHeight.toNat sourceWidth.toNat cellHeight))
  | none, some rows =>
    (some (scale rows cellHeight sourceWidth.toNat sourceHeight.toNat cellWidth), some rows)
  | cols, rows => (cols, rows)

def kittyPlacementOptions (params : Params) (imageWidth imageHeight : UInt32)
    (cursor : GraphicsCursor) : PlacementOptions :=
  let across := kittySourceSpan (parseU32 (params.get 'x')) (parseU32 (params.get 'w')) imageWidth
  let down := kittySourceSpan (parseU32 (params.get 'y')) (parseU32 (params.get 'h')) imageHeight
  let cells := completeKittyDisplayCells (parsePositiveUsize (params.get 'c'))
    (parsePositiveUsize (params.get 'r')) across.2 down.2 cursor
  { moveCursor := !params.isOne 'C', cols := cells.1, rows := cells.2, sourceX := across.1
    sourceY := down.1, sourceWidth := across.2, sourceHeight := down.2
    zIndex := ((params.get 'z').bind Terminal.parseI32).getD 0 }

end Hapcli.Graphics

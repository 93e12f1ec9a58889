/-
  Subject:   The parameters of graphics commands: `key=value` parts of a control string, and the
             numbers and sizes read from them.

  A later part replaces an earlier one with the same key, as in the `HashMap` they are collected
  into. Keys and values are decoded lossily.
-/
import Hapcli.Terminal.OscPayload
import Mathlib.Data.List.AList

namespace Hapcli.Graphics

open Hapcli.Rust
open Hapcli.Terminal (parseI32)

/-! ## 1. Splitting -/

/-- `HashMap<String, String>`. -/
abbrev Params := AList fun _ : Str => Str

variable (data : List UInt8)

def splitParams (separator : UInt8) : Params :=
  (data.splitOnP (· == separator)).foldl
    (fun params part =>
      match part.idxOf? 0x3d with
      | some index =>
        params.insert (fromUtf8Lossy (part.take index)) (fromUtf8Lossy (part.drop (index + 1)))
      | none => params)
    ∅

def parseSemicolonParams : Params := splitParams data 0x3b

def parseCommaParams : Params := splitParams data 0x2c

def parseKittyParamsAndPayload : Option (Params × List UInt8) :=
  (data.idxOf? 0x3b).map fun separator =>
    (parseCommaParams (data.take separator), data.drop (separator + 1))

def parseKittyCommand : Params × Option (List UInt8) :=
  match data.idxOf? 0x3b with
  | some separator => (parseCommaParams (data.take separator), some (data.drop (separator + 1)))
  | none => (parseCommaParams data, none)

/-- `params.get(key)`, for a key of one character. -/
def Params.get (params : Params) (key : Char) : Option Str := params.lookup [key]

/-- `params.get(key).is_some_and(|value| value == "1")`. -/
def Params.isOne (params : Params) (key : Char) : Bool := params.get key == some ['1']

/-! ## 2. Values -/

/-- `u32::MAX`. -/
def u32Max : Nat := 2 ^ 32 - 1

/-- `str::parse::<u32>`. -/
def toU32 (value : Str) : Option UInt32 := (parseUnsigned u32Max value).map UInt32.ofNat

/-- `str::parse::<u64>`, for an image id. -/
def toId (value : Str) : Option UInt64 := (parseU64 value).map UInt64.ofNat

/-- `str::parse::<usize>`. -/
def toUsize (value : Str) : Option Nat := parseUnsigned u64Max value

def parsePixelSize (value : Str) (fallback : UInt32) : Option UInt32 :=
  if ['p', 'x'].isSuffixOf value then toU32 (value.take (value.length - 2))
  else if value = ['a', 'u', 't', 'o'] then some fallback
  else toU32 value

variable (value : Option Str)

def parseU32 : Option UInt32 := value.bind toU32

def parsePositiveUsize : Option Nat := (value.bind toUsize).filter (0 < ·)

/-- `parse_kitty_frame_index`: frames are counted from one. -/
def parseKittyFrameIndex : Option Nat :=
  (parsePositiveUsize value).map (· - 1)

/-- `parse_kitty_frame_gap`: the delay, and whether the frame is gapless. -/
def parseKittyFrameGap : Option (UInt32 × Bool) :=
  (value.bind parseI32).bind fun gap =>
    if gap < 0 then some (0, true)
    else if gap = 0 then none
    else some (UInt32.ofNat gap.toNat, false)

def kittyLoopLimit : Option UInt32 := (parseU32 value).filter (1 < ·)

def parseKittyRgbaColor : Option (List UInt8) :=
  (parseU32 value).map fun color : UInt32 =>
    [(color >>> 24).toUInt8, (color >>> 16).toUInt8, (color >>> 8).toUInt8, color.toUInt8]

theorem parseKittyRgbaColor_length {value : Option Str} {color : List UInt8}
    (h : parseKittyRgbaColor value = some color) : color.length = 4 := by
  obtain ⟨number, -, rfl⟩ := Option.map_eq_some_iff.mp h
  rfl

end Hapcli.Graphics

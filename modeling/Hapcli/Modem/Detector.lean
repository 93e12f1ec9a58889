/-
  Subject:   Where a modem transfer may start in terminal output (`detector.rs`), and what the
             consumer makes of it: which request a start stands for, which bytes have to wait, which
             commands announce X/YMODEM (the free functions of `consumer.rs`).
-/
import Hapcli.Modem.ZmodemTransfer
import Hapcli.Modem.Xymodem

namespace Hapcli.Modem

open Hapcli.Rust

/-! ## 1. The detector -/

def detectorTailBytes : Nat := 64

inductive DetectedModemProtocol where
  | xmodem
  | xymodemNegotiation
  | ymodem
  | zmodem
  deriving DecidableEq

structure DetectedModemStart where
  protocol : DetectedModemProtocol
  offset : Nat
  deriving DecidableEq

/-- `find_pattern_crossing_current_chunk`: the first place of the pattern that reaches into the
    current chunk. -/
def findPatternCrossingCurrentChunk (window : List UInt8) (currentStart : Nat)
    (pattern : List UInt8) : Option Nat :=
  if pattern = [] ∨ pattern.length > window.length then none
  else (List.range (window.length - pattern.length + 1)).find? fun index =>
    (window.drop index).take pattern.length == pattern && index + pattern.length > currentStart

/-- The patterns a ZMODEM header starts with. -/
def zmodemPatterns : List (List UInt8) :=
  [[zpad, zpad, zdle, zhex], [zpad, zdle, zbin], [zpad, zdle, zbin32]]

def findZmodemStart (window : List UInt8) (currentStart : Nat) : Option DetectedModemStart :=
  ((zmodemPatterns.filterMap (findPatternCrossingCurrentChunk window currentStart)).min?).map
    fun offset => ⟨.zmodem, offset⟩

def detectXymodemStart (window : List UInt8) (currentStart : Nat) : Option DetectedModemStart :=
  [wantCrc, nak].findSome? fun byte =>
    (findPatternCrossingCurrentChunk window currentStart [byte]).map fun offset =>
      ⟨.xymodemNegotiation, offset⟩

structure ModemDetector where
  tail : List UInt8 := []

def ModemDetector.scanFirst (detector : ModemDetector) (chunk : List UInt8) :
    ModemDetector × Option DetectedModemStart :=
  if chunk = [] then (detector, none)
  else
    let window := detector.tail ++ chunk
    let currentStart := detector.tail.length
    let start := (findZmodemStart window currentStart).or (detectXymodemStart window currentStart)
    let keep := min detectorTailBytes window.length
    (⟨window.drop (window.length - keep)⟩,
      start.map fun start => { start with offset := start.offset - currentStart })

/-! ## 2. Requests -/

inductive ModemTransferDirection where
  | upload
  | download
  deriving DecidableEq

structure ModemTransferRequest where
  protocol : DetectedModemProtocol
  direction : ModemTransferDirection
  deriving DecidableEq

def isShellPromptToken (token : Str) : Bool :=
  token == ['P', 'S'] || token.getLast?.any fun last =>
    last == '$' || last == '#' || last == '>' || last == '%'

/-- The name a command is called by: the last component of its path, without what may be quoted
    around it. -/
def commandName (token : Str) : Str :=
  trimMatches (fun c => !c.isAlphanum && c != '-' && c != '_')
    (lastPiece (fun c => c == '/' || c == '\\') token)

/-- The requests the X/YMODEM commands stand for. -/
def commandRequest (command : Str) : Option (DetectedModemProtocol × ModemTransferDirection) :=
  if command ∈ ["rx".toList, "lrx".toList] then some (.xmodem, .upload)
  else if command ∈ ["rb".toList, "ry".toList, "lrb".toList, "lry".toList] then
    some (.ymodem, .upload)
  else if command ∈ ["sx".toList, "lsx".toList] then some (.xmodem, .download)
  else if command ∈ ["sb".toList, "sy".toList, "lsb".toList, "lsy".toList] then
    some (.ymodem, .download)
  else none

/-- The token loop of `xymodem_command_hint`: the first command behind any prompt. -/
def hintOfTokens : List Str → Option (DetectedModemProtocol × ModemTransferDirection)
  | [] => none
  | token :: tokens =>
    match commandRequest (commandName token) with
    | some request => some request
    | none => if isShellPromptToken token then hintOfTokens tokens else none

def xymodemCommandHint (line : Str) : Option (DetectedModemProtocol × ModemTransferDirection) :=
  hintOfTokens (splitWhitespace line)

def xymodemNegotiationProtocolHint (plainHistory : List UInt8) : Option DetectedModemProtocol :=
  ((lines (fromUtf8Lossy plainHistory)).reverse.take 4).findSome? fun line =>
    match xymodemCommandHint line with
    | some (protocol, .upload) => some protocol
    | _ => none

/-- `xymodem_download_request`: a command line that was submitted. -/
def xymodemDownloadRequest (plainHistory : List UInt8) : Option ModemTransferRequest :=
  if plainHistory.getLast? ≠ some 0x0d ∧ plainHistory.getLast? ≠ some 0x0a then none
  else match (lines (fromUtf8Lossy plainHistory)).getLast? with
    | none => none
    | some line =>
      match xymodemCommandHint line with
      | some (protocol, .download) => some ⟨protocol, .download⟩
      | _ => none

/-- The header at the front of `bytes`, if one is complete and valid. -/
def completeHeader (bytes : List UInt8) : Option ZHeader :=
  match parseZmodemHeaderPrefix bytes with
  | .ok header => header
  | .error _ => none

/-- The direction a ZMODEM header starts a transfer in. -/
def zmodemDirection : ZFrameType → Option ModemTransferDirection
  | .zrInit => some .upload
  | .zrqInit | .zFile | .zData => some .download
  | _ => none

variable (protocol : DetectedModemProtocol)

def requestForProtocol (bytes plainHistory : List UInt8) : Option ModemTransferRequest :=
  match protocol with
  | .zmodem => do
      let header ← completeHeader bytes
      let direction ← zmodemDirection header.frameType
      return ⟨.zmodem, direction⟩
  | .xymodemNegotiation => do
      let protocol ← xymodemNegotiationProtocolHint plainHistory
      return ⟨protocol, .upload⟩
  | .xmodem | .ymodem => some ⟨protocol, .download⟩

def shouldWaitForProtocolConfirmation (bytes : List UInt8) : Bool :=
  protocol == .zmodem && decide (parseZmodemHeaderPrefix bytes = .ok none)

def zmodemControlPrefixLen (bytes : List UInt8) : Option Nat :=
  if protocol ≠ .zmodem then none
  else do
    let header ← completeHeader bytes
    if (zmodemDirection header.frameType).isSome then none
    else [false, true].findSome? fun includeXon =>
      let encoded := encodeHexHeader header.frameType header.position includeXon
      if encoded.isPrefixOf bytes then some encoded.length else none

/-- The proper beginnings of what the detector looks for. -/
def modemPrefixes : List (List UInt8) :=
  [[zpad], [zpad, zpad], [zpad, zpad, zdle], [zpad, zdle], [soh], [stx]]

def possibleModemPrefixSuffixLen (bytes : List UInt8) : Nat :=
  (((modemPrefixes.filter fun p => p.isSuffixOf bytes).map List.length).max?).getD 0

end Hapcli.Modem

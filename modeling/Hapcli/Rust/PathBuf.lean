/-
  Subject:   `std::path` on Unix: paths as bytes, taken apart at their slashes.
-/
import Hapcli.Rust.Text

namespace Hapcli.Rust

/-- `PathBuf` (or `&Path`). -/
abbrev PathBuf := List UInt8

namespace PathBuf

/-- `Component`: a dot in front and double dots are names here. -/
inductive Component where
  | rootDir
  | name (bytes : List UInt8)
  deriving DecidableEq

/-- What stands between the slashes. -/
def pieces (path : PathBuf) : List (List UInt8) := path.splitOnP (· == '/'.toUInt8)

/-- Nothing, or a dot: no component, unless it is the first piece. -/
def isGap (piece : List UInt8) : Bool := piece = [] ∨ piece = ['.'.toUInt8]

def components (path : PathBuf) : List Component :=
  let names := fun rest : List (List UInt8) => (rest.filter (!isGap ·)).map Component.name
  match pieces path with
  | [] => []
  | [] :: rest => if rest = [] then [] else .rootDir :: names rest
  | first :: rest => .name first :: names rest

def startsWith (path base : PathBuf) : Bool := components base <+: components path

/-- `==` of paths. -/
def samePath (path path' : PathBuf) : Bool := components path = components path'

/-- The pieces behind this many names. -/
def dropNames : Nat → List (List UInt8) → List (List UInt8)
  | _, [] => []
  | 0, rest => rest
  | n + 1, piece :: rest => if isGap piece then dropNames (n + 1) rest else dropNames n rest

/-- The pieces without the gaps at the end. -/
def trimGapsRight (rest : List (List UInt8)) : List (List UInt8) :=
  (rest.reverse.dropWhile isGap).reverse

/-- Pieces and slashes between them. -/
def joinPieces (rest : List (List UInt8)) : PathBuf := List.intercalate ['/'.toUInt8] rest

/-- `Components::as_path` when this many components have been taken: what is left, its gaps trimmed
    at the end, and in front if one was taken. -/
def remaining (taken : Nat) (path : PathBuf) : PathBuf :=
  match taken, pieces path with
  | _, [] => []
  | 0, [] :: rest =>
    if rest = [] then [] else '/'.toUInt8 :: joinPieces (trimGapsRight rest)
  | 0, first :: rest => joinPieces (first :: trimGapsRight rest)
  | n + 1, _ :: rest => joinPieces (trimGapsRight ((dropNames n rest).dropWhile isGap))

def stripPrefix (path base : PathBuf) : Option PathBuf :=
  if startsWith path base then some (remaining (components base).length path) else none

def join (path suffix : PathBuf) : PathBuf :=
  if suffix.head? = some '/'.toUInt8 then suffix
  else if path = [] ∨ path.getLast? = some '/'.toUInt8 then path ++ suffix
  else path ++ '/'.toUInt8 :: suffix

def fileName (path : PathBuf) : Option (List UInt8) :=
  match (components path).getLast? with
  | some (.name bytes) =>
    if bytes = ['.'.toUInt8] ∨ bytes = ['.'.toUInt8, '.'.toUInt8] then none else some bytes
  | _ => none

/-- `display`, `to_string_lossy`. -/
def display (path : PathBuf) : Str := fromUtf8Lossy path

theorem stripPrefix_isSome_iff {path base : PathBuf} :
    (stripPrefix path base).isSome = true ↔ startsWith path base = true := by
  unfold stripPrefix
  split_ifs with h
  · exact iff_of_true rfl h
  · exact iff_of_false Bool.false_ne_true h

theorem startsWith_of_samePath {path base : PathBuf} (h : samePath path base = true) :
    startsWith path base = true := by
  unfold startsWith
  rw [of_decide_eq_true h]
  exact decide_eq_true List.prefix_rfl

end PathBuf

end Hapcli.Rust

/-
  Subject:   Where a file of the editor lies (`hapcli-ide-core`: `IdeLocation` of `model.rs`, the
             functions on locations of `workspace.rs`).

  * **`remap_isSome_iff`** -- a rename moves all files below a folder or none of them.
-/
import Hapcli.Rust.ByteOffsets
import Hapcli.Rust.PathBuf
import Hapcli.Rust.Paths

namespace Hapcli.Ide

open Hapcli.Rust

/-! ## 1. Locations -/

/-- `IdeLocation`: `Local` and `Remote`. -/
inductive IdeLocation where
  | localFile (path : PathBuf)
  | remoteFile (nodeId path : Str)
  deriving DecidableEq

namespace IdeLocation

def stableKey : IdeLocation → Str
  | localFile path => "local:".toList ++ path.display
  | remoteFile nodeId path => "remote:".toList ++ nodeId ++ ':' :: path

def displayName : IdeLocation → Str
  | localFile path =>
    match path.fileName.map fromUtf8 with
    | some (.ok name) => name
    | _ => path.display
  | remoteFile _ path => ((slashPieces path).reverse.find? (· ≠ [])).getD path

end IdeLocation

open IdeLocation

/-! ## 2. Folders -/

def normalizeRemoteModelPath (path : Str) : Str :=
  let trimmed := trim path
  if trimmed = [] ∨ trimmed = ['/'] then ['/']
  else
    let normalized := trimmed.map fun c => if c = '\\' then '/' else c
    let withoutTrailing := trimEndMatches '/' normalized
    if withoutTrailing.head? = some '/' then withoutTrailing else '/' :: withoutTrailing

def pathIsUnder (candidate root : Str) : Bool :=
  let candidate := normalizeRemoteModelPath candidate
  let root := normalizeRemoteModelPath root
  candidate = root ∨ trimEndMatches '/' root ++ ['/'] <+: candidate

def pathSuffixUnder (candidate root : Str) : Option Str :=
  if pathIsUnder candidate root then
    some (((splitAtByte (byteLen (trimEndMatches '/' root)) candidate).map (·.2)).getD [])
  else none

def appendRemoteSuffix (root suffix : Str) : Str :=
  if suffix = [] then normalizeRemoteModelPath root
  else trimEndMatches '/' (normalizeRemoteModelPath root) ++ '/' :: suffix.dropWhile (· == '/')

def locationIsUnder : IdeLocation → IdeLocation → Bool
  | remoteFile candidateNode candidatePath, remoteFile rootNode rootPath =>
    candidateNode = rootNode ∧ pathIsUnder candidatePath rootPath
  | localFile candidate, localFile root => candidate.samePath root || candidate.startsWith root
  | _, _ => false

def remapLocationUnder : IdeLocation → IdeLocation → IdeLocation → Option IdeLocation
  | remoteFile candidateNode candidatePath, remoteFile oldNode oldPath, remoteFile newNode newPath =>
    if candidateNode = oldNode ∧ oldNode = newNode then
      (pathSuffixUnder candidatePath oldPath).map fun suffix =>
        remoteFile newNode (appendRemoteSuffix newPath suffix)
    else none
  | localFile candidate, localFile oldPath, localFile newPath =>
    if candidate.samePath oldPath ∨ candidate.startsWith oldPath then
      (candidate.stripPrefix oldPath).map fun suffix => localFile (newPath.join suffix)
    else none
  | _, _, _ => none

/-- Both are on this machine or on the same node. -/
def SamePlace : IdeLocation → IdeLocation → Prop
  | remoteFile node _, remoteFile node' _ => node = node'
  | localFile _, localFile _ => True
  | _, _ => False

/-- A file below a folder is moved with it exactly where the new folder is in the same place. -/
theorem remap_isSome_iff {candidate old new : IdeLocation}
    (h : locationIsUnder candidate old = true) :
    (remapLocationUnder candidate old new).isSome = true ↔ SamePlace old new := by
  cases candidate with
  | localFile candidate =>
    cases old with
    | remoteFile => cases h
    | localFile old =>
      cases new with
      | remoteFile => exact iff_of_false Bool.false_ne_true id
      | localFile new =>
        have hunder : candidate.samePath old = true ∨ candidate.startsWith old = true :=
          (Bool.or_eq_true _ _).mp h
        have hstarts : candidate.startsWith old = true :=
          hunder.elim PathBuf.startsWith_of_samePath id
        dsimp only [remapLocationUnder]
        rw [if_pos hunder, Option.isSome_map, PathBuf.stripPrefix_isSome_iff]
        exact iff_of_true hstarts trivial
  | remoteFile candidateNode candidatePath =>
    cases old with
    | localFile => cases h
    | remoteFile oldNode oldPath =>
      cases new with
      | localFile => exact iff_of_false Bool.false_ne_true id
      | remoteFile newNode newPath =>
        obtain ⟨rfl, hunder⟩ := of_decide_eq_true h
        have hsuffix : (pathSuffixUnder candidatePath oldPath).isSome = true := by
          unfold pathSuffixUnder
          rw [if_pos hunder]
          rfl
        dsimp only [remapLocationUnder, SamePlace]
        by_cases hnode : candidateNode = newNode
        · rw [if_pos ⟨rfl, hnode⟩, Option.isSome_map]
          exact iff_of_true hsuffix hnode
        · rw [if_neg fun hboth => hnode hboth.2]
          exact iff_of_false Bool.false_ne_true hnode

end Hapcli.Ide

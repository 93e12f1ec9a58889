/-
  Subject:   `TerminalGraphicsState`: the images a terminal keeps, in the order in which they came,
             and where they are shown.

  The byte counts are numbers: images lie in memory, and the sum of their buffers is far from the
  end of a `usize`.

  * **`evictImagesOverBudget_spec`** -- eviction keeps account and ends within the limit;
  * **`after_accounted`** -- after any sequence of changes.
-/
import Hapcli.Graphics.Ingress
import Hapcli.Rust.Maps

namespace Hapcli.Graphics

open Hapcli.Rust

/-! ## 1. The store -/

/-- `image_storage_bytes`: frame zero of an animation is the still picture, and counted once. -/
def imageStorageBytes (image : TerminalImageData) : Nat :=
  if image.frames.isEmpty then image.rgba.length
  else (image.frames.map fun frame => frame.rgba.length).sum

/-- `DEFAULT_STORAGE_LIMIT_MB`, in bytes. -/
def defaultStorageLimitBytes : Nat := 16 * 1024 * 1024

structure TerminalGraphicsState where
  images : Map UInt64 TerminalImageData := ∅
  nextImageVersion : UInt64 := 1
  placements : List TerminalImagePlacement := []
  imageOrder : List UInt64 := []
  storageBytes : Nat := 0
  storageLimitBytes : Nat := defaultStorageLimitBytes

namespace TerminalGraphicsState

variable (s : TerminalGraphicsState)

def clear : TerminalGraphicsState :=
  { s with images := ∅, placements := [], imageOrder := [], storageBytes := 0 }

def allocateImageVersion : UInt64 × TerminalGraphicsState :=
  (s.nextImageVersion, { s with nextImageVersion := max (s.nextImageVersion + 1) 1 })

/-- `if let Some(previous) = self.images.remove(&id)`: the image, and its bytes. -/
def dropImage (id : UInt64) : TerminalGraphicsState :=
  match s.images.lookup id with
  | some previous =>
    { s with
      images := s.images.erase id
      storageBytes := s.storageBytes - imageStorageBytes previous }
  | none => s

/-- `placements.retain(|placement| placement.id != id)`. -/
def dropPlacements (id : UInt64) : TerminalGraphicsState :=
  { s with placements := s.placements.filter (·.id ≠ id) }

def removeImage (id : UInt64) : TerminalGraphicsState :=
  { s.dropImage id with imageOrder := s.imageOrder.filter (· != id) }

/-- `evict_images_over_budget`: the oldest image goes first. -/
def evictImagesOverBudget (s : TerminalGraphicsState) : TerminalGraphicsState :=
  if s.storageLimitBytes < s.storageBytes then
    match _ : s.imageOrder with
    | [] => { s with storageBytes := 0 }
    | id :: rest =>
      evictImagesOverBudget (({ s with imageOrder := rest }.removeImage id).dropPlacements id)
  else s
termination_by s.imageOrder.length
decreasing_by
  rename_i horder
  rw [horder]
  exact Nat.lt_succ_of_le (List.length_filter_le _ _)

/-- The end of both image events: the image gets a version and is stored, under this order. -/
def storeImage (image : TerminalImageData) (imageOrder : List UInt64) : TerminalGraphicsState :=
  let (version, s) := s.allocateImageVersion
  let image := { image with version }
  evictImagesOverBudget { s with
    storageBytes := s.storageBytes + imageStorageBytes image
    imageOrder
    images := s.images.insert image.id image }

/-- `TerminalGraphicsEvent::ImageReady`: an image sent again loses its place in the order and on the
    screen. -/
def imageReady (image : TerminalImageData) : TerminalGraphicsState :=
  let s := match s.images.lookup image.id with
    | some _ => (s.removeImage image.id).dropPlacements image.id
    | none => s
  s.storeImage image (s.imageOrder ++ [image.id])

/-- `TerminalGraphicsEvent::ImageUpdated`: the image stays where it is. -/
def imageUpdated (image : TerminalImageData) : TerminalGraphicsState :=
  let s := s.dropImage image.id
  s.storeImage image
    (if image.id ∈ s.imageOrder then s.imageOrder else s.imageOrder ++ [image.id])

/-- `handle_event`: the store, and the bytes of a response. -/
def handleEvent : TerminalGraphicsEvent → TerminalGraphicsState × Option (List UInt8)
  | .imageReady image => (s.imageReady image, none)
  | .imageUpdated image => (s.imageUpdated image, none)
  | .place placement =>
    let s := s.dropPlacements placement.id
    ({ s with placements := s.placements ++ [placement] }, none)
  | .delete (some id) => ((s.removeImage id).dropPlacements id, none)
  | .delete none => (s.clear, none)
  | .respond bytes => (s, some bytes)
  | .error _ => (s, none)

/-- `clear_for_alt_screen_transition`: the store, what the session sees now, and whether that is
    new. -/
def clearForAltScreenTransition (nextActive altScreenActive : Bool) :
    TerminalGraphicsState × Bool × Bool :=
  if nextActive = altScreenActive then (s, altScreenActive, false) else (s.clear, nextActive, true)

end TerminalGraphicsState

/-- What changes the store. -/
inductive GraphicsChange where
  | event (e : TerminalGraphicsEvent)
  | altScreen (nextActive altScreenActive : Bool)

/-- The store after a change. -/
def TerminalGraphicsState.after (s : TerminalGraphicsState) : GraphicsChange → TerminalGraphicsState
  | .event e => (s.handleEvent e).1
  | .altScreen nextActive altScreenActive =>
    (s.clearForAltScreenTransition nextActive altScreenActive).1

/-! ## 2. Its account -/

/-- The bytes are those of the images, the order is that of the images, no placement has the id of
    another. -/
structure TerminalGraphicsState.Accounted (s : TerminalGraphicsState) : Prop where
  bytes : s.storageBytes = s.images.total imageStorageBytes
  order : s.imageOrder.Perm s.images.keys
  placements : (s.placements.map (·.id)).Nodup

namespace TerminalGraphicsState

variable {s : TerminalGraphicsState} {id : UInt64}

theorem dropImage_eq (h : s.Accounted) (id : UInt64) :
    s.dropImage id = { s with
      images := s.images.erase id
      storageBytes := Map.total imageStorageBytes (s.images.erase id) } := by
  unfold dropImage
  cases hid : s.images.lookup id with
  | none =>
    dsimp only
    rw [Map.erase_of_notMem (Map.notMem_keys_iff.mpr hid), ← h.bytes]
  | some previous =>
    have htotal := Map.total_erase hid imageStorageBytes
    have hbytes : s.storageBytes - imageStorageBytes previous =
        Map.total imageStorageBytes (s.images.erase id) := by
      rw [h.bytes]
      omega
    dsimp only
    rw [hbytes]

theorem Accounted.dropPlacements (h : s.Accounted) (id : UInt64) :
    (s.dropPlacements id).Accounted :=
  ⟨h.bytes, h.order, h.placements.sublist (List.filter_sublist.map _)⟩

theorem Accounted.removeImage (h : s.Accounted) (id : UInt64) : (s.removeImage id).Accounted := by
  have horder : (s.imageOrder.filter (· != id)).Perm (s.images.erase id).keys := by
    rw [AList.keys_erase, (AList.keys_nodup s.images).erase_eq_filter]
    exact h.order.filter _
  unfold TerminalGraphicsState.removeImage
  rw [dropImage_eq h]
  exact ⟨rfl, horder, h.placements⟩

theorem removeImage_notMem (h : s.Accounted) : id ∉ (s.removeImage id).images.keys := by
  unfold removeImage
  rw [dropImage_eq h]
  dsimp only
  rw [AList.keys_erase]
  exact (AList.keys_nodup s.images).not_mem_erase

theorem removeImage_oldest {rest : List UInt64} (horder : s.imageOrder = id :: rest) :
    { s with imageOrder := rest }.removeImage id = s.removeImage id := by
  obtain ⟨images, version, placements, order, bytes, limit⟩ := s
  obtain rfl : order = id :: rest := horder
  have hrest : (id :: rest).filter (· != id) = rest.filter (· != id) :=
    List.filter_cons_of_neg (by simp)
  unfold removeImage dropImage
  dsimp only
  rw [hrest]
  cases images.lookup id <;> rfl

@[simp] theorem removeImage_limit : (s.removeImage id).storageLimitBytes = s.storageLimitBytes := by
  unfold removeImage dropImage
  split <;> rfl

theorem removeImage_bytes_le : (s.removeImage id).storageBytes ≤ s.storageBytes := by
  unfold removeImage dropImage
  split
  · exact Nat.sub_le _ _
  · exact le_rfl

theorem evictImagesOverBudget_spec (h : s.Accounted) :
    s.evictImagesOverBudget.Accounted ∧
      s.evictImagesOverBudget.storageBytes ≤ s.storageLimitBytes ∧
      s.evictImagesOverBudget.storageLimitBytes = s.storageLimitBytes := by
  fun_induction evictImagesOverBudget s with
  | case1 s hover horder =>
    -- no image is left: no byte is, and nothing is over the limit
    have hkeys : s.images.keys = [] := List.perm_nil.mp (horder ▸ h.order).symm
    have hbytes : s.storageBytes = 0 := by
      rw [h.bytes, Map.total, List.map_eq_nil_iff.mp hkeys]
      rfl
    omega
  | case2 s hover id rest horder ih =>
    rw [removeImage_oldest horder] at ih ⊢
    obtain ⟨hkept, hwithin, hlimit⟩ := ih ((h.removeImage id).dropPlacements id)
    have hsame : ((s.removeImage id).dropPlacements id).storageLimitBytes = s.storageLimitBytes :=
      removeImage_limit
    exact ⟨hkept, hsame ▸ hwithin, hlimit.trans hsame⟩
  | case3 s hwithin => exact ⟨h, not_lt.mp hwithin, rfl⟩

theorem storeImage_spec {image : TerminalImageData} {imageOrder : List UInt64}
    (hbytes : s.storageBytes = Map.total imageStorageBytes s.images)
    (hnew : image.id ∉ s.images.keys) (horder : imageOrder.Perm (image.id :: s.images.keys))
    (hplacements : (s.placements.map (·.id)).Nodup) :
    (s.storeImage image imageOrder).Accounted ∧
      (s.storeImage image imageOrder).storageBytes ≤ s.storageLimitBytes ∧
      (s.storeImage image imageOrder).storageLimitBytes = s.storageLimitBytes := by
  refine evictImagesOverBudget_spec ⟨?_, ?_, hplacements⟩
  · dsimp only [allocateImageVersion]
    rw [Map.total_insert hnew, hbytes, Nat.add_comm]
  · dsimp only [allocateImageVersion]
    rw [AList.keys_insert, List.erase_of_not_mem hnew]
    exact horder

theorem imageReady_spec (h : s.Accounted) (image : TerminalImageData) :
    (s.imageReady image).Accounted ∧
      (s.imageReady image).storageBytes ≤ s.storageLimitBytes ∧
      (s.imageReady image).storageLimitBytes = s.storageLimitBytes := by
  unfold imageReady
  -- what goes before an image sent again leaves a store without it
  cases hid : s.images.lookup image.id with
  | none =>
    exact storeImage_spec h.bytes (Map.notMem_keys_iff.mpr hid)
      ((List.perm_append_singleton _ _).trans (h.order.cons _)) h.placements
  | some previous =>
    obtain ⟨hbytes, horder, hplacements⟩ := (h.removeImage image.id).dropPlacements image.id
    have hkept := storeImage_spec hbytes (removeImage_notMem h)
      ((List.perm_append_singleton _ _).trans (horder.cons _)) hplacements
    rwa [show ((s.removeImage image.id).dropPlacements image.id).storageLimitBytes =
      s.storageLimitBytes from removeImage_limit] at hkept

theorem imageUpdated_spec (h : s.Accounted) (image : TerminalImageData) :
    (s.imageUpdated image).Accounted ∧
      (s.imageUpdated image).storageBytes ≤ s.storageLimitBytes ∧
      (s.imageUpdated image).storageLimitBytes = s.storageLimitBytes := by
  unfold imageUpdated
  rw [dropImage_eq h]
  have hnew : image.id ∉ (s.images.erase image.id).keys := by
    rw [AList.keys_erase]
    exact (AList.keys_nodup s.images).not_mem_erase
  refine storeImage_spec rfl hnew ?_ h.placements
  dsimp only
  rw [AList.keys_erase]
  split
  · next hmem =>
      exact h.order.trans (List.perm_cons_erase (h.order.mem_iff.mp hmem))
  · next hmem =>
      rw [List.erase_of_not_mem fun hstored => hmem (h.order.mem_iff.mpr hstored)]
      exact (List.perm_append_singleton _ _).trans (h.order.cons _)

theorem after_spec (h : s.Accounted) (hwithin : s.storageBytes ≤ s.storageLimitBytes)
    (change : GraphicsChange) :
    (s.after change).Accounted ∧
      (s.after change).storageBytes ≤ s.storageLimitBytes ∧
      (s.after change).storageLimitBytes = s.storageLimitBytes := by
  have hclear : s.clear.Accounted := ⟨rfl, .nil, .nil⟩
  cases change with
  | event e =>
    cases e with
    | imageReady image => exact imageReady_spec h image
    | imageUpdated image => exact imageUpdated_spec h image
    | place placement =>
      refine ⟨⟨h.bytes, h.order, ?_⟩, hwithin, rfl⟩
      show ((s.placements.filter (·.id ≠ placement.id) ++ [placement]).map (·.id)).Nodup
      rw [List.map_append, List.map_singleton, ← List.concat_eq_append, List.nodup_concat]
      refine ⟨?_, (h.dropPlacements placement.id).placements⟩
      intro hmem
      obtain ⟨existing, hexisting, hid⟩ := List.mem_map.mp hmem
      exact of_decide_eq_true (List.mem_filter.mp hexisting).2 hid
    | delete id =>
      cases id with
      | none => exact ⟨hclear, Nat.zero_le _, rfl⟩
      | some id =>
        exact ⟨(h.removeImage id).dropPlacements id, (removeImage_bytes_le).trans hwithin,
          removeImage_limit⟩
    | respond bytes => exact ⟨h, hwithin, rfl⟩
    | error text => exact ⟨h, hwithin, rfl⟩
  | altScreen nextActive altScreenActive =>
    have hcases : s.after (.altScreen nextActive altScreenActive) =
        if nextActive = altScreenActive then s else s.clear := by
      simp only [after, clearForAltScreenTransition]
      split <;> rfl
    rw [hcases]
    split
    · exact ⟨h, hwithin, rfl⟩
    · exact ⟨hclear, Nat.zero_le _, rfl⟩

/-- **After any sequence of changes**, whatever the limit, the store keeps account and the limit. -/
theorem after_accounted (limit : Nat) (changes : List GraphicsChange) :
    let s := changes.foldl after { storageLimitBytes := limit }
    s.storageBytes = Map.total imageStorageBytes s.images ∧
      s.imageOrder.Nodup ∧ s.imageOrder.Perm s.images.keys ∧
      s.storageBytes ≤ limit ∧ (s.placements.map (·.id)).Nodup := by
  let held (s : TerminalGraphicsState) : Prop :=
    s.Accounted ∧ s.storageBytes ≤ limit ∧ s.storageLimitBytes = limit
  have hstart : held { storageLimitBytes := limit } :=
    ⟨⟨rfl, .nil, .nil⟩, Nat.zero_le _, rfl⟩
  have hstep (s : TerminalGraphicsState) (hs : held s) (change : GraphicsChange) :
      held (s.after change) := by
    obtain ⟨h, hwithin, rfl⟩ := hs
    exact after_spec h hwithin change
  obtain ⟨h, hwithin, -⟩ : held (changes.foldl after { storageLimitBytes := limit }) :=
    List.foldlRecOn changes after hstart fun s hs change _ => hstep s hs change
  exact ⟨h.bytes, h.order.nodup_iff.mpr (AList.keys_nodup _), h.order, hwithin, h.placements⟩

end TerminalGraphicsState

end Hapcli.Graphics

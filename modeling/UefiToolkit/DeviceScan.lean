import UefiToolkit.DeviceModel

/-!
Which disk is found, and whether the search ends.

The place in the list of handles is kept in a byte. It reaches the end of a list of up to 255
handles; in a longer one it starts again from the first handle.
-/

namespace UefiToolkit.DeviceScan

open UefiToolkit.Word UefiToolkit.Loop UefiToolkit.SparseModel UefiToolkit.DeviceModel

variable {ε : Type} {e : DeviceModel.Services ε} {handles : List Handle}

/-! ### The disk that is asked for -/

/-- There is a node for a USB device on the path. -/
def OnUsb (path : DevicePath) : Prop := ∃ n ∈ path.nodes, n.is MESSAGING_DEVICE_PATH MSG_USB_DP

instance (path : DevicePath) : Decidable (OnUsb path) :=
  inferInstanceAs (Decidable (∃ n ∈ path.nodes, _))

lemma isUsbDevice_iff (path : DevicePath) : isUsbDevice (some path) = true ↔ OnUsb path := by
  have hfold : ∀ (l : List Node) (found : Bool),
      l.foldl (fun found n => if n.is MESSAGING_DEVICE_PATH MSG_USB_DP then true else found) found =
        (found || l.any fun n => n.is MESSAGING_DEVICE_PATH MSG_USB_DP) := by
    intro l
    induction l with
    | nil => simp
    | cons n l ih =>
      intro found
      rw [List.foldl_cons, ih, List.any_cons]
      cases n.is MESSAGING_DEVICE_PATH MSG_USB_DP <;> simp
  unfold isUsbDevice OnUsb
  dsimp only
  rw [hfold, Bool.false_or, List.any_eq_true]

/-- A whole disk that is fixed, and whose path is known and not behind USB. -/
def Suitable (e : DeviceModel.Services ε) (h : Handle) : Prop :=
  (e.blockIo h).2.logicalPartition = false ∧ (e.blockIo h).2.removableMedia = false ∧
  efiError (e.devicePath h).1 = false ∧ ¬ OnUsb (e.devicePath h).2

instance (h : Handle) : Decidable (Suitable e h) := inferInstanceAs (Decidable (_ ∧ _ ∧ _ ∧ _))

/-- Every handle carries both protocols of a disk, and without handles there is nothing to find. -/
structure Carried (e : DeviceModel.Services ε) (handles : List Handle) : Prop where
  located : e.locateHandleBuffer = (if handles = [] then EFI_NOT_FOUND else EFI_SUCCESS, handles)
  blockIo : ∀ h ∈ handles, efiError (e.blockIo h).1 = false
  diskIo : ∀ h ∈ handles, efiError (e.diskIo h) = false

/-- The first suitable handle, or an error if there is none. -/
def selection (e : DeviceModel.Services ε) (handles : List Handle) : Status × Option PartData :=
  match handles.find? fun h => decide (Suitable e h) with
  | none => (EFI_DEVICE_ERROR, none)
  | some h => (EFI_SUCCESS, some ⟨some h, some (e.devicePath h).2⟩)

/-! ### The scan -/

lemma scanHandle_suitable {h : Handle} (x : Scan) (hb : efiError (e.blockIo h).1 = false)
    (hd : efiError (e.diskIo h) = false) (hs : Suitable e h) :
    scanHandle e h x = { x with
      handle := some h, devicePath := some (e.devicePath h).2, exit := some EFI_SUCCESS } := by
  obtain ⟨hlogical, hremovable, hpath, husb⟩ := hs
  unfold scanHandle
  dsimp only
  rw [hb, hd, hlogical, hremovable, hpath,
    Bool.eq_false_iff.mpr fun h => husb ((isUsbDevice_iff _).mp h)]
  simp

lemma scanHandle_skip {h : Handle} (x : Scan) (hb : efiError (e.blockIo h).1 = false)
    (hd : efiError (e.diskIo h) = false) (hs : ¬ Suitable e h) :
    (scanHandle e h x).index = u8 (x.index + 1) ∧ (scanHandle e h x).exit = x.exit := by
  unfold scanHandle
  dsimp only
  rw [hb, hd, if_neg Bool.false_ne_true, if_neg Bool.false_ne_true]
  split_ifs with hmedia hpath husb
  · exact ⟨rfl, rfl⟩
  · exact ⟨rfl, rfl⟩
  · exact ⟨rfl, rfl⟩
  · refine absurd ⟨?_, ?_, Bool.eq_false_iff.mpr hpath,
      fun h => husb ((isUsbDevice_iff _).mpr h)⟩ hs
    · cases hlogical : (e.blockIo h).2.logicalPartition
      · rfl
      · exact absurd (by rw [hlogical]; rfl) hmedia
    · cases hremovable : (e.blockIo h).2.removableMedia
      · rfl
      · exact absurd (by rw [hremovable, Bool.or_true]) hmedia

/-- The place of the first suitable handle, or the length of the list. -/
def firstSuitable (e : DeviceModel.Services ε) (handles : List Handle) : ℕ :=
  handles.findIdx fun h => decide (Suitable e h)

/-- The scan has passed over handles that are not suitable, or has stopped at the first that is. -/
structure Passing (e : DeviceModel.Services ε) (handles : List Handle) (x : Scan) : Prop where
  le : x.index ≤ firstSuitable e handles
  exit : x.exit = none ∨ ∃ h, handles[firstSuitable e handles]? = some h ∧
    x = ⟨firstSuitable e handles, some h, some (e.devicePath h).2, some EFI_SUCCESS⟩

lemma firstSuitable_le {i : ℕ} (hi : i < handles.length) (hs : Suitable e handles[i]) :
    firstSuitable e handles ≤ i := by
  by_contra hlt
  exact of_decide_eq_false (List.not_of_lt_findIdx (not_le.mp hlt)) hs

lemma suitable_firstSuitable (hi : firstSuitable e handles < handles.length) :
    Suitable e handles[firstSuitable e handles] :=
  of_decide_eq_true (List.findIdx_getElem (w := hi))

lemma scanStep_passing (hc : Carried e handles) (hfirst : firstSuitable e handles < 2 ^ 8)
    {x : Scan} (hx : Passing e handles x) (hmore : x.more handles.length = true) :
    ∃ x', scanStep e handles x = some x' ∧ Passing e handles x' ∧
      (x'.exit = none → x.index < x'.index) := by
  obtain ⟨hexit, hin⟩ : x.exit = none ∧ x.index < handles.length := by
    simpa [Scan.more] using hmore
  have hmem : handles[x.index] ∈ handles := List.getElem_mem hin
  refine ⟨scanHandle e handles[x.index] x, ?_, ?_⟩
  · rw [scanStep, List.getElem?_eq_getElem hin, Option.map_some]
  by_cases hs : Suitable e handles[x.index]
  · have hindex : x.index = firstSuitable e handles :=
      Nat.le_antisymm hx.le (firstSuitable_le hin hs)
    rw [scanHandle_suitable x (hc.blockIo _ hmem) (hc.diskIo _ hmem) hs]
    refine ⟨⟨hx.le, Or.inr ⟨handles[x.index], ?_, ?_⟩⟩, fun h => absurd h (Option.some_ne_none _)⟩
    · rw [← hindex, List.getElem?_eq_getElem hin]
    · rw [← hindex]
  · obtain ⟨hindex, hexit'⟩ := scanHandle_skip x (hc.blockIo _ hmem) (hc.diskIo _ hmem) hs
    have hne : x.index ≠ firstSuitable e handles := by
      intro heq
      have hfound := suitable_firstSuitable (heq ▸ hin)
      simp only [← heq] at hfound
      exact hs hfound
    have hlt : x.index < firstSuitable e handles := lt_of_le_of_ne hx.le hne
    have hnext : u8 (x.index + 1) = x.index + 1 := Nat.mod_eq_of_lt (by omega)
    rw [hnext] at hindex
    exact ⟨⟨by omega, Or.inl (hexit'.trans hexit)⟩, fun _ => by omega⟩

lemma selection_some {h : Handle} (hfound : handles[firstSuitable e handles]? = some h) :
    selection e handles = (EFI_SUCCESS, some ⟨some h, some (e.devicePath h).2⟩) := by
  rw [firstSuitable, ← List.find?_eq_getElem?_findIdx] at hfound
  rw [selection, hfound]

lemma selection_none (hnone : handles.length ≤ firstSuitable e handles) :
    selection e handles = (EFI_DEVICE_ERROR, none) := by
  have hfound := List.getElem?_eq_none hnone
  rw [firstSuitable, ← List.find?_eq_getElem?_findIdx] at hfound
  rw [selection, hfound]

/-- A list whose first suitable handle the byte can count to is scanned to its end. -/
lemma initDevicePath_selects (hc : Carried e handles) (hne : handles ≠ [])
    (hfirst : firstSuitable e handles < 2 ^ 8) :
    initDevicePath e (handles.length + 1) = some (selection e handles) := by
  have hinit : Passing e handles ⟨0, none, none, none⟩ := ⟨Nat.zero_le _, Or.inl rfl⟩
  obtain ⟨x, hrun, hx, hdone⟩ := whileFuel_spec (Scan.more handles.length) (scanStep e handles)
    (I := Passing e handles)
    (μ := fun x => if x.exit = none then handles.length + 1 - x.index else 0)
    (fun x hx hmore => by
      obtain ⟨x', hstep, hx', hless⟩ := scanStep_passing hc hfirst hx hmore
      obtain ⟨hexit, hin⟩ : x.exit = none ∧ x.index < handles.length := by
        simpa [Scan.more] using hmore
      refine ⟨x', hstep, hx', ?_⟩
      rw [if_pos hexit]
      split_ifs with hexit'
      · have hlt := hless hexit'
        omega
      · omega)
    (handles.length + 1) _ hinit (by simp)
  unfold initDevicePath
  rw [hc.located, if_neg hne]
  dsimp only
  rw [if_neg not_efiError_success, hrun, Option.map_some]
  refine congrArg some ?_
  rcases hx.exit with hexit | ⟨h, hfound, rfl⟩
  · have hin : ¬ x.index < handles.length := by
      simpa [Scan.more, hexit] using hdone
    have hle := hx.le
    rw [selection_none (by omega), hexit, Option.getD_none, if_neg not_efiError_success,
      if_pos (not_lt.mp hin)]
  · have hin : firstSuitable e handles < handles.length :=
      (List.getElem?_eq_some_iff.mp hfound).1
    rw [selection_some hfound]
    dsimp only
    rw [Option.getD_some, if_neg not_efiError_success, if_neg (not_le.mpr hin)]

/-! ### Long lists -/

/-- The scan starts again from the first handle. -/
lemma whileFuel_scan_never (hc : Carried e handles) (hlen : 2 ^ 8 ≤ handles.length)
    (hnone : 2 ^ 8 ≤ firstSuitable e handles) (fuel : ℕ) {x : Scan} (hexit : x.exit = none)
    (hindex : x.index < 2 ^ 8) :
    whileFuel (Scan.more handles.length) (scanStep e handles) fuel x = none := by
  refine whileFuel_never (I := fun x => x.exit = none ∧ x.index < 2 ^ 8) (fun x hx => ?_) fuel
    ⟨hexit, hindex⟩
  obtain ⟨hexit, hindex⟩ := hx
  have hin : x.index < handles.length := by omega
  have hmem : handles[x.index] ∈ handles := List.getElem_mem hin
  have hs : ¬ Suitable e handles[x.index] := fun hs =>
    absurd (firstSuitable_le hin hs) (by omega)
  obtain ⟨hindex', hexit'⟩ := scanHandle_skip x (hc.blockIo _ hmem) (hc.diskIo _ hmem) hs
  refine ⟨by simp [Scan.more, hexit, hin], scanHandle e handles[x.index] x, ?_,
    hexit'.trans hexit, ?_⟩
  · rw [scanStep, List.getElem?_eq_getElem hin, Option.map_some]
  · rw [hindex']
    exact Nat.mod_lt _ (by decide)

/-- The byte can count to the first suitable handle. -/
lemma firstSuitable_lt_iff : firstSuitable e handles < 2 ^ 8 ↔
    handles.length ≤ 255 ∨ ∃ h ∈ handles.take 256, Suitable e h := by
  constructor
  · intro hlt
    by_cases hlen : handles.length ≤ 255
    · exact Or.inl hlen
    · have hin : firstSuitable e handles < handles.length := by omega
      refine Or.inr ⟨handles[firstSuitable e handles], ?_, suitable_firstSuitable hin⟩
      exact List.mem_take_iff_getElem.mpr ⟨firstSuitable e handles, by omega, rfl⟩
  · rintro (hlen | ⟨h, hmem, hs⟩)
    · have hle : firstSuitable e handles ≤ handles.length := List.findIdx_le_length
      omega
    · obtain ⟨i, hi, rfl⟩ := List.mem_take_iff_getElem.mp hmem
      have hle := firstSuitable_le (by omega) hs
      omega

/-- **The disk that is found.** The search ends, with the first whole, fixed disk that is not
behind USB or with an error if there is none, exactly if there are handles, and not more than 255
or such a disk among the first 256. -/
theorem initDevicePath_selects_iff (e : DeviceModel.Services ε) (handles : List Handle)
    (hc : Carried e handles) :
    (∃ fuel, initDevicePath e fuel = some (selection e handles)) ↔
      handles ≠ [] ∧ (handles.length ≤ 255 ∨ ∃ h ∈ handles.take 256, Suitable e h) := by
  rw [← firstSuitable_lt_iff]
  constructor
  · rintro ⟨fuel, hrun⟩
    unfold initDevicePath at hrun
    rw [hc.located] at hrun
    dsimp only at hrun
    by_cases hne : handles = []
    · rw [if_pos hne, if_pos (show efiError EFI_NOT_FOUND = true from efiError_maxBit 14),
        selection_none (by simp [hne])] at hrun
      exact absurd (congrArg Prod.fst (Option.some.inj hrun))
        (show EFI_NOT_FOUND ≠ EFI_DEVICE_ERROR by decide)
    · refine ⟨hne, ?_⟩
      by_contra hfirst
      have hle : firstSuitable e handles ≤ handles.length := List.findIdx_le_length
      rw [if_neg hne, if_neg not_efiError_success, whileFuel_scan_never hc (by omega)
        (not_lt.mp hfirst) fuel rfl (by decide)] at hrun
      exact Option.some_ne_none _ hrun.symm
  · rintro ⟨hne, hfirst⟩
    exact ⟨_, initDevicePath_selects hc hne hfirst⟩

/-- Handle `1` is a fixed disk, the others are partitions. -/
def oneDisk (handles : List Handle) : DeviceModel.Services Unit where
  locateHandleBuffer := (if handles = [] then EFI_NOT_FOUND else EFI_SUCCESS, handles)
  blockIo h := (EFI_SUCCESS, ⟨decide (h ≠ 1), false, 512⟩)
  diskIo _ := EFI_SUCCESS
  devicePath _ := (EFI_SUCCESS, ⟨[], by simp⟩)
  locateDevicePath _ := (EFI_SUCCESS, 1)
  allocatePool _ _ := (true, ())
  readBlocks _ _ _ _ := (EFI_SUCCESS, [], ())

lemma oneDisk_carried (handles : List Handle) : Carried (oneDisk handles) handles :=
  ⟨rfl, fun _ _ => efiError_success, fun _ _ => efiError_success⟩

theorem initDevicePath_selects_iff_two :
    ∃ fuel, initDevicePath (oneDisk [0, 1]) fuel = some (selection (oneDisk [0, 1]) [0, 1]) :=
  (initDevicePath_selects_iff (oneDisk [0, 1]) [0, 1] (oneDisk_carried [0, 1])).mpr
    ⟨by decide, Or.inl (by decide)⟩

/-- A disk behind 256 partitions is not found, and the search does not end. -/
theorem initDevicePath_endless :
    (∀ fuel, initDevicePath (oneDisk (List.replicate 256 0 ++ [1])) fuel = none) ∧
    Suitable (oneDisk (List.replicate 256 0 ++ [1])) 1 := by
  have hpart : ¬ Suitable (oneDisk (List.replicate 256 0 ++ [1])) 0 := fun h =>
    absurd h.1 Bool.true_eq_false.mp
  have hlen : (List.replicate 256 0 ++ [1]).length = 257 := by
    rw [List.length_append, List.length_replicate, List.length_singleton]
  have hfirst : ¬ firstSuitable (oneDisk (List.replicate 256 0 ++ [1]))
      (List.replicate 256 0 ++ [1]) < 2 ^ 8 := by
    rw [firstSuitable_lt_iff, hlen, List.take_left' List.length_replicate]
    rintro (hle | ⟨h, hmem, hs⟩)
    · omega
    · exact hpart (List.eq_of_mem_replicate hmem ▸ hs)
  refine ⟨fun fuel => ?_, rfl, rfl, efiError_success, by decide⟩
  unfold initDevicePath
  rw [(oneDisk_carried _).located,
    if_neg (List.append_ne_nil_of_right_ne_nil _ (List.cons_ne_nil _ _))]
  dsimp only
  rw [if_neg not_efiError_success, whileFuel_scan_never (oneDisk_carried _) (by omega)
    (not_lt.mp hfirst) fuel rfl (by decide), Option.map_none]

end UefiToolkit.DeviceScan

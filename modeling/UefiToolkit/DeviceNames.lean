import UefiToolkit.DeviceModel

/-!
Which names the partitions of the disk are given.

A partition has its number from its path, and its name from the table on the disk. The table is
read from block 2 on, as entries of 128 bytes, wherever the header says that it is.
-/

namespace UefiToolkit.DeviceNames

open UefiToolkit.Word UefiToolkit.Mem UefiToolkit.Bytes UefiToolkit.SparseModel
open UefiToolkit.DeviceModel

/-! ### Paths that continue a path -/

lemma Node.length_data_eq (n n' : Node)
    (hlo : UInt8.ofNat (n.data.length + 4) = UInt8.ofNat (n'.data.length + 4))
    (hhi : UInt8.ofNat ((n.data.length + 4) / 2 ^ 8) = UInt8.ofNat ((n'.data.length + 4) / 2 ^ 8)) :
    n.data.length = n'.data.length := by
  have hlo' := congrArg UInt8.toNat hlo
  have hhi' := congrArg UInt8.toNat hhi
  rw [UInt8.toNat_ofNat', UInt8.toNat_ofNat'] at hlo' hhi'
  have hn := n.fits
  have hn' := n'.fits
  omega

/-- Where one node stands, no other can begin. -/
lemma Node.bytes_inj {n n' : Node} {l l' : List UInt8} (h : n.bytes ++ l = n'.bytes ++ l') :
    n = n' ∧ l = l' := by
  obtain ⟨type, subType, data, hfits⟩ := n
  obtain ⟨type', subType', data', hfits'⟩ := n'
  unfold Node.bytes at h
  simp only [List.cons_append, List.nil_append, List.cons.injEq] at h
  obtain ⟨rfl, rfl, hlo, hhi, hrest⟩ := h
  have hlen := Node.length_data_eq ⟨type, subType, data, hfits⟩ ⟨type, subType, data', hfits'⟩
    hlo hhi
  obtain ⟨rfl, rfl⟩ := List.append_inj hrest hlen
  exact ⟨rfl, rfl⟩

/-- The bytes of the node that ends a path begin no node that does not. -/
lemma Node.bytes_ne_end {n : Node} (h : n.isDevicePathEnd = false) (l l' : List UInt8) :
    n.bytes ++ l ≠ [END_DEVICE_PATH_TYPE, END_ENTIRE_DEVICE_PATH_SUBTYPE, 4, 0] ++ l' := by
  intro heq
  unfold Node.bytes at heq
  simp only [List.cons_append, List.nil_append, List.cons.injEq] at heq
  rw [Node.isDevicePathEnd, Node.isDevicePathEndType, heq.1, heq.2.1] at h
  exact absurd h (by decide)

lemma flatMap_prefix_iff {ps qs : List Node} (hp : ∀ n ∈ ps, n.isDevicePathEnd = false) :
    ps.flatMap Node.bytes <+: qs.flatMap Node.bytes ++
      [END_DEVICE_PATH_TYPE, END_ENTIRE_DEVICE_PATH_SUBTYPE, 4, 0] ↔ ps <+: qs := by
  induction ps generalizing qs with
  | nil => simp
  | cons p ps ih =>
    have hps : ∀ n ∈ ps, n.isDevicePathEnd = false := fun n hn => hp n (List.mem_cons_of_mem _ hn)
    rw [List.flatMap_cons]
    cases qs with
    | nil =>
      constructor
      · rintro ⟨l, hl⟩
        rw [List.flatMap_nil, List.nil_append, List.append_assoc] at hl
        exact absurd (hl.trans (List.append_nil _).symm)
          (Node.bytes_ne_end (hp p List.mem_cons_self) _ _)
      · exact fun h => absurd (List.prefix_nil.mp h) (List.cons_ne_nil _ _)
    | cons q qs =>
      rw [List.flatMap_cons, List.append_assoc]
      constructor
      · rintro ⟨l, hl⟩
        rw [List.append_assoc] at hl
        obtain ⟨rfl, hrest⟩ := Node.bytes_inj hl
        exact List.cons_prefix_cons.mpr ⟨rfl, (ih hps).mp ⟨l, hrest⟩⟩
      · intro h
        obtain ⟨rfl, hrest⟩ := List.cons_prefix_cons.mp h
        exact (List.prefix_append_right_inj _).mpr ((ih hps).mpr hrest)

/-- The comparison of the bytes is one of the nodes. -/
lemma isPrefixOf_iff (parent path : DevicePath) :
    parent.bytes.isPrefixOf path.allBytes = true ↔ parent.nodes <+: path.nodes := by
  rw [List.isPrefixOf_iff_prefix]
  exact flatMap_prefix_iff parent.goesOn

/-- The path of partition `number` of the disk. -/
def Child (parent path : DevicePath) (number : ℕ) : Prop :=
  ∃ n, path.nodes = parent.nodes ++ [n] ∧ n.is MEDIA_DEVICE_PATH MEDIA_HARDDRIVE_DP = true ∧
    n.partitionNumber = number

lemma Child.number_eq {parent path : DevicePath} {p q : ℕ} (hp : Child parent path p)
    (hq : Child parent path q) : p = q := by
  obtain ⟨n, hn, -, rfl⟩ := hp
  obtain ⟨n', hn', -, rfl⟩ := hq
  have heq := List.append_cancel_left (hn.symm.trans hn')
  rw [List.singleton_inj.mp heq]

/-- The path of a whole disk. -/
structure Whole (path : DevicePath) : Prop where
  nonempty : path.nodes ≠ []
  oneInstance : ∀ n ∈ path.nodes, n.isDevicePathEndType = false
  noPartition : ∀ n ∈ path.nodes, n.is MEDIA_DEVICE_PATH MEDIA_HARDDRIVE_DP = false

lemma harddriveNode_append {l l' : List Node} (hend : ∀ n ∈ l, n.isDevicePathEndType = false)
    (hpart : ∀ n ∈ l, n.is MEDIA_DEVICE_PATH MEDIA_HARDDRIVE_DP = false) :
    harddriveNode (l ++ l') = harddriveNode l' := by
  induction l with
  | nil => rfl
  | cons n l ih =>
    rw [List.cons_append, harddriveNode, hend n List.mem_cons_self, hpart n List.mem_cons_self,
      if_neg Bool.false_ne_true, if_neg Bool.false_ne_true]
    exact ih (fun n hn => hend n (List.mem_cons_of_mem _ hn))
      fun n hn => hpart n (List.mem_cons_of_mem _ hn)

lemma Whole.harddriveNode {parent : DevicePath} (hw : Whole parent) (l : List Node) :
    harddriveNode (parent.nodes ++ l).tail = harddriveNode l := by
  rw [List.tail_append_of_ne_nil hw.nonempty]
  exact harddriveNode_append (fun n hn => hw.oneInstance n (List.mem_of_mem_tail hn))
    fun n hn => hw.noPartition n (List.mem_of_mem_tail hn)

lemma harddriveNode_single {n : Node} (h : n.is MEDIA_DEVICE_PATH MEDIA_HARDDRIVE_DP = true) :
    harddriveNode [n] = some n := by
  have htype : n.type = MEDIA_DEVICE_PATH := by
    rw [Node.is, Bool.and_eq_true] at h
    exact of_decide_eq_true h.1
  rw [harddriveNode, Node.isDevicePathEndType, htype, if_neg (by decide), if_pos h]

/-! ### Tables -/

/-- The name of 36 characters that stands at `place`. -/
def nameAt (m : ℕ → UInt8) (place : ℕ) : List UInt16 :=
  (List.range PARTITION_NAME_MAX_LENGTH).map fun i => UInt16.ofNat (word16 m (place + 2 * i))

/-- What the header of a partition table says about where its entries are. -/
structure Gpt where
  blockSize : ℕ
  partitionEntryLba : ℕ
  numberOfPartitionEntries : ℕ
  sizeOfPartitionEntry : ℕ
  blockSize_lt : blockSize < 2 ^ 32
  headerFits : 92 ≤ blockSize
  behindHeader : 2 ≤ partitionEntryLba
  partitionEntryLba_lt : partitionEntryLba < 2 ^ 64
  entries_pos : 0 < numberOfPartitionEntries
  entries_lt : numberOfPartitionEntries < 2 ^ 32
  sizeOfPartitionEntry_lt : sizeOfPartitionEntry < 2 ^ 32
  size_eq : ∃ n, sizeOfPartitionEntry = 128 * 2 ^ n

variable (g : Gpt)

/-- The header is in block 1 of the disk. -/
structure Gpt.On (g : Gpt) (disk : ℕ → UInt8) : Prop where
  signature : word64 disk g.blockSize = EFI_PTAB_HEADER_ID
  myLba : word64 disk (g.blockSize + 24) = 1
  partitionEntryLba : word64 disk (g.blockSize + 72) = g.partitionEntryLba
  entries : word32 disk (g.blockSize + 80) = g.numberOfPartitionEntries
  entrySize : word32 disk (g.blockSize + 84) = g.sizeOfPartitionEntry

/-- Where the table has the name of partition `p`. -/
def Gpt.place (p : ℕ) : ℕ :=
  g.partitionEntryLba * g.blockSize + (p - 1) * g.sizeOfPartitionEntry + partitionNameOffset

lemma Gpt.le_place (p : ℕ) : 2 * g.blockSize ≤ g.place p := by
  have hbehind := Nat.mul_le_mul_right g.blockSize g.behindHeader
  unfold place
  omega

/-- Where the program looks for it. -/
def Gpt.readPlace (p : ℕ) : ℕ := 2 * g.blockSize + (p - 1) * partitionEntryLen + partitionNameOffset

lemma Gpt.entryLen_le : partitionEntryLen ≤ g.sizeOfPartitionEntry := by
  obtain ⟨n, hn⟩ := g.size_eq
  have hpos : 0 < 2 ^ n := Nat.two_pow_pos n
  have hlen : partitionEntryLen = 128 := rfl
  omega

lemma le_alignValue {value alignment : ℕ} (hv : value + 2 ^ 32 ≤ 2 ^ 64) :
    value ≤ alignValue value alignment := by
  have hand : sub64 alignment value &&& sub32 alignment 1 ≤ sub32 alignment 1 := Nat.and_le_right
  have hlt : sub32 alignment 1 < 2 ^ 32 := Nat.mod_lt _ (by decide)
  unfold alignValue
  rw [u64_of_lt (by omega)]
  omega

/-- The bytes that are asked for hold an entry of 128 bytes for each partition. -/
lemma Gpt.entries_le_bufferSize : g.numberOfPartitionEntries * partitionEntryLen ≤
    alignValue (u64 (g.sizeOfPartitionEntry * g.numberOfPartitionEntries)) g.blockSize := by
  have hprod : g.sizeOfPartitionEntry * g.numberOfPartitionEntries ≤
      (2 ^ 32 - 1) * (2 ^ 32 - 1) :=
    Nat.mul_le_mul (Nat.le_pred_of_lt g.sizeOfPartitionEntry_lt) (Nat.le_pred_of_lt g.entries_lt)
  rw [u64_of_lt (by omega)]
  calc g.numberOfPartitionEntries * partitionEntryLen
      ≤ g.numberOfPartitionEntries * g.sizeOfPartitionEntry :=
        Nat.mul_le_mul_left _ g.entryLen_le
    _ = g.sizeOfPartitionEntry * g.numberOfPartitionEntries := Nat.mul_comm _ _
    _ ≤ _ := le_alignValue (by omega)

/-! ### What is read -/

section Reading

variable {g} {ε : Type} {e : DeviceModel.Services ε} {parent : DevicePath} {disk : Handle}
  {content : ℕ → UInt8}

/-- The disk with this path and content, and the handles around it: each of them has a path, and
where that continues the path of the disk it is the path of one of its partitions. -/
structure Attached (g : Gpt) (e : DeviceModel.Services ε) (parent : DevicePath) (disk : Handle)
    (content : ℕ → UInt8) : Prop where
  whole : Whole parent
  located : e.locateDevicePath parent = (EFI_SUCCESS, disk)
  blockSize : (e.blockIo disk).2.blockSize = g.blockSize
  reads : ∀ env lba n, efiError (e.readBlocks env disk lba n).1 = false →
    (e.readBlocks env disk lba n).2.1 = slice content (lba * g.blockSize) n
  paths : ∀ h ∈ e.locateHandleBuffer.2, efiError (e.devicePath h).1 = false
  children : ∀ h ∈ e.locateHandleBuffer.2, parent.nodes <+: (e.devicePath h).2.nodes →
    (e.devicePath h).2.nodes = parent.nodes ∨
    ∃ p ≤ g.numberOfPartitionEntries, Child parent (e.devicePath h).2 p

/-- The header is read as it is on the disk. -/
lemma gptHeader_read (hon : g.On content) (heap : ℕ → UInt8) :
    gptHeader (blit heap 0 (slice content (1 * g.blockSize) g.blockSize)) =
      ⟨EFI_PTAB_HEADER_ID, 1, g.numberOfPartitionEntries, g.sizeOfPartitionEntry⟩ := by
  have hfits := g.headerFits
  have hcell : ∀ a i, a + i < 92 →
      blit heap 0 (slice content (1 * g.blockSize) g.blockSize) (a + i) =
        content (g.blockSize + a + i) := by
    intro a i hi
    have hin := blit_slice_in heap content 0 (1 * g.blockSize) (show a + i < g.blockSize by omega)
    rw [Nat.zero_add, Nat.one_mul, ← Nat.add_assoc] at hin
    rw [Nat.one_mul]
    exact hin
  unfold gptHeader
  rw [word64_congr fun i hi => hcell 0 i (by omega), word64_congr fun i hi => hcell 24 i (by omega),
    word32_congr fun i hi => hcell 80 i (by omega), word32_congr fun i hi => hcell 84 i (by omega),
    Nat.add_zero, hon.signature, hon.myLba, hon.entries, hon.entrySize]

/-- If the entries are read, they are what the disk has from block 2 on. -/
lemma readPartitionEntries_reads (hon : g.On content) (hat : Attached g e parent disk content)
    (headerHeap entriesHeap : ℕ → UInt8) (env : ε) {entries : ℕ → UInt8}
    (h : (readPartitionEntries e headerHeap entriesHeap disk (e.blockIo disk).2 env).2.1 =
      some entries) {i : ℕ} (hi : i < g.numberOfPartitionEntries * partitionEntryLen) :
    entries i = content (2 * g.blockSize + i) := by
  have hsize := g.entries_le_bufferSize
  unfold readPartitionEntries at h
  dsimp only at h
  rw [hat.blockSize] at h
  split_ifs at h with halloc hheader hvalid halloc' hread
  rw [hat.reads _ _ _ (Bool.eq_false_iff.mpr hheader), gptHeader_read hon] at hvalid hread h
  rw [hat.reads _ _ _ (Bool.eq_false_iff.mpr hread), Option.some.injEq] at h
  rw [← h]
  have hin := blit_slice_in entriesHeap content 0 (2 * g.blockSize) (hi.trans_le hsize)
  rw [Nat.zero_add] at hin
  exact hin

/-! ### The list -/

variable {h : Handle} {p : ℕ}

/-- A partition has a number that the table has. -/
lemma Attached.number_le (hat : Attached g e parent disk content)
    (hmem : h ∈ e.locateHandleBuffer.2) (hp : Child parent (e.devicePath h).2 p) :
    p ≤ g.numberOfPartitionEntries := by
  obtain ⟨n, hnodes, -⟩ := id hp
  rcases hat.children h hmem ⟨[n], hnodes.symm⟩ with hsame | ⟨q, hq, hchild⟩
  · exact absurd (List.append_right_eq_self.mp (hnodes.symm.trans hsame)) (List.cons_ne_nil _ _)
  · rw [hp.number_eq hchild]
    exact hq

variable (entries : ℕ → UInt8) (behind : Handle → ℕ → UInt16) (x : Listing ε)

/-- A partition of the disk is added to the list, if there is room for an entry. -/
lemma listHandle_child (hw : Whole parent) (hpath : efiError (e.devicePath h).1 = false)
    (hp : Child parent (e.devicePath h).2 p) (hpos : 0 < p) :
    ((e.allocatePool x.env partitionListLen).1 = true ∧
      (listHandle e parent entries behind h x).list =
        x.list ++ [partitionEntry entries behind h p] ∧
      (listHandle e parent entries behind h x).failed = x.failed) ∨
    ((e.allocatePool x.env partitionListLen).1 = false ∧
      (listHandle e parent entries behind h x).list = [] ∧
      (listHandle e parent entries behind h x).failed = true) := by
  obtain ⟨n, hnodes, hn, rfl⟩ := hp
  have hbegins : parent.bytes.isPrefixOf (e.devicePath h).2.allBytes = true :=
    (isPrefixOf_iff _ _).mpr ⟨[n], hnodes.symm⟩
  have hnode : harddriveNode (e.devicePath h).2.nodes.tail = some n := by
    rw [hnodes, hw.harddriveNode, harddriveNode_single hn]
  unfold listHandle
  dsimp only
  rw [if_neg (ne_true_of_eq_false hpath)]
  dsimp only
  rw [hbegins, Bool.not_true, if_neg Bool.false_ne_true, hnode]
  dsimp only
  rw [if_neg hpos.ne']
  rcases halloc : (e.allocatePool x.env partitionListLen).1 with _ | _
  · rw [Bool.not_false, if_pos rfl]
    exact Or.inr ⟨rfl, rfl, rfl⟩
  · rw [Bool.not_true, if_neg Bool.false_ne_true]
    exact Or.inl ⟨rfl, rfl, rfl⟩

/-- Another handle is passed over. -/
lemma listHandle_other (hat : Attached g e parent disk content)
    (hmem : h ∈ e.locateHandleBuffer.2)
    (hnot : ∀ p, 0 < p → ¬ Child parent (e.devicePath h).2 p) :
    (listHandle e parent entries behind h x).list = x.list ∧
      (listHandle e parent entries behind h x).failed = x.failed := by
  unfold listHandle
  dsimp only
  rw [if_neg (ne_true_of_eq_false (hat.paths h hmem))]
  dsimp only
  by_cases hbegins : parent.nodes <+: (e.devicePath h).2.nodes
  · rw [(isPrefixOf_iff _ _).mpr hbegins, Bool.not_true, if_neg Bool.false_ne_true]
    rcases hat.children h hmem hbegins with hsame | ⟨p, -, n, hnodes, hn, hnumber⟩
    · have hnone : harddriveNode (e.devicePath h).2.nodes.tail = none := by
        have htail := hat.whole.harddriveNode []
        rw [List.append_nil] at htail
        rw [hsame, htail]
        rfl
      rw [hnone]
      exact ⟨rfl, rfl⟩
    · have hzero : n.partitionNumber = 0 := by
        by_contra hne
        exact hnot p (by omega) ⟨n, hnodes, hn, hnumber⟩
      rw [hnodes, hat.whole.harddriveNode, harddriveNode_single hn]
      dsimp only
      rw [if_pos hzero]
      exact ⟨rfl, rfl⟩
  · rw [Bool.eq_false_iff.mpr fun h => hbegins ((isPrefixOf_iff _ _).mp h), Bool.not_false,
      if_pos rfl]
    exact ⟨rfl, rfl⟩

variable {entries behind x}

/-- The entries of the list are those of partitions, with their numbers. -/
def Numbered (g : Gpt) (e : DeviceModel.Services ε) (parent : DevicePath) (entries : ℕ → UInt8)
    (behind : Handle → ℕ → UInt16) (list : List PartitionEntry) : Prop :=
  ∀ y ∈ list, ∃ p, 0 < p ∧ p ≤ g.numberOfPartitionEntries ∧
    Child parent (e.devicePath y.partitionHandle).2 p ∧
    y = partitionEntry entries behind y.partitionHandle p

lemma listHandle_numbered (hat : Attached g e parent disk content)
    (hmem : h ∈ e.locateHandleBuffer.2) (hx : Numbered g e parent entries behind x.list) :
    Numbered g e parent entries behind (listHandle e parent entries behind h x).list := by
  by_cases hchild : ∃ p, 0 < p ∧ Child parent (e.devicePath h).2 p
  · obtain ⟨p, hpos, hp⟩ := hchild
    rcases listHandle_child entries behind x hat.whole (hat.paths h hmem) hp hpos with
      ⟨-, hlist, -⟩ | ⟨-, hlist, -⟩
    · rw [hlist]
      intro y hy
      rcases List.mem_append.mp hy with hy | hy
      · exact hx y hy
      · rw [List.mem_singleton] at hy
        subst hy
        exact ⟨p, hpos, hat.number_le hmem hp, hp, rfl⟩
    · rw [hlist]
      exact fun y hy => absurd hy List.not_mem_nil
  · rw [(listHandle_other entries behind x hat hmem fun p hpos hp => hchild ⟨p, hpos, hp⟩).1]
    exact hx

lemma listHandles_numbered (hat : Attached g e parent disk content) {handles : List Handle}
    (hsub : ∀ h ∈ handles, h ∈ e.locateHandleBuffer.2)
    (hx : Numbered g e parent entries behind x.list) :
    Numbered g e parent entries behind (listHandles e parent entries behind handles x).list := by
  induction handles generalizing x with
  | nil => exact hx
  | cons h handles ih =>
    have hnext := listHandle_numbered hat (hsub h List.mem_cons_self) hx
    rw [listHandles]
    split_ifs
    · exact hnext
    · exact ih (fun h' hh' => hsub h' (List.mem_cons_of_mem _ hh')) hnext

/-- What is in the list stays there, and a partition that is come to is added. -/
lemma listHandle_added (entries : ℕ → UInt8) (behind : Handle → ℕ → UInt16) (x : Listing ε)
    (hat : Attached g e parent disk content) (hpool : ∀ env n, (e.allocatePool env n).1 = true)
    (hmem : h ∈ e.locateHandleBuffer.2) :
    (listHandle e parent entries behind h x).failed = x.failed ∧
    x.list ⊆ (listHandle e parent entries behind h x).list ∧
    ∀ p, 0 < p → Child parent (e.devicePath h).2 p →
      ∃ y ∈ (listHandle e parent entries behind h x).list, y.partitionHandle = h := by
  by_cases hchild : ∃ p, 0 < p ∧ Child parent (e.devicePath h).2 p
  · obtain ⟨p, hpos, hp⟩ := hchild
    rcases listHandle_child entries behind x hat.whole (hat.paths h hmem) hp hpos with
      ⟨-, hlist, hfailed⟩ | ⟨hfull, -⟩
    · refine ⟨hfailed, ?_, fun q _ _ => ?_⟩
      · rw [hlist]
        exact List.subset_append_left _ _
      · rw [hlist]
        exact ⟨_, List.mem_append_right _ (List.mem_singleton_self _), rfl⟩
    · rw [hpool] at hfull
      exact absurd hfull Bool.true_eq_false.mp
  · obtain ⟨hlist, hfailed⟩ := listHandle_other entries behind x hat hmem
      fun p hpos hp => hchild ⟨p, hpos, hp⟩
    exact ⟨hfailed, hlist ▸ List.Subset.refl _,
      fun p hpos hp => absurd ⟨p, hpos, hp⟩ hchild⟩

lemma listHandles_complete (hat : Attached g e parent disk content)
    (hpool : ∀ env n, (e.allocatePool env n).1 = true) {handles : List Handle}
    (hsub : ∀ h ∈ handles, h ∈ e.locateHandleBuffer.2) (hx : x.failed = false) :
    x.list ⊆ (listHandles e parent entries behind handles x).list ∧
    ∀ h ∈ handles, ∀ p, 0 < p → Child parent (e.devicePath h).2 p →
      ∃ y ∈ (listHandles e parent entries behind handles x).list, y.partitionHandle = h := by
  induction handles generalizing x with
  | nil => exact ⟨List.Subset.refl _, fun h hh => absurd hh List.not_mem_nil⟩
  | cons h handles ih =>
    obtain ⟨hfailed, hkept, hadded⟩ := listHandle_added entries behind x hat hpool
      (hsub h List.mem_cons_self)
    rw [hx] at hfailed
    obtain ⟨hkept', hrest⟩ := ih (fun h' hh' => hsub h' (List.mem_cons_of_mem _ hh')) hfailed
    rw [listHandles, hfailed, if_neg Bool.false_ne_true]
    refine ⟨List.Subset.trans hkept hkept', fun h' hh' p hpos hp => ?_⟩
    rcases List.mem_cons.mp hh' with rfl | hh'
    · obtain ⟨y, hy, heq⟩ := hadded p hpos hp
      exact ⟨y, hkept' hy, heq⟩
    · exact hrest h' hh' p hpos hp

/-- An entry of the list has the name that is read for its number. -/
lemma partitionEntry_name
    (hread : ∀ i < g.numberOfPartitionEntries * partitionEntryLen,
      entries i = content (2 * g.blockSize + i))
    (hpos : 0 < p) (hle : p ≤ g.numberOfPartitionEntries) :
    slice (partitionEntry entries behind h p).partitionName 0 PARTITION_NAME_MAX_LENGTH =
      nameAt content (g.readPlace p) := by
  have hlen : partitionEntryLen = 128 := rfl
  have hoff : partitionNameOffset = 56 := rfl
  have hmul : (p - 1) * partitionEntryLen + partitionEntryLen ≤
      g.numberOfPartitionEntries * partitionEntryLen := by
    rw [← Nat.succ_mul]
    exact Nat.mul_le_mul_right _ (by omega)
  unfold slice nameAt
  refine List.map_congr_left fun i hi => ?_
  have hin : i < 36 := List.mem_range.mp hi
  have hplace : ∀ j < 2, entries ((p - 1) * partitionEntryLen + partitionNameOffset + 2 * i + j) =
      content (g.readPlace p + 2 * i + j) := by
    intro j hj
    rw [hread _ (by omega), Gpt.readPlace]
    congr 1
    omega
  have hcell : (partitionEntry entries behind h p).partitionName (0 + i) = UInt16.ofNat
      (word16 entries ((p - 1) * partitionEntryLen + partitionNameOffset + 2 * i)) := by
    rw [Nat.zero_add]
    exact if_pos hin
  have hlow := hplace 0 (by omega)
  rw [Nat.add_zero, Nat.add_zero] at hlow
  rw [hcell, word16, word16, hlow, hplace 1 (by omega)]

/-- The pool and the disk do what is asked of them. -/
structure Serves (e : DeviceModel.Services ε) (disk : Handle) : Prop where
  blockIo : efiError (e.blockIo disk).1 = false
  allocates : ∀ env n, (e.allocatePool env n).1 = true
  reads : ∀ env lba n, efiError (e.readBlocks env disk lba n).1 = false

lemma Serves.readPartitionEntries (hs : Serves e disk) (hon : g.On content)
    (hat : Attached g e parent disk content) (headerHeap entriesHeap : ℕ → UInt8) (env : ε) :
    ∃ entries, (readPartitionEntries e headerHeap entriesHeap disk (e.blockIo disk).2 env).2.1 =
      some entries := by
  unfold DeviceModel.readPartitionEntries
  dsimp only
  rw [hs.allocates, Bool.not_true, if_neg Bool.false_ne_true, hs.reads,
    if_neg Bool.false_ne_true, hat.reads _ _ _ (hs.reads _ _ _), hat.blockSize, gptHeader_read hon]
  dsimp only
  rw [if_neg (by simp), hs.allocates, Bool.not_true, if_neg Bool.false_ne_true, hs.reads,
    if_neg Bool.false_ne_true]
  exact ⟨_, rfl⟩

/-- The partitions of the disk are listed with what is read as their entries, and all of them if
nothing fails. -/
lemma initDiskPartition_list (hon : g.On content) (hat : Attached g e parent disk content)
    (headerHeap entriesHeap : ℕ → UInt8) (behind : Handle → ℕ → UInt16) (env : ε) :
    (∃ entries, (∀ i < g.numberOfPartitionEntries * partitionEntryLen,
        entries i = content (2 * g.blockSize + i)) ∧
      Numbered g e parent entries behind
        (initDiskPartition e headerHeap entriesHeap behind parent env).2.1) ∧
    (Serves e disk → ∀ h ∈ e.locateHandleBuffer.2, ∀ p, 0 < p →
      Child parent (e.devicePath h).2 p →
        ∃ y ∈ (initDiskPartition e headerHeap entriesHeap behind parent env).2.1,
          y.partitionHandle = h) := by
  -- the entries as they are on the disk, for a list that is empty
  have hempty : ∃ entries : ℕ → UInt8, (∀ i < g.numberOfPartitionEntries * partitionEntryLen,
      entries i = content (2 * g.blockSize + i)) ∧ Numbered g e parent entries behind [] :=
    ⟨fun i => content (2 * g.blockSize + i), fun _ _ => rfl,
      fun y hy => absurd hy List.not_mem_nil⟩
  unfold initDiskPartition
  rw [hat.located]
  dsimp only
  rw [if_neg not_efiError_success]
  split_ifs with hmedia
  · exact ⟨hempty, fun hs => absurd hmedia (ne_true_of_eq_false hs.blockIo)⟩
  · rcases hread : (readPartitionEntries e headerHeap entriesHeap disk (e.blockIo disk).2 env).2.1
      with _ | entries
    · refine ⟨hempty, fun hs => ?_⟩
      obtain ⟨entries, hsome⟩ := hs.readPartitionEntries hon hat headerHeap entriesHeap env
      exact absurd (hread.symm.trans hsome) (Option.some_ne_none _).symm
    · exact ⟨⟨entries, fun i hi =>
        readPartitionEntries_reads hon hat headerHeap entriesHeap env hread hi,
          listHandles_numbered hat (fun h hh => hh) fun y hy => absurd hy List.not_mem_nil⟩,
        fun hs => (listHandles_complete hat hs.allocates (fun h hh => hh) rfl).2⟩

end Reading

/-! ### The right names -/

/-- The list has partitions of the disk, each with its name from the table, and all of them if
nothing fails. -/
structure Named {ε : Type} (g : Gpt) (e : DeviceModel.Services ε) (parent : DevicePath)
    (disk : Handle) (content : ℕ → UInt8) (list : List PartitionEntry) : Prop where
  name : ∀ y ∈ list, ∃ p, 0 < p ∧ Child parent (e.devicePath y.partitionHandle).2 p ∧
    slice y.partitionName 0 PARTITION_NAME_MAX_LENGTH = nameAt content (g.place p)
  complete : Serves e disk → ∀ h ∈ e.locateHandleBuffer.2, ∀ p, 0 < p →
    Child parent (e.devicePath h).2 p → ∃ y ∈ list, y.partitionHandle = h

/-- A disk with nothing but the header. -/
def Gpt.blank : ℕ → UInt8 :=
  blit (blit (blit (blit (blit (fun _ => 0) g.blockSize (le64 EFI_PTAB_HEADER_ID))
    (g.blockSize + 24) (le64 1)) (g.blockSize + 72) (le64 g.partitionEntryLba))
    (g.blockSize + 80) (le32 g.numberOfPartitionEntries))
    (g.blockSize + 84) (le32 g.sizeOfPartitionEntry)

/-- One byte behind the header is not zero. -/
def Gpt.marked (place : ℕ) : ℕ → UInt8 := put g.blank place 65

lemma Gpt.marked_on {place : ℕ} (h : 2 * g.blockSize ≤ place) : g.On (g.marked place) := by
  have hfits := g.headerFits
  have hlen : ∀ v, (le64 v).length = 8 := fun v => rfl
  have hlen' : ∀ v, (le32 v).length = 4 := fun v => rfl
  have hkept64 : ∀ a, a + 8 ≤ g.blockSize + 92 → word64 (g.marked place) a = word64 g.blank a :=
    fun a ha => word64_congr fun i hi => put_ne _ _ (by omega)
  have hkept32 : ∀ a, a + 4 ≤ g.blockSize + 92 → word32 (g.marked place) a = word32 g.blank a :=
    fun a ha => word32_congr fun i hi => put_ne _ _ (by omega)
  constructor
  · rw [hkept64 _ (by omega), blank, word64_blit_out _ (by omega), word64_blit_out _ (by omega),
      word64_blit_out _ (by omega), word64_blit_out _ (by omega), word64_le64 _ _ (by decide)]
  · rw [hkept64 _ (by omega), blank, word64_blit_out _ (by omega), word64_blit_out _ (by omega),
      word64_blit_out _ (by omega), word64_le64 _ _ (by decide)]
  · rw [hkept64 _ (by omega), blank, word64_blit_out _ (by omega), word64_blit_out _ (by omega),
      word64_le64 _ _ g.partitionEntryLba_lt]
  · rw [hkept32 _ (by omega), blank, word32_blit_out _ (by omega), word32_le32 _ _ g.entries_lt]
  · rw [hkept32 _ (by omega), blank, word32_le32 _ _ g.sizeOfPartitionEntry_lt]

lemma Gpt.blank_apply {i : ℕ} (h : 2 * g.blockSize ≤ i) : g.blank i = 0 := by
  have hfits := g.headerFits
  have hlen : ∀ v, (le64 v).length = 8 := fun v => rfl
  have hlen' : ∀ v, (le32 v).length = 4 := fun v => rfl
  unfold blank
  rw [blit_out _ (by rw [hlen']; omega), blit_out _ (by rw [hlen']; omega),
    blit_out _ (by rw [hlen]; omega), blit_out _ (by rw [hlen]; omega),
    blit_out _ (by rw [hlen]; omega)]

/-- The name at the mark is not the one at another place. -/
lemma Gpt.nameAt_marked {place other : ℕ} (h : 2 * g.blockSize ≤ other)
    (heq : nameAt (g.marked place) place = nameAt (g.marked place) other) : place = other := by
  by_contra hne
  have hfirst : UInt16.ofNat (word16 (g.marked place) place) =
      UInt16.ofNat (word16 (g.marked place) other) := by
    have hcell := congrArg (fun l : List UInt16 => l[0]?) heq
    simpa [nameAt, PARTITION_NAME_MAX_LENGTH] using hcell
  have hmark : g.marked place place = 65 := put_self _ _ _
  have hzero : g.marked place other = 0 := by
    rw [marked, put_ne _ _ (Ne.symm hne), g.blank_apply h]
  have hnat := congrArg UInt16.toNat hfirst
  rw [word16, word16, hmark, hzero, UInt16.toNat_ofNat', UInt16.toNat_ofNat'] at hnat
  have h65 : (65 : UInt8).toNat = 65 := rfl
  have h0 : (0 : UInt8).toNat = 0 := rfl
  omega

/-- The path of a disk on a bus, and a node for a partition. -/
def busNode : Node := ⟨1, 1, [0, 31], by decide⟩

def harddrive (number : UInt8) : Node :=
  ⟨MEDIA_DEVICE_PATH, MEDIA_HARDDRIVE_DP, [number, 0, 0, 0] ++ List.replicate 34 0, by simp⟩

lemma harddrive_goesOn (number : UInt8) : (harddrive number).isDevicePathEnd = false := rfl

def diskPath : DevicePath := ⟨[busNode], by simp; decide⟩

def partitionPath (number : UInt8) : DevicePath :=
  ⟨[busNode, harddrive number], by
    intro n hn
    rcases List.mem_cons.mp hn with rfl | hn
    · decide
    · rw [List.mem_singleton.mp hn]
      exact harddrive_goesOn number⟩

lemma partitionPath_child (number : UInt8) :
    Child diskPath (partitionPath number) number.toNat := by
  refine ⟨harddrive number, rfl, rfl, ?_⟩
  simp [Node.partitionNumber, word32, harddrive]

lemma diskPath_whole : Whole diskPath :=
  ⟨List.cons_ne_nil _ _, by simp [diskPath]; decide, by simp [diskPath]; decide⟩

/-- The disk has handle `0`, and a partition of it handle `1`. -/
def tableDisk (content : ℕ → UInt8) (number : UInt8) : DeviceModel.Services Unit where
  locateHandleBuffer := (EFI_SUCCESS, [0, 1])
  blockIo _ := (EFI_SUCCESS, ⟨false, false, g.blockSize⟩)
  diskIo _ := EFI_SUCCESS
  devicePath h := (EFI_SUCCESS, if h = 0 then diskPath else partitionPath number)
  locateDevicePath _ := (EFI_SUCCESS, 0)
  allocatePool _ _ := (true, ())
  readBlocks _ _ lba n := (EFI_SUCCESS, slice content (lba * g.blockSize) n, ())

variable {g} {content : ℕ → UInt8} {number : UInt8}

lemma tableDisk_attached (number : UInt8) (hle : number.toNat ≤ g.numberOfPartitionEntries) :
    Attached g (tableDisk g content number) diskPath 0 content where
  whole := diskPath_whole
  located := rfl
  blockSize := rfl
  reads _ _ _ _ := rfl
  paths _ _ := rfl
  children h hh _ := by
    rcases List.mem_cons.mp hh with rfl | hh
    · exact Or.inl rfl
    · rw [List.mem_singleton.mp hh]
      exact Or.inr ⟨number.toNat, hle, partitionPath_child number⟩

lemma tableDisk_serves : Serves (tableDisk g content number) 0 :=
  ⟨efiError_success, fun _ _ => rfl, fun _ _ _ => efiError_success⟩

/-- If the only name on the disk is given to the partition it belongs to, it is where it is read. -/
lemma place_of_named (number : UInt8) {p : ℕ} (hnumber : number.toNat = p) (hpos : 0 < p)
    (hle : p ≤ g.numberOfPartitionEntries)
    (hnamed : Named g (tableDisk g (g.marked (g.place p)) number) diskPath 0
      (g.marked (g.place p)) (initDiskPartition (tableDisk g (g.marked (g.place p)) number)
        (fun _ => 0) (fun _ => 0) (fun _ _ => 0) diskPath ()).2.1) :
    g.place p = g.readPlace p := by
  have hreadPlace : 2 * g.blockSize ≤ g.readPlace p := by
    unfold Gpt.readPlace
    omega
  have hchild : Child diskPath (partitionPath number) p := hnumber ▸ partitionPath_child number
  obtain ⟨⟨entries, hread, hnum⟩, -⟩ := initDiskPartition_list (g.marked_on (g.le_place _))
    (tableDisk_attached number (hnumber.trans_le hle)) (fun _ => 0) (fun _ => 0) (fun _ _ => 0) ()
  obtain ⟨y, hy, hhandle⟩ := hnamed.complete tableDisk_serves 1
    (List.mem_cons_of_mem _ (List.mem_singleton_self _)) p hpos hchild
  obtain ⟨q, -, hq, hright⟩ := hnamed.name y hy
  obtain ⟨q', hqpos, hqle, hq', heq⟩ := hnum y hy
  rw [hhandle] at hq hq'
  obtain rfl := hq.number_eq hchild
  obtain rfl := hq'.number_eq hchild
  refine g.nameAt_marked hreadPlace ?_
  rw [← hright, heq, partitionEntry_name hread hqpos hqle]

/-- **Names of partitions.** For a partition table whose header has this geometry the partitions
are listed with their names, whatever is on the disk, exactly if its entries begin in block 2 and
are of 128 bytes, or there is one entry only. -/
theorem initDiskPartition_names_iff (g : Gpt) :
    (∀ (ε : Type) (e : DeviceModel.Services ε) (parent : DevicePath) (disk : Handle)
      (content headerHeap entriesHeap : ℕ → UInt8) (behind : Handle → ℕ → UInt16) (env : ε),
      g.On content → Attached g e parent disk content →
      Named g e parent disk content
        (initDiskPartition e headerHeap entriesHeap behind parent env).2.1) ↔
      g.partitionEntryLba = 2 ∧
        (g.sizeOfPartitionEntry = 128 ∨ g.numberOfPartitionEntries = 1) := by
  have hlen : partitionEntryLen = 128 := rfl
  have hbs : 0 < g.blockSize := lt_of_lt_of_le (by decide) g.headerFits
  constructor
  · intro hall
    have hplace : ∀ (number : UInt8) (p : ℕ), number.toNat = p → 0 < p →
        p ≤ g.numberOfPartitionEntries → g.place p = g.readPlace p :=
      fun number p hnumber hpos hle => place_of_named number hnumber hpos hle
        (hall Unit _ diskPath 0 _ _ _ _ () (g.marked_on (g.le_place p))
          (tableDisk_attached number (hnumber.trans_le hle)))
    have hone := hplace 1 1 rfl Nat.one_pos g.entries_pos
    have hlba : g.partitionEntryLba = 2 := by
      unfold Gpt.place Gpt.readPlace at hone
      refine Nat.eq_of_mul_eq_mul_right hbs ?_
      simpa using hone
    refine ⟨hlba, ?_⟩
    by_cases hmany : 2 ≤ g.numberOfPartitionEntries
    · have htwo := hplace 2 2 rfl Nat.two_pos hmany
      unfold Gpt.place Gpt.readPlace at htwo
      rw [hlba, hlen] at htwo
      left
      simpa using htwo
    · have hpos := g.entries_pos
      right
      omega
  · rintro ⟨hlba, hsize⟩ ε e parent disk content headerHeap entriesHeap behind env hon hat
    obtain ⟨⟨entries, hread, hnum⟩, hcomplete⟩ :=
      initDiskPartition_list hon hat headerHeap entriesHeap behind env
    refine ⟨fun y hy => ?_, hcomplete⟩
    obtain ⟨p, hpos, hle, hp, heq⟩ := hnum y hy
    refine ⟨p, hpos, hp, ?_⟩
    have hplace : g.place p = g.readPlace p := by
      unfold Gpt.place Gpt.readPlace
      rcases hsize with hsize | hone
      · rw [hlba, hsize, hlen]
      · obtain rfl : p = 1 := by omega
        rw [hlba, Nat.sub_self, Nat.zero_mul, Nat.zero_mul]
    rw [hplace, heq]
    exact partitionEntry_name hread hpos hle

/-- Two entries of 256 bytes each, from block 2 on. -/
def wideEntries : Gpt where
  blockSize := 512
  partitionEntryLba := 2
  numberOfPartitionEntries := 2
  sizeOfPartitionEntry := 256
  blockSize_lt := by decide
  headerFits := by decide
  behindHeader := by decide
  partitionEntryLba_lt := by decide
  entries_pos := by decide
  entries_lt := by decide
  sizeOfPartitionEntry_lt := by decide
  size_eq := ⟨1, rfl⟩

/-- The second partition is given a name that no entry has. -/
theorem initDiskPartition_wide_entries :
    wideEntries.On (wideEntries.marked (wideEntries.place 2)) ∧
    ¬ Named wideEntries (tableDisk wideEntries (wideEntries.marked (wideEntries.place 2)) 2)
      diskPath 0 (wideEntries.marked (wideEntries.place 2))
      (initDiskPartition (tableDisk wideEntries (wideEntries.marked (wideEntries.place 2)) 2)
        (fun _ => 0) (fun _ => 0) (fun _ _ => 0) diskPath ()).2.1 := by
  refine ⟨wideEntries.marked_on (wideEntries.le_place 2), fun hnamed => ?_⟩
  have hplace : wideEntries.place 2 = wideEntries.readPlace 2 :=
    place_of_named 2 rfl Nat.two_pos le_rfl hnamed
  exact absurd hplace (show 1336 ≠ 1208 by decide)

end UefiToolkit.DeviceNames

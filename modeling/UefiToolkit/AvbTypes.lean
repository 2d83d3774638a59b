import UefiToolkit.AvbModel

/-!
What `libavb` is given by its platform, and what it makes of a slot: the operations, the results
and the data of a slot that was verified.

An operation may answer differently each time: it works on a state of the device that nothing is
known about.
-/

namespace UefiToolkit.AvbTypes

open UefiToolkit.AvbModel

/-- The operations of `AvbOps` that the choice of a slot uses. A read gives the result,
`*out_num_read` if it is stored, and what was read. -/
structure AvbOps (σ : Type) where
  readFromPartition : List UInt8 → ℤ → ℕ → σ → AvbIOResult × Option ℕ × List UInt8 × σ
  writeToPartition : List UInt8 → ℤ → List UInt8 → σ → AvbIOResult × σ
  readRollbackIndex : ℕ → σ → (AvbIOResult × UInt64) × σ
  writeRollbackIndex : ℕ → UInt64 → σ → AvbIOResult × σ

inductive AvbSlotVerifyResult
  | ok
  | errorOom
  | errorIo
  | errorVerification
  | errorRollbackIndex
  | errorPublicKeyRejected
  | errorInvalidMetadata
  | errorUnsupportedVersion
  | errorInvalidArgument
  deriving DecidableEq

/-- What the choice of a slot reads of `AvbSlotVerifyData`. -/
structure AvbSlotVerifyData where
  abSuffix : List UInt8
  rollbackIndexes : ℕ → UInt64

def AVB_MAX_NUMBER_OF_ROLLBACK_INDEX_LOCATIONS : ℕ := 32

end UefiToolkit.AvbTypes

import UefiToolkit.Allocator
import UefiToolkit.Mem
import UefiToolkit.Word

/-!
`TcpTransport`: the data that a connection sends is gathered in a buffer that grows, and saved.

What is copied from and to the blocks of the pool, freed and saved goes to a log, with the block
as it was at that time.
-/

namespace UefiToolkit.TransportModel

open UefiToolkit.Word UefiToolkit.Mem UefiToolkit.Allocator

def RX_FRAGMENT_SIZE : ℕ := 2048
def SIZE_8MB : ℕ := 0x800000

/-! ### The heap -/

/-- The memory that a pointer to the block sees, and so many bytes of it are the block's. -/
structure Block where
  size : ℕ
  cells : ℕ → UInt8

/-- A pointer; `undefined` is what a variable holds that was not assigned. -/
inductive Ptr
  | null
  | block (a : ℕ)
  | undefined
  deriving DecidableEq

def Ptr.address : Ptr → Option ℕ
  | .block a => some a
  | _ => none

/-- The block that a pointer leads to, as long as it is allocated. -/
def find (pool : Pool Block) (p : Ptr) : Option Block := p.address.bind pool.blocks

inductive Use
  /-- So many bytes of the block are read or written from the offset on. -/
  | copy (p : Ptr) (offset length : ℕ) (block : Option Block)
  | free (p : Ptr) (block : Option Block)
  | save (p : Ptr) (length : ℕ) (block : Option Block)

/-- The variables of `TcpDataReceive`, and the log. -/
structure Transfer where
  pool : Pool Block
  dataBuffer : Ptr
  bufferTemp : Ptr
  totalDataNumber : ℕ
  allocateLength : ℕ
  /-- `*Buffer`. -/
  buffer : Ptr
  /-- `*BufferSize`. -/
  bufferSize : ℕ
  uses : List Use

/-- `AllocateZeroPool`; `room n size` says whether the `n`-th allocation succeeds. -/
def allocateZeroPool (room : ℕ → ℕ → Bool) (size : ℕ) (pool : Pool Block) : Ptr × Pool Block :=
  let r := pool.allocate (fun n => room n size) ⟨size, fun _ => 0⟩
  (r.1.elim .null .block, r.2)

def freePool (p : Ptr) (s : Transfer) : Transfer :=
  { s with
    pool := p.address.elim s.pool fun a => s.pool.free (some a)
    uses := s.uses ++ [.free p (find s.pool p)] }

/-- Bytes are copied into a block. -/
def copyTo (p : Ptr) (offset : ℕ) (bytes : List UInt8) (s : Transfer) : Transfer :=
  { s with
    pool := p.address.elim s.pool fun a => (s.pool.blocks a).elim s.pool fun b =>
      s.pool.write a { b with cells := blit b.cells offset bytes }
    uses := s.uses ++ [.copy p offset bytes.length (find s.pool p)] }

/-- The first bytes of a block are copied into another. -/
def copyBlock (p q : Ptr) (length : ℕ) (s : Transfer) : Transfer :=
  copyTo p 0 ((find s.pool q).elim [] fun b => slice b.cells 0 length)
    { s with uses := s.uses ++ [.copy q 0 length (find s.pool q)] }

/-! ### Receiving -/

/-- How the data ends: with the error of a receive request, or with that of its completion. -/
inductive Ending
  | receive (status : Status)
  | completion (status : Status)

def Ending.status : Ending → Status
  | .receive status => status
  | .completion status => status

section Receive

variable (room : ℕ → ℕ → Bool)

/-- The fragment is appended to what is in `BufferTemp`, and the buffer is published. -/
def publish (bulk : List UInt8) (s : Transfer) : Transfer :=
  let s := copyTo s.bufferTemp s.totalDataNumber bulk s
  let total := add64 s.totalDataNumber bulk.length
  { s with
    totalDataNumber := total
    dataBuffer := s.bufferTemp
    buffer := s.bufferTemp
    bufferSize := total }

/-- A larger block takes over what was received so far; an error is one of the allocation. -/
def grow (s : Transfer) : Except Transfer Transfer :=
  let allocateLength := add64 s.allocateLength SIZE_8MB
  let r := allocateZeroPool room allocateLength s.pool
  let s := { s with pool := r.2, allocateLength := allocateLength, bufferTemp := r.1 }
  if r.1 = .null then .error (if s.dataBuffer = .null then s else freePool s.dataBuffer s)
  else if s.dataBuffer = .null then .ok s
  else .ok (freePool s.dataBuffer (copyBlock s.bufferTemp s.dataBuffer s.totalDataNumber s))

/-- A fragment that was received. -/
def append (bulk : List UInt8) (s : Transfer) : Except Transfer Transfer :=
  if s.allocateLength < add64 s.totalDataNumber bulk.length then (grow room s).map (publish bulk)
  else .ok (publish bulk s)

/-- The endless loop, on the fragments up to the error that ends it. -/
def receiveLoop (ending : Ending) : List (List UInt8) → Transfer → Status × Transfer
  | [], s => (ending.status, s)
  | bulk :: fragments, s =>
    match append room bulk s with
    | .ok s => receiveLoop ending fragments s
    | .error s => (EFI_OUT_OF_RESOURCES, s)

def tcpDataReceive (pool : Pool Block) (fragments : List (List UInt8)) (ending : Ending) :
    Status × Transfer :=
  let r := allocateZeroPool room RX_FRAGMENT_SIZE pool
  let s : Transfer := ⟨r.2, .null, .undefined, 0, 0, .null, 0, []⟩
  if r.1 = .null then (EFI_OUT_OF_RESOURCES, s) else receiveLoop room ending fragments s

/-! ### Saving -/

/-- What the shell answers when the file is opened, and when it is written. -/
structure Disk where
  openFile : Status
  writeFile : Status

def saveFileToDisk (d : Disk) (bufferSize : ℕ) (buffer : Ptr) (s : Transfer) : Transfer :=
  if efiError d.openFile then freePool buffer s
  else
    let s := { s with uses := s.uses ++ [.save buffer bufferSize (find s.pool buffer)] }
    if efiError d.writeFile then freePool buffer s else s

/-- With the status of the accepted connection and that of opening it. The status of
`TcpDataReceive` is not looked at. -/
def connectionAccepted (d : Disk) (accept openProtocol : Status) (pool : Pool Block)
    (fragments : List (List UInt8)) (ending : Ending) : Option Transfer :=
  if efiError accept then none
  else if efiError openProtocol then none
  else
    let s := (tcpDataReceive room pool fragments ending).2
    some (saveFileToDisk d s.bufferSize s.buffer s)

end Receive

end UefiToolkit.TransportModel

import VitaConnect.CString.Words
import VitaConnect.Program.Effect

/-! # Reading an EBOOT.PBP (`pbp.c`, `pbp.h`)

A function of `pbp.c` opens the file once and works through its descriptor. `Reading` is the open
file with the answers of the calls still to come and the calls made so far. An answer of `sceIoRead` that
is an error delivers nothing, and what the call leaves of the array it should fill is the old content:
for a local variable whatever its memory held, which is `Stack`.

An `int` is an integer and a `size_t` a natural number below `2 ^ 32`; `u32` and `i32` are the
conversions between them.
-/
namespace VitaConnect.Pbp
open CString Program
set_option autoImplicit false

/-! ## Data -/

inductive PbpType
  | npumdimg | psisoimg | pstitleimg | unknown
  deriving DecidableEq

def PbpType.code : PbpType → ℤ
  | .npumdimg => 0
  | .psisoimg => 1
  | .pstitleimg => 2
  | .unknown => 3

/-- The local arrays and structures that the reads fill. -/
inductive Local
  | pbpHeader | dataPsarMagic | pgdMagic | npumdimgHeader | dataPspHeader | wbuf
  deriving DecidableEq

def Local.size : Local → ℕ
  | pbpHeader => 40
  | dataPsarMagic => 8
  | pgdMagic => 4
  | npumdimgHeader => 256
  | dataPspHeader => 0x590
  | wbuf => 0x7c0

/-- The bytes that the memory of the local variables holds at first. -/
abbrev Stack := Local → ℕ → Byte

def Stack.array (mem : Stack) (x : Local) : List Byte := (List.range x.size).map (mem x)

@[simp] theorem Stack.array_length (mem : Stack) (x : Local) : (mem.array x).length = x.size := by
  rw [Stack.array, List.length_map, List.length_range]

inductive ReadAnswer
  /-- Everything that is asked for, up to the end of the file. -/
  | full
  /-- The same, but no more than `n` bytes. -/
  | short (n : ℕ)
  | error (code : {c : ℤ // -2147483648 ≤ c ∧ c < 0})

inductive Call
  | lseek (offset : ℤ)
  | read (size : ℕ) (delivered : List Byte) (ret : ℤ)
  | malloc (size : ℕ)
  | sha256Update (data : List Byte)
  deriving DecidableEq

structure Reading where
  sceIoOpen : ℤ
  content : List Byte
  pos : ℕ
  sceIoRead : ℕ → ReadAnswer
  /-- What the memory that `malloc` answers holds, if it answers any. -/
  malloc : Option (ℕ → Byte)
  /-- The caller's buffer `content_id` and the memory behind it. -/
  contentId : List Byte
  calls : List Call

inductive Fault
  /-- `sha256_update` is told to read behind the end of its buffer. -/
  | overread
  /-- The loop is still running when its fuel is used up. -/
  | running
  deriving DecidableEq

abbrev PbpM := EStateM Fault Reading

/-! ## Conversions -/

def u32 (z : ℤ) : ℕ := (z % 4294967296).toNat

def i32 (z : ℤ) : ℤ := (z + 2147483648) % 4294967296 - 2147483648

/-! ## Calls -/

def call (c : Call) : PbpM PUnit := modify fun s => { s with calls := s.calls ++ [c] }

/-- `sceIoLseek(fd, offset, SCE_SEEK_SET)`; a negative offset is refused. -/
def sceIoLseek (offset : ℤ) : PbpM PUnit := do
  modify fun s => { s with pos := if offset < 0 then s.pos else offset.toNat }
  call (.lseek offset)

def ReadAnswer.delivered (rest : List Byte) (size : ℕ) : ReadAnswer → List Byte
  | .full => rest.take size
  | .short n => rest.take (min n size)
  | .error _ => []

def ReadAnswer.ret (rest : List Byte) (size : ℕ) : ReadAnswer → ℤ
  | .error code => code
  | answer => (answer.delivered rest size).length

/-- The bytes of an array that a read leaves behind. -/
def overwrite (old delivered : List Byte) : List Byte := delivered ++ old.drop delivered.length

/-- `sceIoRead(fd, arr, sizeof(arr))`: the answer, and the array behind the call. -/
def readInto (arr : List Byte) : PbpM (ℤ × List Byte) := fun s =>
  let rest := s.content.drop s.pos
  let delivered := (s.sceIoRead 0).delivered rest arr.length
  let ret := (s.sceIoRead 0).ret rest arr.length
  .ok (ret, overwrite arr delivered) { s with
    pos := s.pos + delivered.length
    sceIoRead := fun i => s.sceIoRead (i + 1)
    calls := s.calls ++ [.read arr.length delivered ret] }

def malloc (size : ℕ) : PbpM (Option (List Byte)) := do
  call (.malloc size)
  let s ← get
  pure (s.malloc.map fun mem => (List.range size).map mem)

def sha256Update (data : List Byte) (len : ℕ) : PbpM PUnit :=
  if len ≤ data.length then call (.sha256Update (data.take len)) else throw .overread

/-! ## Fields -/

/-- The `SceUInt32` at `off` of a structure. -/
def word32 (struct : List Byte) (off : ℕ) : ℕ := leWord ((struct.drop off).take 4)

def paramSfoPtr (header : List Byte) : ℕ := word32 header 8

def icon0PngPtr (header : List Byte) : ℕ := word32 header 12

def dataPspPtr (header : List Byte) : ℕ := word32 header 32

def dataPsarPtr (header : List Byte) : ℕ := word32 header 36

/-- `"\0PGD"` -/
def pgd : List Byte := [0, 80, 71, 68]

/-! ## The content id -/

/-- `strncpy(content_id, field, 0x30)` of a field of 0x30 bytes. -/
def strncpyId (field : List Byte) : List Byte :=
  field.takeWhile (· != 0) ++ List.replicate (0x30 - (field.takeWhile (· != 0)).length) 0

def setContentId (field : List Byte) : PbpM PUnit :=
  modify fun s => { s with contentId := strncpyId field ++ s.contentId.drop 0x30 }

def strlenContentId : PbpM ℕ := do
  let s ← get
  pure (s.contentId.takeWhile (· != 0)).length

/-- The body that `read_content_id_data_psp` and `read_content_id_npumdimg` share: a header is read,
and its field at `off` is the content id. -/
def readContentId (mem : Stack) (header : Local) (off : ℕ) : PbpM ℤ := do
  let (readSz, struct) ← readInto (mem.array header)
  if u32 readSz < header.size then pure 0
  else do
    setContentId ((struct.drop off).take 0x30)
    let len ← strlenContentId
    pure (if len = 36 then 1 else 0)

def readContentIdDataPsp (mem : Stack) : PbpM ℤ := readContentId mem .dataPspHeader 0x560

def readContentIdNpumdimg (mem : Stack) : PbpM ℤ := readContentId mem .npumdimgHeader 0x10

/-! ## The type -/

/-- Where the signature of a PS1 image lies behind `data_psar_offset`. -/
def signatureOffset : PbpType → ℕ
  | .psisoimg => 0x400
  | _ => 0x200

def isPsxSigned (mem : Stack) (dataPsarOffset : ℤ) (pbpType : PbpType) : PbpM ℤ := do
  sceIoLseek (i32 (dataPsarOffset + signatureOffset pbpType))
  let (readLen, pgdMagic) ← readInto (mem.array .pgdMagic)
  if u32 readLen < Local.pgdMagic.size then pure PbpType.unknown.code
  else if pgdMagic = pgd then pure pbpType.code
  else pure PbpType.unknown.code

/-- The type, and what is in `*pbp_header`. The last test of the source is never reached. -/
def determinePbpType (mem : Stack) : PbpM (ℤ × List Byte) := do
  let (readSz, header) ← readInto (mem.array .pbpHeader)
  if u32 readSz < Local.pbpHeader.size then pure (0, header)
  else do
    sceIoLseek (dataPsarPtr header)
    let (readSz, magic) ← readInto (mem.array .dataPsarMagic)
    if u32 readSz < Local.dataPsarMagic.size then pure (0, header)
    else if magic = bytes "NPUMDIMG" then pure (PbpType.npumdimg.code, header)
    else if magic = bytes "PSISOIMG" then do
      let pbpType ← isPsxSigned mem (i32 (dataPsarPtr header)) .psisoimg
      pure (pbpType, header)
    else if magic = bytes "PSTITLEI" then do
      let pbpType ← isPsxSigned mem (i32 (dataPsarPtr header)) .pstitleimg
      pure (pbpType, header)
    else pure (PbpType.unknown.code, header)

def readDataPsarHeader (mem : Stack) : PbpM ℤ := do
  let (pbpType, header) ← determinePbpType mem
  if pbpType = PbpType.npumdimg.code then do
    sceIoLseek (dataPsarPtr header)
    readContentIdNpumdimg mem
  else if pbpType = PbpType.psisoimg.code ∨ pbpType = PbpType.pstitleimg.code then do
    sceIoLseek (dataPspPtr header)
    readContentIdDataPsp mem
  else pure 0

/-! ## The param.sfo -/

/-- The size, and what is in `*param_sfo_buffer`. -/
def readSfo (mem : Stack) : PbpM (ℤ × Option (List Byte)) := do
  let (readSz, header) ← readInto (mem.array .pbpHeader)
  if u32 readSz < Local.pbpHeader.size then pure (0, none)
  else
    let paramSfoSize := i32 (icon0PngPtr header - paramSfoPtr header)
    if paramSfoSize ≤ 0 then pure (0, none)
    else do
      let buffer ← malloc paramSfoSize.toNat
      match buffer with
      | none => pure (0, none)
      | some buffer => do
        sceIoLseek (paramSfoPtr header)
        let (readSz, buffer) ← readInto buffer
        if readSz < paramSfoSize then pure (0, none)
        else pure (paramSfoSize, some buffer)

/-! ## The hash -/

def hashLoop (hashSz : ℕ) : ℕ → List Byte → ℕ → PbpM PUnit
  | 0, _, _ => throw .running
  | fuel + 1, wbuf, totalHashed => do
    let (readSz, wbuf) ← readInto wbuf
    let readSz :=
      if hashSz < (totalHashed + u32 readSz) % 4294967296 then i32 (hashSz - totalHashed) else readSz
    sha256Update wbuf (u32 readSz)
    let totalHashed :=
      if u32 readSz < Local.wbuf.size then hashSz else (totalHashed + u32 readSz) % 4294967296
    if totalHashed < hashSz then hashLoop hashSz fuel wbuf totalHashed
    else pure ⟨⟩

def hashSize (header : List Byte) : ℕ := (dataPsarPtr header + 0x1C0000) % 4294967296

/-- A round that goes on has read 0x7c0 bytes, so the fuel lasts. -/
def hashPbp (mem : Stack) : PbpM ℤ := do
  sceIoLseek 0
  let (readSz, wbuf) ← readInto (mem.array .wbuf)
  if u32 readSz < Local.pbpHeader.size then pure readSz
  else do
    let hashSz := hashSize wbuf
    sha256Update wbuf (u32 readSz)
    let s ← get
    hashLoop hashSz (s.content.length + 1) wbuf (u32 readSz)
    pure 1

/-! ## The functions of `pbp.h` -/

/-- `sceIoOpen(pbp_file, SCE_O_RDONLY, 0)` -/
def openPbp : PbpM ℤ := do
  modify fun s => { s with pos := 0 }
  let s ← get
  pure s.sceIoOpen

def getPbpType (mem : Stack) (pbpFile : Option CStr) : PbpM ℤ := do
  match pbpFile with
  | none => pure 0
  | some _ =>
    let pbpFd ← openPbp
    if pbpFd < 0 then pure 0
    else do
      let (res, _) ← determinePbpType mem
      pure res

def getPbpContentId (mem : Stack) (pbpFile : Option CStr) : PbpM ℤ := do
  match pbpFile with
  | none => pure 0
  | some _ =>
    let pbpFd ← openPbp
    if pbpFd < 0 then pure 0
    else do
      let res ← readDataPsarHeader mem
      if res ≠ 0 then do
        let s ← get
        if ((s.contentId.take 0x30).takeWhile (· != 0)).length = 0x24 then pure res else pure 0
      else pure res

def getPbpSfo (mem : Stack) (pbpFile : Option CStr) : PbpM (ℤ × Option (List Byte)) := do
  match pbpFile with
  | none => pure (0, none)
  | some _ =>
    let pbpFd ← openPbp
    if pbpFd < 0 then pure (0, none) else readSfo mem

end VitaConnect.Pbp

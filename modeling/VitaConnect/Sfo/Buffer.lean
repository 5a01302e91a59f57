import VitaConnect.CString.Memory

/-! # Reading a param.sfo (`sfo.c`, `sfo.h`)

A read behind the end of the buffer has no value. Offsets are added to a 32-bit pointer, so they count
modulo `2 ^ 32`; an entry lies at most at the end of the buffer, where no sum wraps.
-/
namespace VitaConnect.Sfo
open CString
set_option autoImplicit false

def sfoMagic : ℕ := 0x46535000

def notFound : ℤ := 0xF0010002 - 0x100000000

def invalidMagic : ℤ := 0xF0010004 - 0x100000000

/-! ## Fields -/

/-- The `size` bytes at `off` as a number. -/
def word? (buffer : List Byte) (off size : ℕ) : Option ℕ := (slice? buffer off size).map leWord

def magic? (buffer : List Byte) : Option ℕ := word? buffer 0 4

def keyofs? (buffer : List Byte) : Option ℕ := word? buffer 8 4

def valofs? (buffer : List Byte) : Option ℕ := word? buffer 12 4

def count? (buffer : List Byte) : Option ℕ := word? buffer 16 4

/-- `&entries[i]` -/
def entryofs (i : ℕ) : ℕ := 20 + 16 * i

def nameofs? (buffer : List Byte) (i : ℕ) : Option ℕ := word? buffer (entryofs i) 2

def dataofs? (buffer : List Byte) (i : ℕ) : Option ℕ := word? buffer (entryofs i + 12) 4

/-- `buffer + base + ofs` -/
def behind (buffer : List Byte) (base ofs : ℕ) : List Byte := buffer.drop ((base + ofs) % 4294967296)

/-! ## The search -/

/-- `strcmp(buffer + header->keyofs + entries[i].nameofs, name) == 0` -/
def sameName (buffer : List Byte) (name : CStr) (i : ℕ) : Option Bool := do
  let keyofs ← keyofs? buffer
  let nameofs ← nameofs? buffer i
  strcmp (behind buffer keyofs nameofs) name

/-- The loop over the entries from `i` on, `left` of which are still to come. -/
def search (buffer : List Byte) (name : CStr) : ℕ → ℕ → Option (Option ℕ)
  | 0, _ => some none
  | left + 1, i => do
    let same ← sameName buffer name i
    if same then some (some i) else search buffer name left (i + 1)

/-- The body that `getSfoValue` and `getSfoString` share: `found` is what they do with the entry, and
`out` is what their output holds before the call. -/
def getSfo {α : Type} (buffer : List Byte) (name : CStr) (out : α) (found : ℕ → Option α) :
    Option (ℤ × α) := do
  let magic ← magic? buffer
  if magic ≠ sfoMagic then some (invalidMagic, out)
  else do
    let count ← count? buffer
    let entry ← search buffer name count 0
    match entry with
    | none => some (notFound, out)
    | some i => do
      let out ← found i
      some (0, out)

/-- `buffer + header->valofs + entries[i].dataofs` -/
def dataOf (buffer : List Byte) (i : ℕ) : Option (List Byte) := do
  let valofs ← valofs? buffer
  let dataofs ← dataofs? buffer i
  some (behind buffer valofs dataofs)

def getSfoValue (buffer : List Byte) (name : CStr) (value : ℕ) : Option (ℤ × ℕ) :=
  getSfo buffer name value fun i => do
    let data ← dataOf buffer i
    word? data 0 4

/-- `string` is the memory of the caller from its buffer on. -/
def getSfoString (buffer : List Byte) (name : CStr) (string : List Byte) (length : ℕ) :
    Option (ℤ × List Byte) :=
  getSfo buffer name string fun i => do
    let data ← dataOf buffer i
    let copied ← strncpy length data
    some ((copied ++ string.drop length).set (length - 1) 0)

end VitaConnect.Sfo

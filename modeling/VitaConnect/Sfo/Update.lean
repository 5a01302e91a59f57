import VitaConnect.CString.Store
import VitaConnect.Sfo.Layout

/-! # Writing to a param.sfo (`sfo.c`)

The setters look for the key as the getters do and write at its data. `totalsize`, the room an entry has,
is read by nothing in `sfo.c`: a setter keeps to its slot exactly when what it writes behind it is what
stands there already.
-/
namespace VitaConnect.Sfo
open CString
set_option autoImplicit false

/-- `buffer + header->valofs + entries[i].dataofs`, written to: none behind the end of the buffer. -/
def storeAt (buffer : List Byte) (i : ℕ) (xs : List Byte) : Option (List Byte) := do
  let valofs ← valofs? buffer
  let dataofs ← dataofs? buffer i
  store? buffer ((valofs + dataofs) % 4294967296) xs

def setSfoValue (buffer : List Byte) (name : CStr) (value : ℕ) : Option (ℤ × List Byte) :=
  getSfo buffer name buffer fun i => storeAt buffer i (leBytes 4 value)

/-- `strcpy` writes the string and its NUL. -/
def setSfoString (buffer : List Byte) (name string : CStr) : Option (ℤ × List Byte) :=
  getSfo buffer name buffer fun i => storeAt buffer i (string ++ [0])

/-! ## Slots -/

def type? (buffer : List Byte) (i : ℕ) : Option ℕ := word? buffer (entryofs i + 3) 1

def totalsize? (buffer : List Byte) (i : ℕ) : Option ℕ := word? buffer (entryofs i + 8) 4

def psfTypeStr : ℕ := 2

def psfTypeVal : ℕ := 4

/-- An entry by the places of its key and of its data in the buffer. -/
structure Slot where
  name : CStr
  nulFree : 0 ∉ name
  type : ℕ
  keyAt : ℕ
  dataAt : ℕ
  totalsize : ℕ

namespace Slot

def key (slot : Slot) : List Byte := slot.name ++ [0]

def stop (slot : Slot) : ℕ := slot.dataAt + slot.totalsize

def contents (slot : Slot) (buffer : List Byte) : List Byte := (buffer.drop slot.dataAt).take slot.totalsize

end Slot

/-- The tables of the buffer name the slots, which lie inside, behind the tables, and apart. -/
structure Tabled (slots : List Slot) (buffer : List Byte) : Prop where
  fits : buffer.length < 4294967296
  magic : magic? buffer = some sfoMagic
  count : count? buffer = some slots.length
  entries : ∃ keyofs valofs, keyofs? buffer = some keyofs ∧ valofs? buffer = some valofs ∧
    ∀ i slot, slots[i]? = some slot → ∃ nameofs dataofs,
      nameofs? buffer i = some nameofs ∧ dataofs? buffer i = some dataofs ∧
      type? buffer i = some slot.type ∧ totalsize? buffer i = some slot.totalsize ∧
      slot.keyAt = keyofs + nameofs ∧ slot.dataAt = valofs + dataofs ∧
      slice? buffer slot.keyAt slot.key.length = some slot.key
  distinct : (slots.map Slot.name).Nodup
  inside : ∀ slot ∈ slots, entryofs slots.length ≤ slot.dataAt ∧ slot.stop ≤ buffer.length
  keys : ∀ slot ∈ slots, ∀ other ∈ slots,
    other.keyAt + other.key.length ≤ slot.dataAt ∨ slot.stop ≤ other.keyAt
  disjoint : slots.Pairwise fun slot other => slot.stop ≤ other.dataAt ∨ other.stop ≤ slot.dataAt

/-- A string ends in its slot, and a value has its four bytes. -/
structure WellFormed (slots : List Slot) (buffer : List Byte) : Prop extends Tabled slots buffer where
  strings : ∀ slot ∈ slots, slot.type = psfTypeStr → 0 ∈ slot.contents buffer
  values : ∀ slot ∈ slots, slot.type = psfTypeVal → 4 ≤ slot.totalsize

/-! ## Looking up a slot -/

section Lookup
variable {slots : List Slot} {buffer : List Byte} {slot : Slot} {i : ℕ}

theorem Tabled.keyed (h : Tabled slots buffer) : Keyed (slots.map Slot.name) buffer where
  count := by rw [h.count, List.length_map]
  same i key hkey name hname := by
    rw [List.getElem?_map, Option.map_eq_some_iff] at hkey
    obtain ⟨slot, hslot, rfl⟩ := hkey
    obtain ⟨keyofs, valofs, hkeyofs, -, hentries⟩ := h.entries
    obtain ⟨nameofs, -, hnameofs, -, -, -, hkeyAt, -, hkey⟩ := hentries i slot hslot
    rw [hkeyAt] at hkey
    obtain ⟨rest, hrest⟩ := behind_of_slice h.fits hkey (by simp [Slot.key])
    unfold sameName
    rw [hkeyofs, hnameofs]
    simp only [Option.bind_eq_bind, Option.bind_some, hrest, Slot.key, List.append_assoc]
    exact strcmp_string slot.nulFree hname rest

theorem Tabled.getSfo_eq {α : Type} {out : α} {found : ℕ → Option α} (h : Tabled slots buffer)
    (hslot : slots[i]? = some slot) :
    getSfo buffer slot.name out found = (found i).map fun out => (0, out) := by
  have hname : (slots.map Slot.name)[i]? = some slot.name := by rw [List.getElem?_map, hslot, Option.map_some]
  exact h.keyed.getSfo_present h.magic h.distinct slot.nulFree hname

theorem Tabled.dataAt_lt (h : Tabled slots buffer) (hslot : slots[i]? = some slot) :
    slot.dataAt < 4294967296 := by
  have hinside := (h.inside slot (List.mem_of_getElem? hslot)).2
  have hfits := h.fits
  rw [Slot.stop] at hinside
  omega

theorem Tabled.dataOf (h : Tabled slots buffer) (hslot : slots[i]? = some slot) :
    dataOf buffer i = some (buffer.drop slot.dataAt) := by
  have hlt := h.dataAt_lt hslot
  obtain ⟨keyofs, valofs, -, hvalofs, hentries⟩ := h.entries
  obtain ⟨-, dataofs, -, hdataofs, -, -, -, hdataAt, -⟩ := hentries i slot hslot
  rw [hdataAt] at hlt
  simp only [Sfo.dataOf, hvalofs, hdataofs, Option.bind_eq_bind, Option.bind_some, behind,
    Nat.mod_eq_of_lt hlt, hdataAt]

theorem Tabled.storeAt (h : Tabled slots buffer) (hslot : slots[i]? = some slot) (xs : List Byte) :
    storeAt buffer i xs = store? buffer slot.dataAt xs := by
  have hlt := h.dataAt_lt hslot
  obtain ⟨keyofs, valofs, -, hvalofs, hentries⟩ := h.entries
  obtain ⟨-, dataofs, -, hdataofs, -, -, -, hdataAt, -⟩ := hentries i slot hslot
  rw [hdataAt] at hlt
  simp only [Sfo.storeAt, hvalofs, hdataofs, Option.bind_eq_bind, Option.bind_some,
    Nat.mod_eq_of_lt hlt, hdataAt]

theorem Tabled.setSfoString (h : Tabled slots buffer) (hslot : slots[i]? = some slot) (s : CStr) :
    setSfoString buffer slot.name s
      = (store? buffer slot.dataAt (s ++ [0])).map fun buffer' => (0, buffer') := by
  rw [Sfo.setSfoString, h.getSfo_eq hslot, h.storeAt hslot]

theorem Tabled.setSfoValue (h : Tabled slots buffer) (hslot : slots[i]? = some slot) (value : ℕ) :
    setSfoValue buffer slot.name value
      = (store? buffer slot.dataAt (leBytes 4 value)).map fun buffer' => (0, buffer') := by
  rw [Sfo.setSfoValue, h.getSfo_eq hslot, h.storeAt hslot]

end Lookup

/-! ## What a store in one slot leaves -/

section Frame
variable {slots : List Slot} {buffer buffer' : List Byte} {slot other : Slot}

/-- Only bytes of the slot differ. -/
def Slot.Confined (slot : Slot) (buffer buffer' : List Byte) : Prop :=
  AgreeOutside slot.dataAt slot.totalsize buffer buffer'

/-- The tables are the same behind a store in one slot. -/
theorem Tabled.confined (h : Tabled slots buffer) (hslot : slot ∈ slots)
    (hconfined : slot.Confined buffer buffer') : Tabled slots buffer' := by
  have hbehind := (h.inside slot hslot).1
  rw [entryofs] at hbehind
  have hword : ∀ off size, off + size ≤ 20 + 16 * slots.length →
      word? buffer' off size = word? buffer off size := by
    intro off size hle
    rw [word?, word?, AgreeOutside.slice?_eq hconfined (.inl (by omega))]
  refine ⟨by rw [hconfined.length]; exact h.fits, ?_, ?_, ?_, h.distinct, ?_, h.keys, h.disjoint⟩
  · rw [magic?, hword 0 4 (by omega)]
    exact h.magic
  · rw [count?, hword 16 4 (by omega)]
    exact h.count
  · obtain ⟨keyofs, valofs, hkeyofs, hvalofs, hentries⟩ := h.entries
    refine ⟨keyofs, valofs, ?_, ?_, fun i entry hentry => ?_⟩
    · rw [keyofs?, hword 8 4 (by omega)]
      exact hkeyofs
    · rw [valofs?, hword 12 4 (by omega)]
      exact hvalofs
    · have hi := (List.getElem?_eq_some_iff.mp hentry).1
      obtain ⟨nameofs, dataofs, hnameofs, hdataofs, htype, htotalsize, hkeyAt, hdataAt, hkey⟩ :=
        hentries i entry hentry
      refine ⟨nameofs, dataofs, ?_, ?_, ?_, ?_, hkeyAt, hdataAt, ?_⟩
      · rw [nameofs?, hword _ 2 (by rw [entryofs]; omega)]
        exact hnameofs
      · rw [dataofs?, hword _ 4 (by rw [entryofs]; omega)]
        exact hdataofs
      · rw [type?, hword _ 1 (by rw [entryofs]; omega)]
        exact htype
      · rw [totalsize?, hword _ 4 (by rw [entryofs]; omega)]
        exact htotalsize
      · rw [AgreeOutside.slice?_eq hconfined (h.keys slot hslot entry (List.mem_of_getElem? hentry))]
        exact hkey
  · rw [hconfined.length]
    exact h.inside

theorem Tabled.apart (h : Tabled slots buffer) (hslot : slot ∈ slots) (hother : other ∈ slots)
    (hne : other.name ≠ slot.name) : slot.stop ≤ other.dataAt ∨ other.stop ≤ slot.dataAt := by
  obtain ⟨i, hi⟩ := List.getElem?_of_mem hslot
  obtain ⟨j, hj⟩ := List.getElem?_of_mem hother
  obtain ⟨hil, rfl⟩ := List.getElem?_eq_some_iff.mp hi
  obtain ⟨hjl, rfl⟩ := List.getElem?_eq_some_iff.mp hj
  have hij : i ≠ j := by
    rintro rfl
    exact hne rfl
  have hpairs := List.pairwise_iff_getElem.mp h.disjoint
  rcases Nat.lt_or_gt_of_ne hij with hlt | hgt
  · exact hpairs i j hil hjl hlt
  · exact (hpairs j i hjl hil hgt).symm

/-- The contents of every other slot are the same. -/
theorem Tabled.contents_eq (h : Tabled slots buffer) (hslot : slot ∈ slots) (hother : other ∈ slots)
    (hne : other.name ≠ slot.name) (hconfined : slot.Confined buffer buffer') :
    other.contents buffer' = other.contents buffer :=
  AgreeOutside.take_drop_eq hconfined (h.apart hslot hother hne).symm

end Frame

/-! ## Reading a slot -/

section Reads
variable {slots : List Slot} {buffer buffer' : List Byte} {slot : Slot} {i : ℕ}

/-- A string read that stays in the slot: of an entry that holds a string, or of at most `totalsize` bytes. -/
def Slot.ReadsString (slot : Slot) (length : ℕ) : Prop := slot.type = psfTypeStr ∨ length ≤ slot.totalsize

def Slot.ReadsValue (slot : Slot) : Prop := slot.type = psfTypeVal ∨ 4 ≤ slot.totalsize

theorem Tabled.getSfoString_contents (h : Tabled slots buffer) (hslot : slots[i]? = some slot)
    {length : ℕ} (hread : 0 ∈ slot.contents buffer ∨ length ≤ slot.totalsize) (string : List Byte) :
    getSfoString buffer slot.name string length
      = (strncpy length (slot.contents buffer)).map fun copied =>
          (0, (copied ++ string.drop length).set (length - 1) 0) := by
  rw [getSfoString, h.getSfo_eq hslot, h.dataOf hslot, Slot.contents, strncpy_take hread]
  cases hcopied : strncpy length (buffer.drop slot.dataAt) <;> simp [hcopied]

theorem Tabled.getSfoValue_contents (h : Tabled slots buffer) (hslot : slots[i]? = some slot)
    (hread : 4 ≤ slot.totalsize) (value : ℕ) :
    getSfoValue buffer slot.name value = (word? (slot.contents buffer) 0 4).map fun value => (0, value) := by
  rw [getSfoValue, h.getSfo_eq hslot, h.dataOf hslot, Slot.contents, word?_take (by omega)]
  rfl

end Reads

/-! ## The law of put and get -/

/-- What of `xs` does not fit the slot stands behind it already: nothing, when all of it fits. -/
def Slot.Takes (slot : Slot) (buffer xs : List Byte) : Prop := xs.drop slot.totalsize <+: buffer.drop slot.stop

theorem Slot.takes_of_length_le {slot : Slot} {buffer xs : List Byte} (h : xs.length ≤ slot.totalsize) :
    slot.Takes buffer xs := by
  rw [Takes, List.drop_eq_nil_of_le h]
  exact List.nil_prefix

/-- Every key but `name` reads as before. -/
structure OthersRead (slots : List Slot) (name : CStr) (buffer buffer' : List Byte) : Prop where
  strings : ∀ other ∈ slots, other.name ≠ name → ∀ string length, other.ReadsString length →
    getSfoString buffer' other.name string length = getSfoString buffer other.name string length
  values : ∀ other ∈ slots, other.name ≠ name → other.ReadsValue → ∀ value,
    getSfoValue buffer' other.name value = getSfoValue buffer other.name value
  absentStrings : ∀ key, 0 ∉ key → key ∉ slots.map Slot.name → ∀ string length,
    getSfoString buffer' key string length = getSfoString buffer key string length
  absentValues : ∀ key, 0 ∉ key → key ∉ slots.map Slot.name → ∀ value,
    getSfoValue buffer' key value = getSfoValue buffer key value

/-- `setSfoString` returns 0, the string can be read, and nothing else differs. -/
def SetsString (slots : List Slot) (slot : Slot) (buffer : List Byte) (s : CStr) : Prop :=
  ∃ buffer', setSfoString buffer slot.name s = some (0, buffer') ∧
    (∀ string length, 1 ≤ length → getSfoString buffer' slot.name string length = some (0,
      s.take (length - 1) ++ List.replicate (length - (s.take (length - 1)).length) 0 ++ string.drop length)) ∧
    OthersRead slots slot.name buffer buffer' ∧ slot.Confined buffer buffer'

def SetsValue (slots : List Slot) (slot : Slot) (buffer : List Byte) (n : ℕ) : Prop :=
  ∃ buffer', setSfoValue buffer slot.name n = some (0, buffer') ∧
    (∀ value, getSfoValue buffer' slot.name value = some (0, n)) ∧
    OthersRead slots slot.name buffer buffer' ∧ slot.Confined buffer buffer'

section Law
variable {slots : List Slot} {buffer buffer' : List Byte} {slot : Slot} {i : ℕ}

theorem WellFormed.othersRead (h : WellFormed slots buffer) (hslot : slot ∈ slots)
    (hconfined : slot.Confined buffer buffer') : OthersRead slots slot.name buffer buffer' := by
  have h' := h.toTabled.confined hslot hconfined
  refine ⟨fun other hother hne string length hread => ?_, fun other hother hne hread value => ?_,
    fun key hkey habsent string length => ?_, fun key hkey habsent value => ?_⟩
  · obtain ⟨j, hj⟩ := List.getElem?_of_mem hother
    have hcontents := h.toTabled.contents_eq hslot hother hne hconfined
    have hinside : 0 ∈ other.contents buffer ∨ length ≤ other.totalsize :=
      hread.imp_left fun htype => h.strings other hother htype
    rw [h.toTabled.getSfoString_contents hj hinside,
      h'.getSfoString_contents hj (by rw [hcontents]; exact hinside), hcontents]
  · obtain ⟨j, hj⟩ := List.getElem?_of_mem hother
    have hcontents := h.toTabled.contents_eq hslot hother hne hconfined
    have hinside : 4 ≤ other.totalsize := hread.elim (h.values other hother) id
    rw [h.toTabled.getSfoValue_contents hj hinside, h'.getSfoValue_contents hj hinside, hcontents]
  · rw [getSfoString, getSfoString, h.keyed.getSfo_absent h.magic hkey habsent,
      h'.keyed.getSfo_absent h'.magic hkey habsent]
  · rw [getSfoValue, getSfoValue, h.keyed.getSfo_absent h.magic hkey habsent,
      h'.keyed.getSfo_absent h'.magic hkey habsent]

theorem Tabled.store_confined_iff (h : Tabled slots buffer) (hslot : slot ∈ slots) (xs : List Byte) :
    (∃ buffer', store? buffer slot.dataAt xs = some buffer' ∧ slot.Confined buffer buffer') ↔
      slot.Takes buffer xs :=
  store?_agreeOutside_iff (h.inside slot hslot).2

/-- What was stored at the data of a slot is found there. -/
theorem Tabled.dataOf_store (h : Tabled slots buffer) (hslot : slots[i]? = some slot) {xs : List Byte}
    (hstore : store? buffer slot.dataAt xs = some buffer') (hconfined : slot.Confined buffer buffer') :
    ∃ rest, Sfo.dataOf buffer' i = some (xs ++ rest) := by
  have h' := h.confined (List.mem_of_getElem? hslot) hconfined
  obtain ⟨htake, -⟩ := slice?_eq_some_iff.mp (slice?_store hstore)
  refine ⟨(buffer'.drop slot.dataAt).drop xs.length, ?_⟩
  have hsplit := List.take_append_drop xs.length (buffer'.drop slot.dataAt)
  rw [htake] at hsplit
  rw [h'.dataOf hslot, hsplit]

theorem returnsZero_iff {stored : Option (List Byte)} :
    stored.map (fun buffer => ((0 : ℤ), buffer)) = some (0, buffer') ↔ stored = some buffer' := by
  simp

theorem setsString_iff (h : WellFormed slots buffer) (hslot : slots[i]? = some slot) {s : CStr} (hs : 0 ∉ s) :
    SetsString slots slot buffer s ↔ slot.Takes buffer (s ++ [0]) := by
  have hmem := List.mem_of_getElem? hslot
  rw [← h.toTabled.store_confined_iff hmem, SetsString, h.toTabled.setSfoString hslot]
  constructor
  · rintro ⟨buffer', hset, -, -, hconfined⟩
    exact ⟨buffer', returnsZero_iff.mp hset, hconfined⟩
  · rintro ⟨buffer', hstore, hconfined⟩
    have h' := h.toTabled.confined hmem hconfined
    refine ⟨buffer', returnsZero_iff.mpr hstore, fun string length hlength => ?_,
      h.othersRead hmem hconfined, hconfined⟩
    obtain ⟨n, rfl⟩ := Nat.exists_eq_add_of_le' hlength
    obtain ⟨rest, hdata⟩ := h.toTabled.dataOf_store hslot hstore hconfined
    have hfound := strncpy_into hs rest string n
    rw [getSfoString, h'.getSfo_eq hslot, hdata, List.append_assoc]
    exact congrArg (Option.map _) hfound

theorem setsValue_iff (h : WellFormed slots buffer) (hslot : slots[i]? = some slot) {n : ℕ}
    (hn : n < 4294967296) : SetsValue slots slot buffer n ↔ slot.Takes buffer (leBytes 4 n) := by
  have hmem := List.mem_of_getElem? hslot
  rw [← h.toTabled.store_confined_iff hmem, SetsValue, h.toTabled.setSfoValue hslot]
  constructor
  · rintro ⟨buffer', hset, -, -, hconfined⟩
    exact ⟨buffer', returnsZero_iff.mp hset, hconfined⟩
  · rintro ⟨buffer', hstore, hconfined⟩
    have h' := h.toTabled.confined hmem hconfined
    refine ⟨buffer', returnsZero_iff.mpr hstore, fun value => ?_, h.othersRead hmem hconfined, hconfined⟩
    obtain ⟨rest, hdata⟩ := h.toTabled.dataOf_store hslot hstore hconfined
    rw [getSfoValue, h'.getSfo_eq hslot, hdata]
    exact congrArg (Option.map _) (word?_value hn rest)

/-- A setter that returns an error leaves the buffer as it is. -/
theorem getSfo_failed {α : Type} {name : CStr} {out out' : α} {found : ℕ → Option α} {res : ℤ}
    (h : getSfo buffer name out found = some (res, out')) (hres : res ≠ 0) : out' = out := by
  unfold getSfo at h
  cases hmagic : magic? buffer with
  | none => simp [hmagic] at h
  | some magic =>
    simp only [hmagic, Option.bind_eq_bind, Option.bind_some] at h
    split at h
    · exact (Prod.mk.inj (Option.some.inj h)).2.symm
    · obtain ⟨count, -, h⟩ := Option.bind_eq_some_iff.mp h
      obtain ⟨entry, -, h⟩ := Option.bind_eq_some_iff.mp h
      cases entry with
      | none => exact (Prod.mk.inj (Option.some.inj h)).2.symm
      | some i =>
        obtain ⟨out, -, h⟩ := Option.bind_eq_some_iff.mp h
        exact absurd (Prod.mk.inj (Option.some.inj h)).1.symm hres

end Law

/-- **Put and get.** In a well-formed file a setter keeps to the slot of its key, and the getters find what
was set and everything else as before, exactly when what it writes behind the slot stands there already. -/
theorem setSfo_lawful_iff (slots : List Slot) (buffer : List Byte) (h : WellFormed slots buffer) :
    (∀ slot ∈ slots,
      (∀ s, 0 ∉ s → (SetsString slots slot buffer s ↔ slot.Takes buffer (s ++ [0]))) ∧
        ∀ n < 4294967296, (SetsValue slots slot buffer n ↔ slot.Takes buffer (leBytes 4 n))) ∧
    ∀ name res buffer', res ≠ 0 →
      (∀ s, setSfoString buffer name s = some (res, buffer') → buffer' = buffer) ∧
        ∀ n, setSfoValue buffer name n = some (res, buffer') → buffer' = buffer := by
  constructor
  · intro slot hslot
    obtain ⟨i, hi⟩ := List.getElem?_of_mem hslot
    exact ⟨fun s hs => setsString_iff h hi hs, fun n hn => setsValue_iff h hi hn⟩
  · intro name res buffer' hres
    exact ⟨fun s hset => getSfo_failed hset hres, fun n hset => getSfo_failed hset hres⟩

theorem nulFree_discId : 0 ∉ bytes "DISC_ID" := by decide

theorem nulFree_title : 0 ∉ bytes "TITLE" := by decide

/-- The id of a disc and its title. -/
def discEntries : List SfoEntry :=
  [⟨bytes "DISC_ID", nulFree_discId, .string ⟨bytes "ULUS10000", by decide⟩⟩,
    ⟨bytes "TITLE", nulFree_title, .string ⟨bytes "abc", by decide⟩⟩]

def discSlots : List Slot :=
  [⟨bytes "DISC_ID", nulFree_discId, psfTypeStr, 52, 66, 10⟩,
    ⟨bytes "TITLE", nulFree_title, psfTypeStr, 60, 76, 4⟩]

theorem discSlots_wellFormed : WellFormed discSlots (encode sfoMagic discEntries) where
  fits := by decide
  magic := by decide
  count := by decide
  entries := by
    refine ⟨52, 66, by decide, by decide, fun i slot hslot => ?_⟩
    match i with
    | 0 =>
      obtain rfl := Option.some.inj hslot
      exact ⟨0, 0, by decide⟩
    | 1 =>
      obtain rfl := Option.some.inj hslot
      exact ⟨8, 10, by decide⟩
    | _ + 2 => cases hslot
  distinct := by decide
  inside := by decide
  keys := by decide
  disjoint := by decide
  strings := by decide
  values := by decide

theorem setSfo_lawful_disc :
    SetsString discSlots discSlots[0] (encode sfoMagic discEntries) (bytes "NPUG80001") ∧
      SetsValue discSlots discSlots[1] (encode sfoMagic discEntries) 7 := by
  have hlaw := (setSfo_lawful_iff discSlots (encode sfoMagic discEntries) discSlots_wellFormed).1
  constructor
  · exact ((hlaw discSlots[0] (List.getElem_mem _)).1 (bytes "NPUG80001") (by decide)).mpr
      (Slot.takes_of_length_le (by decide))
  · exact ((hlaw discSlots[1] (List.getElem_mem _)).2 7 (by decide)).mpr (Slot.takes_of_length_le (by decide))

/-- An id of ten characters ends in the first byte of the title. -/
theorem setSfoString_overruns : WellFormed discSlots (encode sfoMagic discEntries) ∧
    (∃ buffer', setSfoString (encode sfoMagic discEntries) (bytes "DISC_ID") (bytes "ULUS100000")
        = some (0, buffer') ∧
      getSfoString (encode sfoMagic discEntries) (bytes "TITLE") [9, 9, 9, 9] 4 = some (0, bytes "abc" ++ [0]) ∧
      getSfoString buffer' (bytes "TITLE") [9, 9, 9, 9] 4 = some (0, [0, 0, 0, 0])) ∧
    ¬ SetsString discSlots discSlots[0] (encode sfoMagic discEntries) (bytes "ULUS100000") := by
  refine ⟨discSlots_wellFormed, ⟨_, rfl, by decide, by decide⟩, fun hsets => ?_⟩
  have htakes := (setsString_iff discSlots_wellFormed (i := 0) rfl (by decide)).mp hsets
  revert htakes
  simp only [Slot.Takes]
  decide

end VitaConnect.Sfo

import VitaConnect.Sfo.InBounds

/-! # The layout of a param.sfo

`LaidOut` says that a buffer holds a list of entries, wherever its tables put the keys and the data;
`encode` is one such buffer. In every one of them a key that is present is found with its data, and one
that is absent is not.
-/
namespace VitaConnect.Sfo
open CString
set_option autoImplicit false

/-! ## Entries -/

inductive Datum
  | string (s : {s : CStr // 0 ∉ s})
  | value (n : {n : ℕ // n < 4294967296})

def Datum.bytes : Datum → List Byte
  | string s => s.1 ++ [0]
  | value n => leBytes 4 n

/-- `PSF_TYPE_STR` or `PSF_TYPE_VAL` -/
def Datum.type : Datum → Byte
  | string _ => 2
  | value _ => 4

structure SfoEntry where
  name : CStr
  nulFree : 0 ∉ name
  datum : Datum

def SfoEntry.key (e : SfoEntry) : List Byte := e.name ++ [0]

/-! ## Buffers that hold entries -/

structure LaidOut (magic : ℕ) (entries : List SfoEntry) (buffer : List Byte) : Prop where
  fits : buffer.length < 4294967296
  magic : magic? buffer = some magic
  count : count? buffer = some entries.length
  tables : ∃ keyofs valofs, keyofs? buffer = some keyofs ∧ valofs? buffer = some valofs ∧
    ∀ i e, entries[i]? = some e → ∃ nameofs dataofs,
      nameofs? buffer i = some nameofs ∧ dataofs? buffer i = some dataofs ∧
      slice? buffer (keyofs + nameofs) e.key.length = some e.key ∧
      slice? buffer (valofs + dataofs) e.datum.bytes.length = some e.datum.bytes

section Lookup
variable {magic : ℕ} {entries : List SfoEntry} {buffer : List Byte} {name : CStr} {i : ℕ} {e : SfoEntry}

theorem behind_of_slice {base ofs : ℕ} {xs : List Byte} (hfits : buffer.length < 4294967296)
    (hxs : slice? buffer (base + ofs) xs.length = some xs) (hpos : 0 < xs.length) :
    ∃ rest, behind buffer base ofs = xs ++ rest := by
  obtain ⟨htake, hle⟩ := slice?_eq_some_iff.mp hxs
  refine ⟨(buffer.drop (base + ofs)).drop xs.length, ?_⟩
  have hsplit := List.take_append_drop xs.length (buffer.drop (base + ofs))
  rw [htake] at hsplit
  rw [behind, Nat.mod_eq_of_lt (by omega)]
  exact hsplit.symm

theorem LaidOut.sameName (h : LaidOut magic entries buffer) (hname : 0 ∉ name)
    (he : entries[i]? = some e) : sameName buffer name i = some (decide (e.name = name)) := by
  obtain ⟨keyofs, valofs, hkeyofs, -, hentries⟩ := h.tables
  obtain ⟨nameofs, dataofs, hnameofs, -, hkey, -⟩ := hentries i e he
  obtain ⟨rest, hrest⟩ := behind_of_slice h.fits hkey (by simp [SfoEntry.key])
  unfold Sfo.sameName
  rw [hkeyofs, hnameofs]
  show strcmp (behind buffer keyofs nameofs) name = _
  rw [hrest, SfoEntry.key, List.append_assoc]
  exact strcmp_string e.nulFree hname rest

theorem LaidOut.dataOf (h : LaidOut magic entries buffer) (he : entries[i]? = some e) :
    ∃ rest, dataOf buffer i = some (e.datum.bytes ++ rest) := by
  obtain ⟨keyofs, valofs, -, hvalofs, hentries⟩ := h.tables
  obtain ⟨nameofs, dataofs, -, hdataofs, -, hdata⟩ := hentries i e he
  obtain ⟨rest, hrest⟩ := behind_of_slice h.fits hdata (by cases e.datum <;> simp [Datum.bytes])
  refine ⟨rest, ?_⟩
  unfold Sfo.dataOf
  rw [hvalofs, hdataofs]
  exact congrArg some hrest

theorem LaidOut.keyed (h : LaidOut magic entries buffer) : Keyed (entries.map SfoEntry.name) buffer where
  count := by rw [h.count, List.length_map]
  same i key hkey name hname := by
    rw [List.getElem?_map, Option.map_eq_some_iff] at hkey
    obtain ⟨e, he, rfl⟩ := hkey
    exact h.sameName hname he

end Lookup

/-! ## The two functions -/

section Functions
variable {α : Type} {entries : List SfoEntry} {buffer : List Byte} {out : α} {found : ℕ → Option α}

theorem getSfo_present {i : ℕ} {e : SfoEntry} {out' : α} (h : LaidOut sfoMagic entries buffer)
    (hnames : (entries.map SfoEntry.name).Nodup) (he : entries[i]? = some e) (hfound : found i = some out') :
    getSfo buffer e.name out found = some (0, out') := by
  rw [h.keyed.getSfo_present h.magic hnames e.nulFree (i := i) (by rw [List.getElem?_map, he]; rfl), hfound]
  rfl

theorem getSfo_absent {name : CStr} (h : LaidOut sfoMagic entries buffer) (hname : 0 ∉ name)
    (habsent : ∀ e ∈ entries, e.name ≠ name) : getSfo buffer name out found = some (notFound, out) := by
  refine h.keyed.getSfo_absent h.magic hname fun hmem => ?_
  obtain ⟨e, he, heq⟩ := List.mem_map.mp hmem
  exact habsent e he heq

theorem getSfo_other_magic {magic : ℕ} (name : CStr) (h : LaidOut magic entries buffer)
    (hmagic : magic ≠ sfoMagic) : getSfo buffer name out found = some (invalidMagic, out) := by
  simp [getSfo, h.magic, hmagic]

end Functions

/-- What `getSfoString` leaves in the caller's memory when a string is at the data. -/
theorem strncpy_into {s : CStr} (hs : 0 ∉ s) (rest string : List Byte) (n : ℕ) :
    ((strncpy (n + 1) (s ++ 0 :: rest)).bind fun copied =>
        some ((copied ++ string.drop (n + 1)).set (n + 1 - 1) 0))
      = some (s.take n ++ List.replicate (n + 1 - (s.take n).length) 0 ++ string.drop (n + 1)) := by
  rw [strncpy_string hs]
  exact congrArg some (strncpy_terminated s n (string.drop (n + 1)))

/-- What `getSfoValue` reads when a value is at the data. -/
theorem word?_value {n : ℕ} (hn : n < 4294967296) (rest : List Byte) :
    word? (leBytes 4 n ++ rest) 0 4 = some n := by
  have hword : slice? (leBytes 4 n ++ rest) 0 4 = some (leBytes 4 n) :=
    slice?_append [] rest rfl rfl (leBytes_length 4 n)
  rw [word?, hword, Option.map_some, leWord_leBytes (lt_of_lt_of_le hn (by norm_num))]

theorem getSfoString_present {entries : List SfoEntry} {buffer : List Byte} {i : ℕ} {e : SfoEntry}
    {s : {s : CStr // 0 ∉ s}} (h : LaidOut sfoMagic entries buffer)
    (hnames : (entries.map SfoEntry.name).Nodup) (he : entries[i]? = some e)
    (hdatum : e.datum = .string s) (string : List Byte) (n : ℕ) :
    getSfoString buffer e.name string (n + 1) = some (0,
      s.1.take n ++ List.replicate (n + 1 - (s.1.take n).length) 0 ++ string.drop (n + 1)) := by
  obtain ⟨rest, hdata⟩ := h.dataOf he
  refine getSfo_present h hnames he ?_
  rw [hdata, hdatum, Datum.bytes, List.append_assoc]
  exact strncpy_into s.2 rest string n

theorem getSfoValue_present {entries : List SfoEntry} {buffer : List Byte} {i : ℕ} {e : SfoEntry}
    {n : {n : ℕ // n < 4294967296}} (h : LaidOut sfoMagic entries buffer)
    (hnames : (entries.map SfoEntry.name).Nodup) (he : entries[i]? = some e)
    (hdatum : e.datum = .value n) (value : ℕ) : getSfoValue buffer e.name value = some (0, n.1) := by
  obtain ⟨rest, hdata⟩ := h.dataOf he
  refine getSfo_present h hnames he ?_
  rw [hdata, hdatum, Datum.bytes]
  exact word?_value n.2 rest

/-- **Looking up what is laid out.** -/
theorem getSfo_laidOut (magic : ℕ) (entries : List SfoEntry) (buffer : List Byte)
    (h : LaidOut magic entries buffer) (hnames : (entries.map SfoEntry.name).Nodup) :
    (magic = sfoMagic →
      (∀ e ∈ entries,
        (∀ s, e.datum = .string s → ∀ string length, 1 ≤ length →
          getSfoString buffer e.name string length = some (0, s.1.take (length - 1) ++
            List.replicate (length - (s.1.take (length - 1)).length) 0 ++ string.drop length)) ∧
        ∀ n, e.datum = .value n → ∀ value, getSfoValue buffer e.name value = some (0, n.1)) ∧
      ∀ name, 0 ∉ name → (∀ e ∈ entries, e.name ≠ name) →
        (∀ string length, getSfoString buffer name string length = some (notFound, string)) ∧
          ∀ value, getSfoValue buffer name value = some (notFound, value)) ∧
    (magic ≠ sfoMagic → ∀ name,
      (∀ string length, getSfoString buffer name string length = some (invalidMagic, string)) ∧
        ∀ value, getSfoValue buffer name value = some (invalidMagic, value)) := by
  constructor
  · rintro rfl
    refine ⟨fun e he => ?_, fun name hname habsent => ?_⟩
    · obtain ⟨i, hi⟩ := List.getElem?_of_mem he
      refine ⟨fun s hs string length hlength => ?_, fun n hn value => ?_⟩
      · obtain ⟨k, rfl⟩ := Nat.exists_eq_add_of_le' hlength
        exact getSfoString_present h hnames hi hs string k
      · exact getSfoValue_present h hnames hi hn value
    · exact ⟨fun _ _ => getSfo_absent h hname habsent, fun _ => getSfo_absent h hname habsent⟩
  · intro hmagic name
    exact ⟨fun _ _ => getSfo_other_magic name h hmagic, fun _ => getSfo_other_magic name h hmagic⟩

/-! ## A file with given entries -/

/-- `SfoEntry` with `nameofs` and `dataofs`; the other fields are for other readers. -/
def record (e : SfoEntry) (nameofs dataofs : ℕ) : List Byte :=
  leBytes 2 nameofs ++ [4, e.datum.type] ++
    leBytes 4 e.datum.bytes.length ++ leBytes 4 e.datum.bytes.length ++ leBytes 4 dataofs

def keyTable (entries : List SfoEntry) : List Byte := (entries.map SfoEntry.key).flatten

def valueTable (entries : List SfoEntry) : List Byte := (entries.map fun e => e.datum.bytes).flatten

def entryTable : List SfoEntry → ℕ → ℕ → List Byte
  | [], _, _ => []
  | e :: entries, nameofs, dataofs => record e nameofs dataofs ++
      entryTable entries (nameofs + e.key.length) (dataofs + e.datum.bytes.length)

def header (magic keyofs valofs count : ℕ) : List Byte :=
  leBytes 4 magic ++ leBytes 4 0x101 ++ leBytes 4 keyofs ++ leBytes 4 valofs ++ leBytes 4 count

def encode (magic : ℕ) (entries : List SfoEntry) : List Byte :=
  header magic (entryofs entries.length) (entryofs entries.length + (keyTable entries).length)
      entries.length ++ entryTable entries 0 0 ++ keyTable entries ++ valueTable entries

section Encode
variable {magic : ℕ} {entries : List SfoEntry}

theorem record_length (e : SfoEntry) (nameofs dataofs : ℕ) : (record e nameofs dataofs).length = 16 := by
  simp [record]

theorem entryTable_length (nameofs dataofs : ℕ) :
    (entryTable entries nameofs dataofs).length = 16 * entries.length := by
  induction entries generalizing nameofs dataofs with
  | nil => rfl
  | cons e entries ih =>
    rw [entryTable, List.length_append, record_length, ih, List.length_cons]
    ring

theorem entryTable_append (pre post : List SfoEntry) (nameofs dataofs : ℕ) :
    entryTable (pre ++ post) nameofs dataofs = entryTable pre nameofs dataofs ++
      entryTable post (nameofs + (keyTable pre).length) (dataofs + (valueTable pre).length) := by
  induction pre generalizing nameofs dataofs with
  | nil => rfl
  | cons e pre ih =>
    rw [List.cons_append, entryTable, entryTable, ih, List.append_assoc]
    simp only [keyTable, valueTable, List.map_cons, List.flatten_cons, List.length_append, Nat.add_assoc]

theorem header_length (magic keyofs valofs count : ℕ) : (header magic keyofs valofs count).length = 20 := by
  simp [header]

/-- A word of a buffer that is written there. -/
theorem word?_append {buffer : List Byte} {off k n : ℕ} (pre post : List Byte)
    (hbuffer : buffer = pre ++ leBytes k n ++ post) (hoff : pre.length = off) (hn : n < 256 ^ k) :
    word? buffer off k = some n := by
  rw [word?, slice?_append pre post hbuffer hoff (leBytes_length k n), Option.map_some, leWord_leBytes hn]

theorem header_fields {keyofs valofs count : ℕ} (body : List Byte) (hmagic : magic < 4294967296)
    (hkeyofs : keyofs < 4294967296) (hvalofs : valofs < 4294967296) (hcount : count < 4294967296) :
    magic? (header magic keyofs valofs count ++ body) = some magic ∧
      keyofs? (header magic keyofs valofs count ++ body) = some keyofs ∧
      valofs? (header magic keyofs valofs count ++ body) = some valofs ∧
      count? (header magic keyofs valofs count ++ body) = some count := by
  refine ⟨word?_append [] (leBytes 4 0x101 ++ leBytes 4 keyofs ++ leBytes 4 valofs ++ leBytes 4 count ++
      body) (by simp [header]) rfl hmagic,
    word?_append (leBytes 4 magic ++ leBytes 4 0x101) (leBytes 4 valofs ++ leBytes 4 count ++ body)
      (by simp [header]) (by simp) hkeyofs,
    word?_append (leBytes 4 magic ++ leBytes 4 0x101 ++ leBytes 4 keyofs) (leBytes 4 count ++ body)
      (by simp [header]) (by simp) hvalofs,
    word?_append (leBytes 4 magic ++ leBytes 4 0x101 ++ leBytes 4 keyofs ++ leBytes 4 valofs) body
      (by simp [header]) (by simp) hcount⟩

/-- The parts of a file around its `i`-th entry. -/
theorem split_of_getElem? {i : ℕ} {e : SfoEntry} (he : entries[i]? = some e) :
    ∃ pre post, entries = pre ++ e :: post ∧ pre.length = i := by
  obtain ⟨hi, rfl⟩ := List.getElem?_eq_some_iff.mp he
  refine ⟨entries.take i, entries.drop (i + 1), ?_, by simp [hi.le]⟩
  rw [← List.drop_eq_getElem_cons hi, List.take_append_drop]

theorem keyTable_append (pre post : List SfoEntry) :
    keyTable (pre ++ post) = keyTable pre ++ keyTable post := by
  rw [keyTable, List.map_append, List.flatten_append, keyTable, keyTable]

theorem valueTable_append (pre post : List SfoEntry) :
    valueTable (pre ++ post) = valueTable pre ++ valueTable post := by
  rw [valueTable, List.map_append, List.flatten_append, valueTable, valueTable]

theorem keyTable_cons (e : SfoEntry) (post : List SfoEntry) :
    keyTable (e :: post) = e.key ++ keyTable post := rfl

theorem valueTable_cons (e : SfoEntry) (post : List SfoEntry) :
    valueTable (e :: post) = e.datum.bytes ++ valueTable post := rfl

/-- The three tables around an entry. -/
theorem tables_split {pre post : List SfoEntry} {e : SfoEntry} (h : entries = pre ++ e :: post) :
    keyTable entries = keyTable pre ++ e.key ++ keyTable post ∧
      valueTable entries = valueTable pre ++ e.datum.bytes ++ valueTable post ∧
      entryTable entries 0 0 = entryTable pre 0 0 ++
        record e (keyTable pre).length (valueTable pre).length ++
        entryTable post ((keyTable pre).length + e.key.length)
          ((valueTable pre).length + e.datum.bytes.length) := by
  refine ⟨?_, ?_, ?_⟩
  · rw [h, keyTable_append, keyTable_cons, List.append_assoc]
  · rw [h, valueTable_append, valueTable_cons, List.append_assoc]
  · rw [h, entryTable_append, entryTable, Nat.zero_add, Nat.zero_add, List.append_assoc]

theorem encode_length : (encode magic entries).length
    = 20 + 16 * entries.length + (keyTable entries).length + (valueTable entries).length := by
  simp only [encode, List.length_append, header_length, entryTable_length]

theorem encode_laidOut (hmagic : magic < 4294967296) (hkeys : (keyTable entries).length ≤ 65536)
    (hfits : (encode magic entries).length < 4294967296) :
    LaidOut magic entries (encode magic entries) := by
  have hlength := hfits
  rw [encode_length] at hlength
  set keyofs := entryofs entries.length with hkeyofs
  set valofs := entryofs entries.length + (keyTable entries).length with hvalofs
  rw [entryofs] at hkeyofs hvalofs
  have hencode : encode magic entries = header magic keyofs valofs entries.length ++
      (entryTable entries 0 0 ++ keyTable entries ++ valueTable entries) := by
    simp only [encode, List.append_assoc, keyofs, valofs]
  obtain ⟨hm, hk, hv, hc⟩ := header_fields (entryTable entries 0 0 ++ keyTable entries ++ valueTable entries)
    hmagic (show keyofs < 4294967296 by omega) (show valofs < 4294967296 by omega)
    (show entries.length < 4294967296 by omega)
  rw [← hencode] at hm hk hv hc
  refine ⟨hfits, hm, hc, keyofs, valofs, hk, hv, fun i e he => ?_⟩
  obtain ⟨pre, post, hentries, rfl⟩ := split_of_getElem? he
  obtain ⟨hkeyTable, hvalueTable, htable⟩ := tables_split hentries
  set rest := entryTable post ((keyTable pre).length + e.key.length)
    ((valueTable pre).length + e.datum.bytes.length)
  have hkeyLength : (keyTable pre).length < 256 ^ 2 := by
    have hlengths := congrArg List.length hkeyTable
    have hkey : e.key.length = e.name.length + 1 := by simp [SfoEntry.key]
    simp only [List.length_append] at hlengths
    omega
  have hvalueLength : (valueTable pre).length < 256 ^ 4 := by
    have hlengths := congrArg List.length hvalueTable
    simp only [List.length_append] at hlengths
    omega
  refine ⟨(keyTable pre).length, (valueTable pre).length, ?_, ?_, ?_, ?_⟩
  · refine word?_append (header magic keyofs valofs entries.length ++ entryTable pre 0 0)
      ([4, e.datum.type] ++ leBytes 4 e.datum.bytes.length ++ leBytes 4 e.datum.bytes.length ++
        leBytes 4 (valueTable pre).length ++ rest ++ keyTable entries ++ valueTable entries) ?_ ?_ hkeyLength
    · rw [hencode, htable]
      simp only [record, List.append_assoc]
    · rw [List.length_append, header_length, entryTable_length, entryofs]
  · refine word?_append (header magic keyofs valofs entries.length ++ entryTable pre 0 0 ++
      (leBytes 2 (keyTable pre).length ++ [4, e.datum.type] ++ leBytes 4 e.datum.bytes.length ++
        leBytes 4 e.datum.bytes.length)) (rest ++ keyTable entries ++ valueTable entries) ?_ ?_ hvalueLength
    · rw [hencode, htable]
      simp only [record, List.append_assoc]
    · simp only [List.length_append, header_length, entryTable_length, entryofs, leBytes_length,
        List.length_cons, List.length_nil]
  · refine slice?_append (header magic keyofs valofs entries.length ++ entryTable entries 0 0 ++
      keyTable pre) (keyTable post ++ valueTable entries) ?_ ?_ rfl
    · rw [hencode, hkeyTable]
      simp only [List.append_assoc]
    · simp only [List.length_append, header_length, entryTable_length, hkeyofs]
  · refine slice?_append (header magic keyofs valofs entries.length ++ entryTable entries 0 0 ++
      keyTable entries ++ valueTable pre) (valueTable post) ?_ ?_ rfl
    · rw [hencode, hvalueTable]
      simp only [List.append_assoc]
    · simp only [List.length_append, header_length, entryTable_length, hvalofs]

end Encode

/-- Two entries whose keys share a prefix. -/
def titleEntries : List SfoEntry :=
  [⟨bytes "TITLE", by decide, .value ⟨5, by decide⟩⟩,
    ⟨bytes "TITLE_ID", by decide, .string ⟨bytes "PCSB00001", by decide⟩⟩]

theorem getSfo_laidOut_title :
    getSfoString (encode sfoMagic titleEntries) (bytes "TITLE_ID") [1, 2, 3, 4, 5] 4
        = some (0, bytes "PCS" ++ [0, 5]) ∧
      getSfoValue (encode sfoMagic titleEntries) (bytes "TITLE") 0 = some (0, 5) ∧
      getSfoValue (encode sfoMagic titleEntries) (bytes "APP_VER") 7 = some (notFound, 7) := by
  obtain ⟨hpresent, habsent⟩ := (getSfo_laidOut sfoMagic titleEntries (encode sfoMagic titleEntries)
    (encode_laidOut (by decide) (by decide) (by decide)) (by decide)).1 rfl
  have htitle := hpresent titleEntries[0] (List.getElem_mem _)
  have htitleId := hpresent titleEntries[1] (List.getElem_mem _)
  refine ⟨htitleId.1 _ rfl [1, 2, 3, 4, 5] 4 (by decide), htitle.2 _ rfl 0, ?_⟩
  exact (habsent (bytes "APP_VER") (by decide) (by decide)).2 7

end VitaConnect.Sfo

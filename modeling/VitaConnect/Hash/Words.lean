import VitaConnect.CString.Words
import VitaConnect.Program.Blocks

/-! # Words and their bytes

Both hash functions read the words of a block and write the words of a digest with the most significant byte
first.
-/
namespace VitaConnect.Hash
open CString Program
set_option autoImplicit false

/-- `WORD` -/
abbrev Word := UInt32

/-! ## Rotations -/

/-- `ROTLEFT` -/
def rotleft (a b : Word) : Word := (a <<< b) ||| (a >>> (32 - b))

/-- `ROTRIGHT` -/
def rotright (a b : Word) : Word := (a >>> b) ||| (a <<< (32 - b))

def Standard.rotl (n : ℕ) (x : Word) : Word := ⟨x.toBitVec.rotateLeft n⟩

def Standard.rotr (n : ℕ) (x : Word) : Word := ⟨x.toBitVec.rotateRight n⟩

section Rotations
variable (a : Word) {n : ℕ}

theorem shift_amount (hn : n < 32) : ((UInt32.ofNat n).toBitVec % 32).toNat = n := by
  rw [BitVec.toNat_umod, UInt32.toNat_toBitVec, UInt32.toNat_ofNat']
  show n % 2 ^ 32 % 32 = n
  omega

theorem other_amount (hn : n < 32) : 32 - UInt32.ofNat n = UInt32.ofNat (32 - n) := by
  apply UInt32.toNat_inj.mp
  rw [UInt32.toNat_sub, UInt32.toNat_ofNat', UInt32.toNat_ofNat']
  show (2 ^ 32 - n % 2 ^ 32 + 32) % 2 ^ 32 = _
  omega

theorem rotleft_eq (h0 : 0 < n) (hn : n < 32) : rotleft a (UInt32.ofNat n) = Standard.rotl n a := by
  apply UInt32.toBitVec_inj.mp
  rw [rotleft, Standard.rotl, BitVec.rotateLeft_def, other_amount hn, UInt32.toBitVec_or,
    UInt32.toBitVec_shiftRight, UInt32.toBitVec_shiftLeft, BitVec.ushiftRight_eq', BitVec.shiftLeft_eq',
    shift_amount hn, shift_amount (by omega : 32 - n < 32), Nat.mod_eq_of_lt hn]

theorem rotright_eq (h0 : 0 < n) (hn : n < 32) : rotright a (UInt32.ofNat n) = Standard.rotr n a := by
  apply UInt32.toBitVec_inj.mp
  rw [rotright, Standard.rotr, BitVec.rotateRight_def, other_amount hn, UInt32.toBitVec_or,
    UInt32.toBitVec_shiftRight, UInt32.toBitVec_shiftLeft, BitVec.ushiftRight_eq', BitVec.shiftLeft_eq',
    shift_amount hn, shift_amount (by omega : 32 - n < 32), Nat.mod_eq_of_lt hn]

end Rotations

/-! ## The most significant byte first -/

def beWord (bs : List Byte) : ℕ := leWord bs.reverse

def beBytes (k n : ℕ) : List Byte := (leBytes k n).reverse

@[simp] theorem beBytes_length (k n : ℕ) : (beBytes k n).length = k := by
  rw [beBytes, List.length_reverse, leBytes_length]

theorem leBytes_getElem? {k j : ℕ} (n : ℕ) (hj : j < k) :
    (leBytes k n)[j]? = some (UInt8.ofNat (n / 256 ^ j)) := by
  induction k generalizing n j with
  | zero => exact absurd hj (Nat.not_lt_zero j)
  | succ k ih =>
    cases j with
    | zero => rw [leBytes, List.getElem?_cons_zero, pow_zero, Nat.div_one]
    | succ j =>
      rw [leBytes, List.getElem?_cons_succ, ih _ (Nat.lt_of_succ_lt_succ hj), Nat.div_div_eq_div_mul,
        pow_succ']

theorem beBytes_getElem? {k j : ℕ} (n : ℕ) (hj : j < k) :
    (beBytes k n)[j]? = some (UInt8.ofNat (n / 256 ^ (k - 1 - j))) := by
  rw [beBytes, List.getElem?_reverse (by rwa [leBytes_length]), leBytes_length,
    leBytes_getElem? n (by omega)]

theorem beWord_four (a b c d : Byte) :
    beWord [a, b, c, d] = ((a.toNat * 256 + b.toNat) * 256 + c.toNat) * 256 + d.toNat := by
  show leWord [d, c, b, a] = _
  rw [leWord_cons, leWord_cons, leWord_cons, leWord_cons]
  show _ + 256 * (_ + 256 * (_ + 256 * (_ + 256 * 0))) = _
  ring

/-! ## The words of a block -/

/-- The word number `i` of a block. -/
def wordAt (block : List Byte) (i : ℕ) : Word := UInt32.ofNat (beWord (blockAt 4 block i))

theorem blockAt_four {block : List Byte} {i : ℕ} (h : 4 * i + 4 ≤ block.length) :
    blockAt 4 block i = [block.getD (4 * i) 0, block.getD (4 * i + 1) 0, block.getD (4 * i + 2) 0,
      block.getD (4 * i + 3) 0] := by
  refine List.ext_getElem? fun p => ?_
  rw [blockAt, List.getElem?_take]
  have hget : ∀ j < 4, block[4 * i + j]? = some (block.getD (4 * i + j) 0) := fun j hj => by
    rw [List.getD_eq_getElem?_getD, List.getElem?_eq_getElem (by omega)]
    rfl
  rcases p with _ | _ | _ | _ | p
  · simpa using hget 0 (by decide)
  · simpa using hget 1 (by decide)
  · simpa using hget 2 (by decide)
  · simpa using hget 3 (by decide)
  · simp

/-- `(a << 24) + (b << 16) + (c << 8) + d` -/
def addedWord (a b c d : Byte) : Word :=
  (a.toUInt32 <<< 24) + (b.toUInt32 <<< 16) + (c.toUInt32 <<< 8) + d.toUInt32

/-- `(a << 24) | (b << 16) | (c << 8) | d` -/
def joinedWord (a b c d : Byte) : Word :=
  (a.toUInt32 <<< 24) ||| (b.toUInt32 <<< 16) ||| (c.toUInt32 <<< 8) ||| d.toUInt32

theorem toNat_shiftLeft_byte (b : Byte) {k : ℕ} (hk : k ≤ 24) :
    (b.toUInt32 <<< UInt32.ofNat k).toNat = b.toNat * 2 ^ k := by
  have hmod : (UInt32.ofNat k).toNat % 32 = k := by
    rw [UInt32.toNat_ofNat', Nat.mod_eq_of_lt (by omega : k < 2 ^ 32), Nat.mod_eq_of_lt (by omega)]
  rw [UInt32.toNat_shiftLeft, hmod, UInt8.toNat_toUInt32, Nat.shiftLeft_eq]
  refine Nat.mod_eq_of_lt ?_
  calc b.toNat * 2 ^ k < 256 * 2 ^ k := Nat.mul_lt_mul_of_pos_right b.toNat_lt (Nat.two_pow_pos k)
    _ ≤ 256 * 2 ^ 24 := Nat.mul_le_mul_left 256 (Nat.pow_le_pow_right two_pos hk)
    _ = 2 ^ 32 := by norm_num

theorem toNat_shiftLeft_bytes (a b c : Byte) :
    (a.toUInt32 <<< 24).toNat = a.toNat * 16777216 ∧ (b.toUInt32 <<< 16).toNat = b.toNat * 65536 ∧
      (c.toUInt32 <<< 8).toNat = c.toNat * 256 :=
  ⟨toNat_shiftLeft_byte a (by norm_num : 24 ≤ 24), toNat_shiftLeft_byte b (by norm_num : 16 ≤ 24),
    toNat_shiftLeft_byte c (by norm_num : 8 ≤ 24)⟩

section Parts
variable (a b c d : Byte)

theorem addedWord_eq : addedWord a b c d = UInt32.ofNat (beWord [a, b, c, d]) := by
  have ha := a.toNat_lt
  have hb := b.toNat_lt
  have hc := c.toNat_lt
  have hd := d.toNat_lt
  obtain ⟨h24, h16, h8⟩ := toNat_shiftLeft_bytes a b c
  apply UInt32.toNat_inj.mp
  rw [beWord_four, addedWord, UInt32.toNat_ofNat', UInt32.toNat_add, UInt32.toNat_add, UInt32.toNat_add,
    h24, h16, h8, UInt8.toNat_toUInt32]
  omega

/-- The bits of the parts are apart. -/
theorem joinedWord_eq_addedWord : joinedWord a b c d = addedWord a b c d := by
  have ha := a.toNat_lt
  have hb := b.toNat_lt
  have hc := c.toNat_lt
  have hd := d.toNat_lt
  obtain ⟨h24, h16, h8⟩ := toNat_shiftLeft_bytes a b c
  have hab : a.toNat * 16777216 ||| b.toNat * 65536 = a.toNat * 16777216 + b.toNat * 65536 := by
    have h := Nat.shiftLeft_add_eq_or_of_lt (i := 24) (b := b.toNat * 65536) (by omega) a.toNat
    rwa [Nat.shiftLeft_eq, eq_comm] at h
  have habc : a.toNat * 16777216 + b.toNat * 65536 ||| c.toNat * 256
      = a.toNat * 16777216 + b.toNat * 65536 + c.toNat * 256 := by
    have h := Nat.shiftLeft_add_eq_or_of_lt (i := 16) (b := c.toNat * 256) (by omega)
      (a.toNat * 256 + b.toNat)
    rw [Nat.shiftLeft_eq, eq_comm] at h
    convert h using 2 <;> ring
  have habcd : a.toNat * 16777216 + b.toNat * 65536 + c.toNat * 256 ||| d.toNat
      = a.toNat * 16777216 + b.toNat * 65536 + c.toNat * 256 + d.toNat := by
    have h := Nat.shiftLeft_add_eq_or_of_lt (i := 8) (b := d.toNat) (by omega)
      (a.toNat * 65536 + b.toNat * 256 + c.toNat)
    rw [Nat.shiftLeft_eq, eq_comm] at h
    convert h using 2 <;> ring
  apply UInt32.toNat_inj.mp
  rw [joinedWord, addedWord, UInt32.toNat_or, UInt32.toNat_or, UInt32.toNat_or, UInt32.toNat_add,
    UInt32.toNat_add, UInt32.toNat_add, h24, h16, h8, UInt8.toNat_toUInt32, hab, habc, habcd]
  omega

theorem joinedWord_eq : joinedWord a b c d = UInt32.ofNat (beWord [a, b, c, d]) := by
  rw [joinedWord_eq_addedWord, addedWord_eq]

end Parts

/-! ## The bytes of a digest -/

/-- `(w >> (24 - i * 8)) & 0x000000ff` -/
def wordByte (w : Word) (i : ℕ) : Byte := ((w >>> UInt32.ofNat (24 - i * 8)) &&& 0x000000ff).toUInt8

/-- The loop that copies the state to the digest: it writes the byte `i` of all words in round `i`. -/
def storeWords (words : List Word) (hash : List Byte) : List Byte :=
  (List.range 4).foldl (fun hash i =>
    (List.range words.length).foldl (fun hash j => hash.set (i + 4 * j) (wordByte (words.getD j 0) i)) hash)
    hash

def wordBytes (words : List Word) : List Byte := words.flatMap fun w => beBytes 4 w.toNat

theorem wordByte_eq (w : Word) {i : ℕ} (hi : i < 4) :
    wordByte w i = UInt8.ofNat (w.toNat / 256 ^ (3 - i)) := by
  have hmod : (UInt32.ofNat (24 - i * 8)).toNat % 32 = 8 * (3 - i) := by
    rw [UInt32.toNat_ofNat', Nat.mod_eq_of_lt (by omega : 24 - i * 8 < 2 ^ 32), Nat.mod_eq_of_lt] <;> omega
  apply UInt8.toNat_inj.mp
  rw [wordByte, UInt32.toNat_toUInt8, UInt32.toNat_and, UInt32.toNat_shiftRight, hmod,
    UInt8.toNat_ofNat', Nat.shiftRight_eq_div_pow, pow_mul]
  show (_ &&& 255) % _ = _
  rw [Nat.and_two_pow_sub_one_eq_mod _ 8]
  exact Nat.mod_mod _ _

theorem wordBytes_length (words : List Word) : (wordBytes words).length = 4 * words.length := by
  induction words with
  | nil => rfl
  | cons w words ih =>
    rw [wordBytes, List.flatMap_cons, List.length_append, ← wordBytes, ih, beBytes_length,
      List.length_cons]
    ring

theorem wordBytes_getElem? (words : List Word) {p : ℕ} (hp : p < 4 * words.length) :
    (wordBytes words)[p]? = some (wordByte (words.getD (p / 4) 0) (p % 4)) := by
  induction words generalizing p with
  | nil => exact absurd hp (Nat.not_lt_zero p)
  | cons w words ih =>
    rw [wordBytes, List.flatMap_cons, ← wordBytes]
    by_cases hfirst : p < 4
    · rw [List.getElem?_append_left (by rwa [beBytes_length]), beBytes_getElem? _ hfirst,
        Nat.div_eq_of_lt hfirst, Nat.mod_eq_of_lt hfirst, List.getD_cons_zero, wordByte_eq w hfirst]
    · obtain ⟨q, rfl⟩ : ∃ q, p = q + 4 := ⟨p - 4, by omega⟩
      rw [List.length_cons] at hp
      rw [List.getElem?_append_right (by rw [beBytes_length]; omega), beBytes_length,
        Nat.add_sub_cancel, ih (by omega), Nat.add_div_right q (by norm_num), Nat.add_mod_right,
        List.getD_cons_succ]

theorem storeWords_eq {words : List Word} {hash : List Byte} (h : 4 * words.length ≤ hash.length) :
    storeWords words hash = wordBytes words ++ hash.drop (4 * words.length) := by
  have hfold : storeWords words hash
      = ((List.range 4).flatMap fun i => (List.range words.length).map fun j => (i, j)).foldl
        (fun hash ij => hash.set (ij.1 + 4 * ij.2) (wordByte (words.getD ij.2 0) ij.1)) hash := by
    rw [List.foldl_flatMap]
    simp only [List.foldl_map]
    rfl
  have hmem : ∀ ij : ℕ × ℕ, ij ∈ ((List.range 4).flatMap fun i => (List.range words.length).map
      fun j => (i, j)) ↔ ij.1 < 4 ∧ ij.2 < words.length := by
    rintro ⟨i, j⟩
    simp [List.mem_flatMap]
  refine List.ext_getElem? fun p => ?_
  rw [hfold, getElem?_foldl_set (w := fun p => wordByte (words.getD (p / 4) 0) (p % 4))]
  · by_cases hp : p < 4 * words.length
    · rw [List.getElem?_append_left (by rwa [wordBytes_length]), wordBytes_getElem? _ hp, if_pos]
      refine List.mem_map.mpr ⟨(p % 4, p / 4), (hmem _).mpr ⟨Nat.mod_lt p (by norm_num), ?_⟩, ?_⟩
      · show p / 4 < _
        omega
      · show p % 4 + 4 * (p / 4) = p
        omega
    · rw [List.getElem?_append_right (by rw [wordBytes_length]; omega), wordBytes_length,
        List.getElem?_drop, Nat.add_sub_cancel' (not_lt.mp hp), if_neg]
      intro hin
      obtain ⟨ij, hij, rfl⟩ := List.mem_map.mp hin
      have := (hmem ij).mp hij
      omega
  · intro ij hij
    have hi := ((hmem ij).mp hij).1
    congr 2 <;> omega
  · intro ij hij
    have := (hmem ij).mp hij
    omega

end VitaConnect.Hash

import VitaConnect.Hash.Words

/-! # The context of a hash function

`sha1.c` and `sha256.c` have the same context, `update` and `final` around different `transform`s. Handed a
message in any number of pieces, they fold `transform` over the blocks of the padded message, whatever the
array of the context held before.
-/
namespace VitaConnect.Hash
open CString Program
set_option autoImplicit false

/-! ## The padded message -/

/-- As many zeros as bring the length, with the byte in front of them and the eight bytes behind them, to a
multiple of 64 -/
def paddingZeros (len : ℕ) : ℕ := (119 - len % 64) % 64

/-- `len` is the length in bytes, and the last eight bytes have the length in bits modulo `2 ^ 64`. -/
def padding (len : ℕ) : List Byte := 0x80 :: List.replicate (paddingZeros len) 0 ++ beBytes 8 (8 * len)

theorem padding_length (len : ℕ) : (padding len).length = paddingZeros len + 9 := by
  rw [padding, List.length_append, List.length_cons, List.length_replicate, beBytes_length]

/-! ## The context -/

/-- `SHA1_CTX` and `SHA256_CTX`, with all that `transform` reads and writes in `state`. Between two bytes
`datalen` is the number of bytes in `data` that wait for a block. -/
structure Ctx (σ : Type) where
  data : Vector Byte 64
  datalen : Fin 64
  bitlen : UInt64
  state : σ

/-- The context that the two `init` functions set up: only `data` keeps what the memory held. -/
def Ctx.start {σ : Type} (data : Vector Byte 64) (state : σ) : Ctx σ where
  data := data
  datalen := 0
  bitlen := 0
  state := state

section Context
variable {σ : Type} (transform : σ → List Byte → σ)

/-- One round of the loop of `update` -/
def updateByte (ctx : Ctx σ) (b : Byte) : Ctx σ :=
  let data := ctx.data.set ctx.datalen.val b ctx.datalen.isLt
  if h : ctx.datalen.val + 1 < 64 then { ctx with data := data, datalen := ⟨ctx.datalen.val + 1, h⟩ }
  else
    { data := data
      datalen := 0
      bitlen := ctx.bitlen + 512
      state := transform ctx.state data.toList }

def update (ctx : Ctx σ) (data : List Byte) : Ctx σ := data.foldl (updateByte transform) ctx

/-- `while (i < limit) data[i++] = 0x00` -/
def zeroUpTo (data : List Byte) (i limit : ℕ) : List Byte :=
  (List.range' i (limit - i)).foldl (fun data i => data.set i 0) data

/-- `data[63 - i] = bitlen >> (8 * i)`, for every `i` below 8 -/
def storeBitlen (data : List Byte) (bitlen : UInt64) : List Byte :=
  (List.range 8).foldl (fun data i => data.set (63 - i) (bitlen >>> UInt64.ofNat (8 * i)).toUInt8) data

/-- The state behind the padding -/
def paddedState (ctx : Ctx σ) : σ :=
  let i := ctx.datalen.val
  let marked := ctx.data.toList.set i 0x80
  let bitlen := ctx.bitlen + UInt64.ofNat (i * 8)
  if i < 56 then transform ctx.state (storeBitlen (zeroUpTo marked (i + 1) 56) bitlen)
  else
    let data := zeroUpTo marked (i + 1) 64
    let state := transform ctx.state data
    -- `memset(ctx->data, 0, 56)`
    transform state (storeBitlen (List.replicate 56 0 ++ data.drop 56) bitlen)

end Context

/-! ## What the stores leave -/

theorem zeroUpTo_eq {data : List Byte} {i limit : ℕ} (hi : i ≤ limit) (hlimit : limit ≤ data.length) :
    zeroUpTo data i limit = data.take i ++ List.replicate (limit - i) 0 ++ data.drop limit := by
  refine List.ext_getElem? fun p => ?_
  rw [zeroUpTo, getElem?_foldl_set (f := fun i => i) (w := fun _ => 0) (fun _ _ => rfl),
    List.map_id', List.append_assoc]
  · have htake : (data.take i).length = i := List.length_take_of_le (hi.trans hlimit)
    rcases lt_or_ge p i with hlow | hlow
    · rw [if_neg (by rw [List.mem_range'_1]; omega), List.getElem?_append_left (by omega),
        List.getElem?_take_of_lt hlow]
    · rw [List.getElem?_append_right (by omega), htake]
      rcases lt_or_ge p limit with hmid | hmid
      · rw [if_pos (List.mem_range'_1.mpr (by omega)),
          List.getElem?_append_left (by rw [List.length_replicate]; omega),
          List.getElem?_replicate_of_lt (by omega)]
      · rw [if_neg (by rw [List.mem_range'_1]; omega),
          List.getElem?_append_right (by rw [List.length_replicate]; omega), List.length_replicate,
          List.getElem?_drop]
        congr 1
        omega
  · intro j hj
    have := List.mem_range'_1.mp hj
    show j < data.length
    omega

theorem bitlen_byte (n : ℕ) {i : ℕ} (hi : i < 8) :
    (UInt64.ofNat n >>> UInt64.ofNat (8 * i)).toUInt8 = UInt8.ofNat (n / 256 ^ i) := by
  have hmod : (UInt64.ofNat (8 * i)).toNat % 64 = 8 * i := by
    rw [UInt64.toNat_ofNat', Nat.mod_eq_of_lt (by omega : 8 * i < 2 ^ 64), Nat.mod_eq_of_lt (by omega)]
  have hpow : 2 ^ 64 = 256 ^ i * (256 * 256 ^ (7 - i)) := by
    rw [← pow_succ', ← pow_add, show i + (7 - i + 1) = 8 by omega]
    norm_num
  apply UInt8.toNat_inj.mp
  rw [UInt64.toNat_toUInt8, UInt64.toNat_shiftRight, hmod, UInt8.toNat_ofNat', Nat.shiftRight_eq_div_pow,
    UInt64.toNat_ofNat', pow_mul, hpow]
  show n % (256 ^ i * _) / 256 ^ i % 256 = _
  rw [Nat.mod_mul_right_div_self, Nat.mod_mul_right_mod]

theorem storeBitlen_eq {data : List Byte} (n : ℕ) (h : data.length = 64) :
    storeBitlen data (UInt64.ofNat n) = data.take 56 ++ beBytes 8 n := by
  have htake : (data.take 56).length = 56 := List.length_take_of_le (by omega)
  refine List.ext_getElem? fun p => ?_
  rw [storeBitlen, getElem?_foldl_set (w := fun p => UInt8.ofNat (n / 256 ^ (63 - p)))]
  · rcases lt_or_ge p 56 with hlow | hlow
    · rw [List.getElem?_append_left (by omega), List.getElem?_take_of_lt hlow, if_neg]
      intro hin
      obtain ⟨i, hi, rfl⟩ := List.mem_map.mp hin
      have := List.mem_range.mp hi
      omega
    · rw [List.getElem?_append_right (by omega), htake]
      rcases lt_or_ge p 64 with hmid | hmid
      · rw [beBytes_getElem? _ (by omega), if_pos, show 8 - 1 - (p - 56) = 63 - p by omega]
        exact List.mem_map.mpr ⟨63 - p, List.mem_range.mpr (by omega), by omega⟩
      · rw [if_neg, List.getElem?_eq_none (by omega), List.getElem?_eq_none]
        · rw [beBytes_length]
          omega
        intro hin
        obtain ⟨i, -, rfl⟩ := List.mem_map.mp hin
        omega
  · intro i hi
    have hlt := List.mem_range.mp hi
    rw [bitlen_byte n hlt, show 63 - (63 - i) = i by omega]
  · intro i _
    omega

/-! ## The message in the context -/

section Represents
variable {σ : Type} {transform : σ → List Byte → σ} {s : σ} {ctx : Ctx σ} {msg : List Byte}

/-- What the context stands for -/
def Ctx.absorber (ctx : Ctx σ) : Absorber σ Byte := ⟨ctx.state, ctx.data.toList.take ctx.datalen.val⟩

/-- The context has read `msg`, and counted the bits of its whole blocks modulo `2 ^ 64`. -/
def Ctx.Read (transform : σ → List Byte → σ) (s : σ) (ctx : Ctx σ) (msg : List Byte) : Prop :=
  ∃ whole, ctx.absorber.Holds transform 64 s whole msg ∧ ctx.bitlen = UInt64.ofNat (8 * whole.length)

theorem Ctx.data_length (ctx : Ctx σ) : ctx.data.toList.length = 64 := Vector.length_toList

theorem Ctx.pending_length (ctx : Ctx σ) :
    (ctx.data.toList.take ctx.datalen.val).length = ctx.datalen.val :=
  List.length_take_of_le (by rw [ctx.data_length]; exact ctx.datalen.isLt.le)

theorem take_set_succ {α : Type} {l : List α} {i : ℕ} (x : α) (hi : i < l.length) :
    (l.set i x).take (i + 1) = l.take i ++ [x] := by
  rw [List.take_add_one, List.take_set_of_le le_rfl, List.getElem?_set_self hi]
  rfl

/-- One byte in the context is one byte of the absorber. -/
theorem updateByte_absorber (ctx : Ctx σ) (b : Byte) :
    (updateByte transform ctx b).absorber = ctx.absorber.push transform 64 b := by
  have hlen : (ctx.absorber.pending ++ [b]).length = ctx.datalen.val + 1 := by
    rw [List.length_append, List.length_singleton]
    exact congrArg (· + 1) ctx.pending_length
  have htake : (ctx.data.set ctx.datalen.val b ctx.datalen.isLt).toList.take (ctx.datalen.val + 1)
      = ctx.absorber.pending ++ [b] := by
    rw [Vector.toList_set, take_set_succ b (by rw [ctx.data_length]; exact ctx.datalen.isLt)]
    rfl
  rw [Absorber.push, hlen, updateByte]
  split_ifs with hlt
  · rw [← htake]
    rfl
  · have hfull : ctx.datalen.val + 1 = 64 := by omega
    rw [hfull, List.take_of_length_le (by rw [Vector.length_toList])] at htake
    rw [← htake]
    rfl

theorem Ctx.Read.updateByte (h : ctx.Read transform s msg) (b : Byte) :
    (Hash.updateByte transform ctx b).Read transform s (msg ++ [b]) := by
  obtain ⟨whole, hholds, hbits⟩ := h
  have hpush := hholds.push (by norm_num) b
  rw [← updateByte_absorber] at hpush
  have hlen : (ctx.absorber.pending ++ [b]).length = ctx.datalen.val + 1 := by
    rw [List.length_append, List.length_singleton]
    exact congrArg (· + 1) ctx.pending_length
  refine ⟨_, hpush, ?_⟩
  rw [hlen, Hash.updateByte]
  split_ifs with hlt
  · exact hbits
  · rw [List.length_append, hlen, show ctx.datalen.val + 1 = 64 by omega, Nat.mul_add, UInt64.ofNat_add,
      ← hbits]
    rfl

theorem Ctx.Read.update (h : ctx.Read transform s msg) (data : List Byte) :
    (Hash.update transform ctx data).Read transform s (msg ++ data) := by
  induction data generalizing ctx msg with
  | nil => rwa [List.append_nil]
  | cons b data ih =>
    have hrest := ih (h.updateByte b)
    rwa [List.append_assoc] at hrest

/-- Any number of pieces -/
theorem Ctx.Read.updates (h : ctx.Read transform s msg) (pieces : List (List Byte)) :
    (pieces.foldl (Hash.update transform) ctx).Read transform s (msg ++ pieces.flatten) := by
  induction pieces generalizing ctx msg with
  | nil => rwa [List.flatten_nil, List.append_nil]
  | cons piece pieces ih =>
    have hrest := ih (h.update piece)
    rwa [List.append_assoc, ← List.flatten_cons] at hrest

theorem read_nil (data : Vector Byte 64) (s : σ) : (⟨data, 0, 0, s⟩ : Ctx σ).Read transform s [] :=
  ⟨[], Absorber.holds_nil (by norm_num) s, rfl⟩

/-! ## The end of the message -/

theorem Ctx.Read.bitlen_eq (h : ctx.Read transform s msg) :
    ctx.bitlen + UInt64.ofNat (ctx.datalen.val * 8) = UInt64.ofNat (8 * msg.length) := by
  obtain ⟨whole, hholds, hbits⟩ := h
  have hlen := hholds.length_eq
  rw [Ctx.absorber, ctx.pending_length] at hlen
  rw [hbits, ← UInt64.ofNat_add, hlen]
  congr 1
  ring

theorem Ctx.Read.datalen_eq (h : ctx.Read transform s msg) : ctx.datalen.val = msg.length % 64 := by
  obtain ⟨whole, hholds, -⟩ := h
  rw [← hholds.pending_length, Ctx.absorber, ctx.pending_length]

theorem Ctx.marked_take (ctx : Ctx σ) :
    (ctx.data.toList.set ctx.datalen.val 0x80).take (ctx.datalen.val + 1)
      = ctx.data.toList.take ctx.datalen.val ++ [0x80] :=
  take_set_succ _ (by rw [ctx.data_length]; exact ctx.datalen.isLt)

/-- There is room for the length behind the message. -/
theorem Ctx.Read.last_block (h : ctx.Read transform s msg) (hshort : ctx.datalen.val < 56) :
    storeBitlen (zeroUpTo (ctx.data.toList.set ctx.datalen.val 0x80) (ctx.datalen.val + 1) 56)
        (ctx.bitlen + UInt64.ofNat (ctx.datalen.val * 8))
      = ctx.data.toList.take ctx.datalen.val ++ padding msg.length := by
  have hlen : (ctx.data.toList.set ctx.datalen.val 0x80).length = 64 := by
    rw [List.length_set, ctx.data_length]
  have hzeros : paddingZeros msg.length = 56 - (ctx.datalen.val + 1) := by
    rw [paddingZeros, ← h.datalen_eq]
    omega
  have htake : (ctx.data.toList.take ctx.datalen.val ++ [0x80]
      ++ List.replicate (56 - (ctx.datalen.val + 1)) 0).length = 56 := by
    rw [List.length_append, List.length_append, ctx.pending_length, List.length_singleton,
      List.length_replicate]
    omega
  rw [h.bitlen_eq, zeroUpTo_eq (by omega) (by omega), ctx.marked_take, storeBitlen_eq,
    List.take_left' htake, padding, hzeros]
  · simp only [List.append_assoc, List.cons_append, List.nil_append]
  · rw [List.length_append, htake, List.length_drop, hlen]

/-- There is no room, and the length follows in a block of its own. -/
theorem Ctx.Read.last_blocks (h : ctx.Read transform s msg) (hlong : ¬ ctx.datalen.val < 56) :
    zeroUpTo (ctx.data.toList.set ctx.datalen.val 0x80) (ctx.datalen.val + 1) 64
        ++ (List.replicate 56 0 ++ beBytes 8 (8 * msg.length))
      = ctx.data.toList.take ctx.datalen.val ++ padding msg.length := by
  have hlt := ctx.datalen.isLt
  have hlen : (ctx.data.toList.set ctx.datalen.val 0x80).length = 64 := by
    rw [List.length_set, ctx.data_length]
  have hzeros : paddingZeros msg.length = 64 - (ctx.datalen.val + 1) + 56 := by
    rw [paddingZeros, ← h.datalen_eq]
    omega
  rw [zeroUpTo_eq (by omega) (by omega), ctx.marked_take, List.drop_of_length_le (by omega), padding,
    hzeros, List.replicate_add]
  simp only [List.append_assoc, List.cons_append, List.nil_append]

theorem Ctx.Read.paddedState_eq (h : ctx.Read transform s msg) :
    paddedState transform ctx = overBlocks transform 64 s (msg ++ padding msg.length) := by
  obtain ⟨whole, hholds, -⟩ := id h
  rw [hholds.finish (by norm_num), paddedState]
  have hpending : ctx.absorber.pending = ctx.data.toList.take ctx.datalen.val := rfl
  have hstate : ctx.absorber.state = ctx.state := rfl
  have hlt := ctx.datalen.isLt
  dsimp only
  rw [hpending, hstate]
  split_ifs with hshort
  · rw [h.last_block hshort, overBlocks_block _ (by norm_num)]
    rw [List.length_append, ctx.pending_length, padding_length, paddingZeros, ← h.datalen_eq]
    omega
  · have hlen : (zeroUpTo (ctx.data.toList.set ctx.datalen.val 0x80) (ctx.datalen.val + 1) 64).length
        = 64 := by
      rw [zeroUpTo_eq (by omega) (by rw [List.length_set, ctx.data_length]), ctx.marked_take]
      simp only [List.length_append, ctx.pending_length, List.length_singleton, List.length_replicate,
        List.length_drop, List.length_set, ctx.data_length]
      omega
    have hlast : (List.replicate 56 (0 : Byte) ++ beBytes 8 (8 * msg.length)).length = 64 := by
      rw [List.length_append, List.length_replicate, beBytes_length]
    rw [← h.last_blocks hshort, overBlocks_append (by norm_num) _ _ (by rw [hlen]),
      overBlocks_block _ (by norm_num) hlen, overBlocks_block _ (by norm_num) hlast, h.bitlen_eq,
      storeBitlen_eq, List.take_left' List.length_replicate]
    rw [List.length_append, List.length_replicate, List.length_drop, hlen]

end Represents

end VitaConnect.Hash

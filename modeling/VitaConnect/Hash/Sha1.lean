import VitaConnect.Hash.Context

/-! # SHA-1

`sha1.c` computes the function of the standard. Its four loops of 20 rounds are the 80 rounds, and the
constants, which `sha1_init` writes to the context, are still there in every block.
-/
namespace VitaConnect.Hash
open CString Program
set_option autoImplicit false

/-! ## The code -/

/-- The array `state`, and the variables `a` to `e` of `sha1_transform` -/
structure State160 where
  a : Word
  b : Word
  c : Word
  d : Word
  e : Word

def State160.toList (s : State160) : List Word := [s.a, s.b, s.c, s.d, s.e]

theorem State160.toList_length (s : State160) : s.toList.length = 5 := rfl

/-- The arrays `state` and `k` of the context -/
structure Sha1State where
  state : State160
  k : List Word

/-- `m[i]` in the first loop, with `j` for `4 * i` -/
def sha1Load (data : List Byte) (_ : List Word) (i : ℕ) : Word :=
  addedWord (data.getD (4 * i) 0) (data.getD (4 * i + 1) 0) (data.getD (4 * i + 2) 0)
    (data.getD (4 * i + 3) 0)

/-- `m[i]` in the second loop -/
def sha1Extend (m : List Word) (i : ℕ) : Word :=
  let x := m.getD (i - 3) 0 ^^^ m.getD (i - 8) 0 ^^^ m.getD (i - 14) 0 ^^^ m.getD (i - 16) 0
  (x <<< 1) ||| (x >>> 31)

def sha1Schedule (data : List Byte) (m : List Word) : List Word :=
  fillFrom sha1Extend 16 64 (fillFrom (sha1Load data) 0 16 m)

/-- A round, with the function of `b`, `c` and `d` and the constant of its loop -/
def sha1Round (f : Word → Word → Word → Word) (k : Word) (m : List Word) (v : State160) (i : ℕ) : State160 :=
  let t := rotleft v.a 5 + f v.b v.c v.d + v.e + k + m.getD i 0
  { e := v.d, d := v.c, c := rotleft v.b 30, b := v.a, a := t }

def sha1Transform (ctx : Sha1State) (data : List Byte) : Sha1State :=
  -- what the array `m` holds before does not matter: see `sha1Schedule_filled`
  let m := sha1Schedule data (List.replicate 80 0)
  let v := (List.range' 0 20).foldl
    (sha1Round (fun b c d => (b &&& c) ^^^ (~~~b &&& d)) (ctx.k.getD 0 0) m) ctx.state
  let v := (List.range' 20 20).foldl (sha1Round (fun b c d => b ^^^ c ^^^ d) (ctx.k.getD 1 0) m) v
  let v := (List.range' 40 20).foldl
    (sha1Round (fun b c d => (b &&& c) ^^^ (b &&& d) ^^^ (c &&& d)) (ctx.k.getD 2 0) m) v
  let v := (List.range' 60 20).foldl (sha1Round (fun b c d => b ^^^ c ^^^ d) (ctx.k.getD 3 0) m) v
  { ctx with
    state := { a := ctx.state.a + v.a, b := ctx.state.b + v.b, c := ctx.state.c + v.c
               d := ctx.state.d + v.d, e := ctx.state.e + v.e } }

/-- `data` is what the context has where it is not initialised. -/
def sha1Init (data : Vector Byte 64) : Ctx Sha1State :=
  .start data
    { state := { a := 0x67452301, b := 0xEFCDAB89, c := 0x98BADCFE, d := 0x10325476, e := 0xc3d2e1f0 }
      k := [0x5a827999, 0x6ed9eba1, 0x8f1bbcdc, 0xca62c1d6] }

def sha1Update (ctx : Ctx Sha1State) (data : List Byte) : Ctx Sha1State := update sha1Transform ctx data

def sha1Final (ctx : Ctx Sha1State) (hash : List Byte) : List Byte :=
  storeWords (paddedState sha1Transform ctx).state.toList hash

/-! ## The standard -/

namespace Standard

/-- Word number `t` of the message schedule of a block -/
def schedule1 (block : List Byte) (t : ℕ) : Word :=
  if t < 16 then wordAt block t
  else
    rotl 1 (schedule1 block (t - 3) ^^^ schedule1 block (t - 8) ^^^ schedule1 block (t - 14)
      ^^^ schedule1 block (t - 16))
termination_by t

/-- The function of round `t` -/
def logical1 (t : ℕ) (x y z : Word) : Word :=
  if t < 20 then (x &&& y) ^^^ (~~~x &&& z)
  else if 40 ≤ t ∧ t < 60 then (x &&& y) ^^^ (x &&& z) ^^^ (y &&& z)
  else x ^^^ y ^^^ z

/-- The constant of round `t`: the first bits of the roots of 2, 3, 5 and 10 -/
def constant1 (t : ℕ) : Word :=
  let n := if t < 20 then 2 else if t < 40 then 3 else if t < 60 then 5 else 10
  UInt32.ofNat (Nat.sqrt (n * 2 ^ 60))

def round1 (block : List Byte) (v : State160) (t : ℕ) : State160 :=
  { a := rotl 5 v.a + logical1 t v.b v.c v.d + v.e + constant1 t + schedule1 block t
    b := v.a, c := rotl 30 v.b, d := v.c, e := v.d }

def compress1 (s : State160) (block : List Byte) : State160 :=
  let v := (List.range 80).foldl (round1 block) s
  { a := s.a + v.a, b := s.b + v.b, c := s.c + v.c, d := s.d + v.d, e := s.e + v.e }

def initial1 : State160 where
  a := 0x67452301
  b := 0xefcdab89
  c := 0x98badcfe
  d := 0x10325476
  e := 0xc3d2e1f0

def sha1 (msg : List Byte) : List Byte :=
  wordBytes (overBlocks compress1 64 initial1 (msg ++ padding msg.length)).toList

end Standard

/-! ## The rounds -/

/-- What `sha1_init` writes to `k` -/
def sha1Constants : List Word := [0x5a827999, 0x6ed9eba1, 0x8f1bbcdc, 0xca62c1d6]

theorem sha1Constants_eq : ∀ j < 4, ∀ i < 20, sha1Constants.getD j 0 = Standard.constant1 (20 * j + i) := by
  decide +kernel

section Rounds
variable {data : List Byte}

theorem schedule1_input {t : ℕ} (ht : t < 16) : Standard.schedule1 data t = wordAt data t := by
  rw [Standard.schedule1, if_pos ht]

theorem schedule1_further {t : ℕ} (ht : 16 ≤ t) :
    Standard.schedule1 data t = Standard.rotl 1 (Standard.schedule1 data (t - 3)
      ^^^ Standard.schedule1 data (t - 8) ^^^ Standard.schedule1 data (t - 14)
      ^^^ Standard.schedule1 data (t - 16)) := by
  rw [Standard.schedule1, if_neg ht.not_gt]

theorem sha1Schedule_filled (hdata : data.length = 64) {m : List Word} (hm : m.length = 80) :
    FilledTo (Standard.schedule1 data) 80 (sha1Schedule data m) := by
  obtain ⟨hload, hlen⟩ : FilledTo (Standard.schedule1 data) (0 + 16) (fillFrom (sha1Load data) 0 16 m) ∧
      (fillFrom (sha1Load data) 0 16 m).length = m.length := by
    refine fillFrom_filled (by omega) (fun t ht => absurd ht (Nat.not_lt_zero t)) fun _ t _ ht _ => ?_
    rw [sha1Load, addedWord_eq, schedule1_input (by omega), wordAt, blockAt_four (by omega)]
  refine (fillFrom_filled (i := 16) (k := 64) ?_ hload fun m t h16 _ hbelow => ?_).1
  · rw [hlen, hm]
  · rw [sha1Extend, hbelow.getD (by omega), hbelow.getD (by omega), hbelow.getD (by omega),
      hbelow.getD (by omega), schedule1_further h16, ← rotleft_eq _ one_pos (by norm_num)]
    rfl

theorem sha1Round_eq {m : List Word} (hm : FilledTo (Standard.schedule1 data) 80 m) {j i : ℕ} (hj : j < 4)
    (hi : i < 20) {f : Word → Word → Word → Word} (hf : f = Standard.logical1 (20 * j + i)) (v : State160) :
    sha1Round f (sha1Constants.getD j 0) m v (20 * j + i) = Standard.round1 data v (20 * j + i) := by
  rw [sha1Round, Standard.round1, sha1Constants_eq j hj i hi, hm.getD (by omega), hf,
    ← rotleft_eq v.a (by norm_num : 0 < 5) (by norm_num), ← rotleft_eq v.b (by norm_num : 0 < 30) (by norm_num)]
  rfl

/-- One of the four loops -/
theorem sha1Loop_eq {m : List Word} (hm : FilledTo (Standard.schedule1 data) 80 m) {j : ℕ} (hj : j < 4)
    {f : Word → Word → Word → Word} (hf : ∀ i < 20, f = Standard.logical1 (20 * j + i)) (v : State160) :
    (List.range' (20 * j) 20).foldl (sha1Round f (sha1Constants.getD j 0) m) v
      = (List.range' (20 * j) 20).foldl (Standard.round1 data) v := by
  refine List.foldl_ext _ _ _ fun v t ht => ?_
  obtain ⟨hlow, hhigh⟩ := List.mem_range'_1.mp ht
  obtain ⟨i, rfl⟩ := Nat.exists_eq_add_of_le hlow
  exact sha1Round_eq hm hj (by omega) (hf i (by omega)) v

theorem range_eighty :
    List.range 80 = List.range' 0 20 ++ List.range' 20 20 ++ List.range' 40 20 ++ List.range' 60 20 := by
  decide

theorem sha1Transform_eq (s : State160) (hdata : data.length = 64) :
    sha1Transform ⟨s, sha1Constants⟩ data = ⟨Standard.compress1 s data, sha1Constants⟩ := by
  have hm := sha1Schedule_filled hdata (m := List.replicate 80 0) List.length_replicate
  have hloop := fun j (hj : j < 4) f (hf : ∀ i < 20, f = Standard.logical1 (20 * j + i)) =>
    sha1Loop_eq hm hj hf
  have h0 := hloop 0 (by norm_num) (fun b c d => (b &&& c) ^^^ (~~~b &&& d)) fun i hi => by
    funext x y z
    rw [Standard.logical1, if_pos (by omega)]
  have h1 := hloop 1 (by norm_num) (fun b c d => b ^^^ c ^^^ d) fun i hi => by
    funext x y z
    rw [Standard.logical1, if_neg (by omega), if_neg (by omega)]
  have h2 := hloop 2 (by norm_num) (fun b c d => (b &&& c) ^^^ (b &&& d) ^^^ (c &&& d)) fun i hi => by
    funext x y z
    rw [Standard.logical1, if_neg (by omega), if_pos (by omega)]
  have h3 := hloop 3 (by norm_num) (fun b c d => b ^^^ c ^^^ d) fun i hi => by
    funext x y z
    rw [Standard.logical1, if_neg (by omega), if_neg (by omega)]
  rw [sha1Transform, Standard.compress1, range_eighty, List.foldl_append, List.foldl_append,
    List.foldl_append, ← h0, ← h1, ← h2, ← h3]

end Rounds

/-! ## The digest -/

/-- The context of SHA-1 has read `msg`. -/
abbrev Sha1Read (ctx : Ctx Sha1State) (msg : List Byte) : Prop :=
  ctx.Read sha1Transform ⟨Standard.initial1, sha1Constants⟩ msg

theorem sha1Init_read (data : Vector Byte 64) : Sha1Read (sha1Init data) [] := read_nil data _

theorem Sha1Read.final {ctx : Ctx Sha1State} {msg hash : List Byte} (h : Sha1Read ctx msg)
    (hhash : 20 ≤ hash.length) : sha1Final ctx hash = Standard.sha1 msg ++ hash.drop 20 := by
  have hblocks : overBlocks sha1Transform 64 ⟨Standard.initial1, sha1Constants⟩ (msg ++ padding msg.length)
      = ⟨overBlocks Standard.compress1 64 Standard.initial1 (msg ++ padding msg.length), sha1Constants⟩ :=
    overBlocks_map (r := fun s => (⟨s, sha1Constants⟩ : Sha1State)) (fun s _ => sha1Transform_eq s) _ _
  have hlen := State160.toList_length (paddedState sha1Transform ctx).state
  rw [sha1Final, storeWords_eq (by rw [hlen]; exact hhash), hlen, h.paddedState_eq, hblocks, Standard.sha1]

/-- **SHA-1.** Whatever the pieces in which a message is handed to `sha1_update`, and whatever the context
holds before `sha1_init`, `sha1_final` writes the SHA-1 digest of the message, and nothing behind it. -/
theorem sha1_digest (data : Vector Byte 64) (pieces : List (List Byte)) (hash : List Byte)
    (hhash : 20 ≤ hash.length) :
    sha1Final (pieces.foldl sha1Update (sha1Init data)) hash
      = Standard.sha1 pieces.flatten ++ hash.drop 20 := by
  have hread : Sha1Read (pieces.foldl sha1Update (sha1Init data)) ([] ++ pieces.flatten) :=
    (sha1Init_read data).updates pieces
  exact hread.final hhash

theorem sha1_digest_pieces :
    sha1Final (sha1Update (sha1Update (sha1Init (Vector.replicate 64 7)) [97]) [98, 99])
        (List.replicate 21 9) = Standard.sha1 [97, 98, 99] ++ [9] :=
  sha1_digest (Vector.replicate 64 7) [[97], [98, 99]] (List.replicate 21 9) (by decide)

end VitaConnect.Hash

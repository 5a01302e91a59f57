import VitaConnect.Hash.Context
import Mathlib.Data.Nat.NthRoot.Defs
import Mathlib.Data.Nat.Nth

/-! # SHA-256

`sha256.c` computes the function of the standard: the constants are the beginnings of the fractional parts of
roots of primes, the array `m` is the message schedule, and the loop over `a` to `h` is its 64 rounds.
-/
namespace VitaConnect.Hash
open CString Program
set_option autoImplicit false

/-! ## The code -/

/-- `CH` -/
def ch (x y z : Word) : Word := (x &&& y) ^^^ (~~~x &&& z)

/-- `MAJ` -/
def maj (x y z : Word) : Word := (x &&& y) ^^^ (x &&& z) ^^^ (y &&& z)

/-- `EP0` -/
def ep0 (x : Word) : Word := rotright x 2 ^^^ rotright x 13 ^^^ rotright x 22

/-- `EP1` -/
def ep1 (x : Word) : Word := rotright x 6 ^^^ rotright x 11 ^^^ rotright x 25

/-- `SIG0` -/
def sig0 (x : Word) : Word := rotright x 7 ^^^ rotright x 18 ^^^ (x >>> 3)

/-- `SIG1` -/
def sig1 (x : Word) : Word := rotright x 17 ^^^ rotright x 19 ^^^ (x >>> 10)

def k : List Word :=
  [0x428a2f98, 0x71374491, 0xb5c0fbcf, 0xe9b5dba5, 0x3956c25b, 0x59f111f1, 0x923f82a4, 0xab1c5ed5,
    0xd807aa98, 0x12835b01, 0x243185be, 0x550c7dc3, 0x72be5d74, 0x80deb1fe, 0x9bdc06a7, 0xc19bf174,
    0xe49b69c1, 0xefbe4786, 0x0fc19dc6, 0x240ca1cc, 0x2de92c6f, 0x4a7484aa, 0x5cb0a9dc, 0x76f988da,
    0x983e5152, 0xa831c66d, 0xb00327c8, 0xbf597fc7, 0xc6e00bf3, 0xd5a79147, 0x06ca6351, 0x14292967,
    0x27b70a85, 0x2e1b2138, 0x4d2c6dfc, 0x53380d13, 0x650a7354, 0x766a0abb, 0x81c2c92e, 0x92722c85,
    0xa2bfe8a1, 0xa81a664b, 0xc24b8b70, 0xc76c51a3, 0xd192e819, 0xd6990624, 0xf40e3585, 0x106aa070,
    0x19a4c116, 0x1e376c08, 0x2748774c, 0x34b0bcb5, 0x391c0cb3, 0x4ed8aa4a, 0x5b9cca4f, 0x682e6ff3,
    0x748f82ee, 0x78a5636f, 0x84c87814, 0x8cc70208, 0x90befffa, 0xa4506ceb, 0xbef9a3f7, 0xc67178f2]

/-- The array `state`, and the variables `a` to `h` of `sha256_transform` -/
structure State256 where
  a : Word
  b : Word
  c : Word
  d : Word
  e : Word
  f : Word
  g : Word
  h : Word

def State256.toList (s : State256) : List Word := [s.a, s.b, s.c, s.d, s.e, s.f, s.g, s.h]

theorem State256.toList_length (s : State256) : s.toList.length = 8 := rfl

/-- `m[i]` in the first loop, with `j` for `4 * i` -/
def sha256Load (data : List Byte) (_ : List Word) (i : ℕ) : Word :=
  joinedWord (data.getD (4 * i) 0) (data.getD (4 * i + 1) 0) (data.getD (4 * i + 2) 0)
    (data.getD (4 * i + 3) 0)

/-- `m[i]` in the second loop -/
def sha256Extend (m : List Word) (i : ℕ) : Word :=
  sig1 (m.getD (i - 2) 0) + m.getD (i - 7) 0 + sig0 (m.getD (i - 15) 0) + m.getD (i - 16) 0

def sha256Schedule (data : List Byte) (m : List Word) : List Word :=
  fillFrom sha256Extend 16 48 (fillFrom (sha256Load data) 0 16 m)

def sha256Round (m : List Word) (v : State256) (i : ℕ) : State256 :=
  let t1 := v.h + ep1 v.e + ch v.e v.f v.g + k.getD i 0 + m.getD i 0
  let t2 := ep0 v.a + maj v.a v.b v.c
  { h := v.g, g := v.f, f := v.e, e := v.d + t1, d := v.c, c := v.b, b := v.a, a := t1 + t2 }

def sha256Transform (state : State256) (data : List Byte) : State256 :=
  -- what the array `m` holds before does not matter: see `sha256Schedule_filled`
  let m := sha256Schedule data (List.replicate 64 0)
  let v := (List.range 64).foldl (sha256Round m) state
  { a := state.a + v.a, b := state.b + v.b, c := state.c + v.c, d := state.d + v.d
    e := state.e + v.e, f := state.f + v.f, g := state.g + v.g, h := state.h + v.h }

/-- `data` is what the context has where it is not initialised. -/
def sha256Init (data : Vector Byte 64) : Ctx State256 :=
  .start data
    { a := 0x6a09e667, b := 0xbb67ae85, c := 0x3c6ef372, d := 0xa54ff53a
      e := 0x510e527f, f := 0x9b05688c, g := 0x1f83d9ab, h := 0x5be0cd19 }

def sha256Update (ctx : Ctx State256) (data : List Byte) : Ctx State256 := update sha256Transform ctx data

def sha256Final (ctx : Ctx State256) (hash : List Byte) : List Byte :=
  storeWords (paddedState sha256Transform ctx).toList hash

/-! ## The standard -/

namespace Standard

def bigSigma0 (x : Word) : Word := rotr 2 x ^^^ rotr 13 x ^^^ rotr 22 x
def bigSigma1 (x : Word) : Word := rotr 6 x ^^^ rotr 11 x ^^^ rotr 25 x
def sigma0 (x : Word) : Word := rotr 7 x ^^^ rotr 18 x ^^^ (x >>> 3)
def sigma1 (x : Word) : Word := rotr 17 x ^^^ rotr 19 x ^^^ (x >>> 10)

/-- The first 32 bits of the fractional part of the `r`-th root of prime number `t` -/
noncomputable def rootOfPrime (r t : ℕ) : Word :=
  UInt32.ofNat (Nat.nthRoot r (Nat.nth Nat.Prime t * 2 ^ (32 * r)))

/-- Word number `t` of the message schedule of a block -/
def schedule256 (block : List Byte) (t : ℕ) : Word :=
  if t < 16 then wordAt block t
  else
    sigma1 (schedule256 block (t - 2)) + schedule256 block (t - 7) + sigma0 (schedule256 block (t - 15))
      + schedule256 block (t - 16)
termination_by t

noncomputable def round256 (block : List Byte) (v : State256) (t : ℕ) : State256 :=
  let t1 := v.h + bigSigma1 v.e + ch v.e v.f v.g + rootOfPrime 3 t + schedule256 block t
  let t2 := bigSigma0 v.a + maj v.a v.b v.c
  { a := t1 + t2, b := v.a, c := v.b, d := v.c, e := v.d + t1, f := v.e, g := v.f, h := v.g }

noncomputable def compress256 (s : State256) (block : List Byte) : State256 :=
  let v := (List.range 64).foldl (round256 block) s
  { a := s.a + v.a, b := s.b + v.b, c := s.c + v.c, d := s.d + v.d
    e := s.e + v.e, f := s.f + v.f, g := s.g + v.g, h := s.h + v.h }

noncomputable def initial256 : State256 where
  a := rootOfPrime 2 0
  b := rootOfPrime 2 1
  c := rootOfPrime 2 2
  d := rootOfPrime 2 3
  e := rootOfPrime 2 4
  f := rootOfPrime 2 5
  g := rootOfPrime 2 6
  h := rootOfPrime 2 7

noncomputable def sha256 (msg : List Byte) : List Byte :=
  wordBytes (overBlocks compress256 64 initial256 (msg ++ padding msg.length)).toList

end Standard

/-! ## The constants -/

def primes : List ℕ :=
  [2, 3, 5, 7, 11, 13, 17, 19, 23, 29, 31, 37, 41, 43, 47, 53, 59, 61, 67, 71, 73, 79, 83, 89, 97, 101, 103,
    107, 109, 113, 127, 131, 137, 139, 149, 151, 157, 163, 167, 173, 179, 181, 191, 193, 197, 199, 211, 223,
    227, 229, 233, 239, 241, 251, 257, 263, 269, 271, 277, 281, 283, 293, 307, 311]

/-- A test that is right for numbers below 18 squared -/
def smallPrime (p : ℕ) : Bool := 2 ≤ p && (List.range 18).all fun m => m < 2 || p < m * m || p % m != 0

theorem smallPrime_iff {p : ℕ} (hp : p < 324) : smallPrime p = true ↔ p.Prime := by
  rw [Nat.prime_def_le_sqrt, smallPrime, Bool.and_eq_true, decide_eq_true_eq, List.all_eq_true]
  refine and_congr_right fun _ => ⟨fun h m hm hsqrt hdvd => ?_, fun h m _ => ?_⟩
  · have hle : m * m ≤ p := Nat.le_sqrt.mp hsqrt
    have hlt : m < 18 := by
      by_contra hge
      have := Nat.mul_le_mul (not_lt.mp hge) (not_lt.mp hge)
      omega
    have htest := h m (List.mem_range.mpr hlt)
    have hzero : p % m = 0 := Nat.mod_eq_zero_of_dvd hdvd
    simp [hzero] at htest
    omega
  · by_cases hm : 2 ≤ m ∧ m * m ≤ p
    · have hnot : ¬ m ∣ p := h m hm.1 (Nat.le_sqrt.mpr hm.2)
      simp [Nat.dvd_iff_mod_eq_zero.not.mp hnot]
    · simp only [Bool.or_eq_true, decide_eq_true_eq]
      omega

theorem count_prime {n : ℕ} (hn : n ≤ 324) :
    Nat.count Nat.Prime n = Nat.count (fun p => smallPrime p = true) n := by
  induction n with
  | zero => rfl
  | succ n ih =>
    rw [Nat.count_succ, Nat.count_succ, ih (by omega)]
    congr 1
    exact if_congr (smallPrime_iff (by omega)).symm rfl rfl

theorem primes_small : ∀ t < 64, primes.getD t 0 < 324 ∧ smallPrime (primes.getD t 0) = true ∧
    Nat.count (fun p => smallPrime p = true) (primes.getD t 0) = t := by
  decide +kernel

theorem primes_prime {t : ℕ} (ht : t < 64) : Nat.Prime (primes.getD t 0) := by
  obtain ⟨hlt, hprime, -⟩ := primes_small t ht
  exact (smallPrime_iff hlt).mp hprime

theorem primes_count {t : ℕ} (ht : t < 64) : Nat.count Nat.Prime (primes.getD t 0) = t := by
  obtain ⟨hlt, -, hcount⟩ := primes_small t ht
  rw [count_prime hlt.le, hcount]

theorem nth_prime {t : ℕ} (ht : t < 64) : Nat.nth Nat.Prime t = primes.getD t 0 := by
  have hnth := Nat.nth_count (primes_prime ht)
  rwa [primes_count ht] at hnth

theorem cubeRoots : ∀ t < 64, k.getD t 0 = UInt32.ofNat (Nat.nthRoot 3 (primes.getD t 0 * 2 ^ 96)) := by
  decide +kernel

theorem squareRoots : (sha256Init (Vector.replicate 64 0)).state.toList
    = (primes.take 8).map fun p => UInt32.ofNat (Nat.nthRoot 2 (p * 2 ^ 64)) := by
  decide +kernel

theorem k_eq {t : ℕ} (ht : t < 64) : k.getD t 0 = Standard.rootOfPrime 3 t := by
  rw [Standard.rootOfPrime, nth_prime ht, cubeRoots t ht]

theorem sha256Init_state (data : Vector Byte 64) : (sha256Init data).state = Standard.initial256 := by
  have hroots := squareRoots
  have hroot : ∀ t < 64, Standard.rootOfPrime 2 t = UInt32.ofNat (Nat.nthRoot 2 (primes.getD t 0 * 2 ^ 64)) :=
    fun t ht => by rw [Standard.rootOfPrime, nth_prime ht]
  rw [State256.toList] at hroots
  injection hroots with ha hroots
  injection hroots with hb hroots
  injection hroots with hc hroots
  injection hroots with hd hroots
  injection hroots with he hroots
  injection hroots with hf hroots
  injection hroots with hg hroots
  injection hroots with hh hroots
  rw [Standard.initial256, hroot 0 (by norm_num), hroot 1 (by norm_num), hroot 2 (by norm_num),
    hroot 3 (by norm_num), hroot 4 (by norm_num), hroot 5 (by norm_num), hroot 6 (by norm_num),
    hroot 7 (by norm_num)]
  exact congr (congr (congr (congr (congr (congr (congr (congrArg State256.mk ha) hb) hc) hd) he) hf) hg) hh

/-! ## The rounds -/

section Rounds
variable {data : List Byte}

theorem ep0_eq (x : Word) : ep0 x = Standard.bigSigma0 x := by
  rw [ep0, Standard.bigSigma0, ← rotright_eq x two_pos (by norm_num),
    ← rotright_eq x (by norm_num : 0 < 13) (by norm_num), ← rotright_eq x (by norm_num : 0 < 22) (by norm_num)]
  rfl

theorem ep1_eq (x : Word) : ep1 x = Standard.bigSigma1 x := by
  rw [ep1, Standard.bigSigma1, ← rotright_eq x (by norm_num : 0 < 6) (by norm_num),
    ← rotright_eq x (by norm_num : 0 < 11) (by norm_num), ← rotright_eq x (by norm_num : 0 < 25) (by norm_num)]
  rfl

theorem sig0_eq (x : Word) : sig0 x = Standard.sigma0 x := by
  rw [sig0, Standard.sigma0, ← rotright_eq x (by norm_num : 0 < 7) (by norm_num),
    ← rotright_eq x (by norm_num : 0 < 18) (by norm_num)]
  rfl

theorem sig1_eq (x : Word) : sig1 x = Standard.sigma1 x := by
  rw [sig1, Standard.sigma1, ← rotright_eq x (by norm_num : 0 < 17) (by norm_num),
    ← rotright_eq x (by norm_num : 0 < 19) (by norm_num)]
  rfl

theorem schedule256_input {t : ℕ} (ht : t < 16) : Standard.schedule256 data t = wordAt data t := by
  rw [Standard.schedule256, if_pos ht]

theorem schedule256_further {t : ℕ} (ht : 16 ≤ t) :
    Standard.schedule256 data t = Standard.sigma1 (Standard.schedule256 data (t - 2))
      + Standard.schedule256 data (t - 7) + Standard.sigma0 (Standard.schedule256 data (t - 15))
      + Standard.schedule256 data (t - 16) := by
  rw [Standard.schedule256, if_neg ht.not_gt]

/-- The words of the block, then each further word from four before it. -/
theorem sha256Schedule_filled (hdata : data.length = 64) {m : List Word} (hm : m.length = 64) :
    FilledTo (Standard.schedule256 data) 64 (sha256Schedule data m) := by
  obtain ⟨hload, hlen⟩ : FilledTo (Standard.schedule256 data) (0 + 16) (fillFrom (sha256Load data) 0 16 m) ∧
      (fillFrom (sha256Load data) 0 16 m).length = m.length := by
    refine fillFrom_filled (by omega) (fun t ht => absurd ht (Nat.not_lt_zero t)) fun _ t _ ht _ => ?_
    rw [sha256Load, joinedWord_eq, schedule256_input (by omega), wordAt, blockAt_four (by omega)]
  refine (fillFrom_filled (i := 16) (k := 48) ?_ hload fun m t h16 _ hbelow => ?_).1
  · rw [hlen, hm]
  · rw [sha256Extend, hbelow.getD (by omega), hbelow.getD (by omega), hbelow.getD (by omega),
      hbelow.getD (by omega), sig0_eq, sig1_eq, schedule256_further h16]

theorem sha256Round_eq {m : List Word} (hm : FilledTo (Standard.schedule256 data) 64 m) {t : ℕ}
    (ht : t < 64) (v : State256) : sha256Round m v t = Standard.round256 data v t := by
  rw [sha256Round, Standard.round256, k_eq ht, hm.getD ht, ep0_eq, ep1_eq]

theorem sha256Transform_eq (s : State256) (hdata : data.length = 64) :
    sha256Transform s data = Standard.compress256 s data := by
  have hm := sha256Schedule_filled hdata (m := List.replicate 64 0) List.length_replicate
  rw [sha256Transform, Standard.compress256, foldl_range_congr s fun t ht v => sha256Round_eq hm ht v]

end Rounds

/-! ## The digest -/

/-- The context of SHA-256 has read `msg`. -/
abbrev Sha256Read (ctx : Ctx State256) (msg : List Byte) : Prop :=
  ctx.Read sha256Transform Standard.initial256 msg

theorem sha256Init_read (data : Vector Byte 64) : Sha256Read (sha256Init data) [] := by
  have h : (sha256Init data).Read sha256Transform (sha256Init data).state [] := read_nil data _
  rwa [sha256Init_state] at h

theorem Sha256Read.final {ctx : Ctx State256} {msg hash : List Byte} (h : Sha256Read ctx msg)
    (hhash : 32 ≤ hash.length) : sha256Final ctx hash = Standard.sha256 msg ++ hash.drop 32 := by
  have hblocks : overBlocks sha256Transform 64 Standard.initial256 (msg ++ padding msg.length)
      = overBlocks Standard.compress256 64 Standard.initial256 (msg ++ padding msg.length) :=
    overBlocks_map (r := id) (fun s _ => sha256Transform_eq s) _ _
  have hlen := State256.toList_length (paddedState sha256Transform ctx)
  rw [sha256Final, storeWords_eq (by rw [hlen]; exact hhash), hlen, h.paddedState_eq, hblocks, Standard.sha256]

/-- **SHA-256.** Whatever the pieces in which a message is handed to `sha256_update`, and whatever the context
holds before `sha256_init`, `sha256_final` writes the SHA-256 digest of the message, and nothing behind it. -/
theorem sha256_digest (data : Vector Byte 64) (pieces : List (List Byte)) (hash : List Byte)
    (hhash : 32 ≤ hash.length) :
    sha256Final (pieces.foldl sha256Update (sha256Init data)) hash
      = Standard.sha256 pieces.flatten ++ hash.drop 32 := by
  have hread : Sha256Read (pieces.foldl sha256Update (sha256Init data)) ([] ++ pieces.flatten) :=
    (sha256Init_read data).updates pieces
  exact hread.final hhash

theorem sha256_digest_pieces :
    sha256Final (sha256Update (sha256Update (sha256Init (Vector.replicate 64 7)) [97]) [98, 99])
        (List.replicate 33 9) = Standard.sha256 [97, 98, 99] ++ [9] :=
  sha256_digest (Vector.replicate 64 7) [[97], [98, 99]] (List.replicate 33 9) (by decide)

end VitaConnect.Hash

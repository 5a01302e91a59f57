import VitaConnect.Pbp.HashLoop

/-! # The bytes that are hashed

When every read delivers what the file has, `hash_pbp` hashes the file up to its hash size. The sum of the
bytes hashed and the bytes read is a `size_t`: for a hash size among the last 127 values of 32 bits it can
wrap in the last round, the block is not clipped, and a file of `2 ^ 32` bytes is hashed to its end.
-/
namespace VitaConnect.Pbp
open CString Program
set_option autoImplicit false

/-! ## What the calls hash -/

def Call.hashed : Call → List Byte
  | .sha256Update data => data
  | _ => []

/-- The arguments of the calls of `sha256_update`, one behind the other. -/
def sha256Input (calls : List Call) : List Byte := calls.flatMap Call.hashed

theorem sha256Input_read (size : ℕ) (delivered : List Byte) (ret : ℤ) (calls : List Call) :
    sha256Input (.read size delivered ret :: calls) = sha256Input calls := rfl

theorem sha256Input_update (data : List Byte) (calls : List Call) :
    sha256Input (.sha256Update data :: calls) = data ++ sha256Input calls := rfl

theorem sha256Input_lseek (offset : ℤ) (calls : List Call) :
    sha256Input (.lseek offset :: calls) = sha256Input calls := rfl

/-! ## One round -/

/-- What the file has from its position on. -/
def Reading.rest (s : Reading) : List Byte := s.content.drop s.pos

/-- The sum of the bytes hashed and the bytes read does not wrap before the hash size is reached. -/
def SumFits (hashSz size : ℕ) : Prop := hashSz ≤ 4294967168 ∨ size < 4294967296

theorem clipped_length {hashSz total d : ℕ} (hd : d ≤ 0x7c0) (htotal : total ≤ hashSz)
    (hsz : hashSz < 4294967296) : u32 (clipped hashSz total d)
      = if hashSz < (total + d) % 4294967296 then hashSz - total else d := by
  unfold clipped i32 u32
  split_ifs <;> omega

/-- The last round hashes what is left to hash, unless the sum wraps in it. -/
theorem last_round_iff {hashSz total rest : ℕ} (htotal : total < hashSz) (hsz : hashSz < 4294967296)
    (hblocks : 0x7c0 ∣ total ∨ rest = 0)
    (hlast : ¬ (min 0x7c0 rest = 0x7c0 ∧ (total + 0x7c0) % 4294967296 < hashSz)) :
    (if hashSz < (total + min 0x7c0 rest) % 4294967296 then hashSz - total else min 0x7c0 rest)
      = min rest (hashSz - total) ↔ SumFits hashSz (total + rest) := by
  unfold SumFits
  rcases le_total 0x7c0 rest with hrest | hrest
  · rw [min_eq_left hrest] at hlast ⊢
    split_ifs <;> omega
  · rw [min_eq_right hrest] at hlast ⊢
    split_ifs <;> omega

theorem further_round_iff {hashSz total rest n : ℕ} (htotal : total < hashSz) (hsz : hashSz < 4294967296)
    (hblocks : 0x7c0 ∣ total ∨ rest = 0) (hgo : min 0x7c0 rest = 0x7c0)
    (hsum : (total + 0x7c0) % 4294967296 < hashSz)
    (ih : 0x7c0 ∣ (total + 0x7c0) % 4294967296 ∨ rest - 0x7c0 = 0 →
      (n = min (rest - 0x7c0) (hashSz - (total + 0x7c0) % 4294967296) ↔
        SumFits hashSz ((total + 0x7c0) % 4294967296 + (rest - 0x7c0)))) :
    0x7c0 + n = min rest (hashSz - total) ↔ SumFits hashSz (total + rest) := by
  unfold SumFits at *
  have hrest : 0x7c0 ≤ rest := by omega
  by_cases hwrap : total + 0x7c0 < 4294967296
  · rw [Nat.mod_eq_of_lt hwrap] at ih hsum
    have hstep := ih (by omega)
    omega
  · omega

theorem Reading.Whole.delivered_rest {s : Reading} (h : s.Whole) (size : ℕ) :
    s.delivered size = s.rest.take size := h.delivered size

theorem Reading.Whole.delivered_length {s : Reading} (h : s.Whole) (size : ℕ) :
    (s.delivered size).length = min size s.rest.length := by
  rw [h.delivered_rest, List.length_take]

theorem Reading.rest_behindRead {s : Reading} (hgo : (s.delivered 0x7c0).length = 0x7c0)
    (data : List Byte) : ((s.behindRead 0x7c0).hashed data).rest = s.rest.drop 0x7c0 := by
  show s.content.drop (s.pos + (s.delivered 0x7c0).length) = _
  rw [hgo, Reading.rest, List.drop_drop]

theorem Reading.Whole.not_fails {s : Reading} (h : s.Whole) (i : ℕ) : ¬ s.Fails i := by
  rintro ⟨code, hcode⟩
  rw [h i] at hcode
  cases hcode

/-- The number of bytes that a round hashes when the file has `rest` bytes left. -/
def roundLength (hashSz total rest : ℕ) : ℕ :=
  if hashSz < (total + min 0x7c0 rest) % 4294967296 then hashSz - total else min 0x7c0 rest

theorem hashLoop_whole_round {s : Reading} {hashSz total : ℕ} (h : s.Whole) (htotal : total ≤ hashSz)
    (hsz : hashSz < 4294967296) (fuel : ℕ) {wbuf : List Byte} (hwbuf : wbuf.length = 0x7c0) :
    hashLoop hashSz (fuel + 1) wbuf total s =
      let u := (s.behindRead 0x7c0).hashed (s.rest.take (roundLength hashSz total s.rest.length))
      if GoesOn hashSz total s then
        hashLoop hashSz fuel (s.delivered 0x7c0) ((total + 0x7c0) % 4294967296) u
      else .ok ⟨⟩ u := by
  have hret : s.ret 0x7c0 = (s.delivered 0x7c0).length := h.ret 0x7c0
  have hd := delivered_length_le s 0x7c0
  obtain ⟨hle, hgoes, hfull⟩ := clipped_delivered hd htotal hsz
  have hlen : u32 (clipped hashSz total (s.ret 0x7c0)) = roundLength hashSz total s.rest.length := by
    rw [hret, clipped_length hd htotal hsz, h.delivered_length, roundLength]
  rw [← hret, hlen] at hle hgoes hfull
  have hdata : (overwrite wbuf (s.delivered 0x7c0)).take (roundLength hashSz total s.rest.length)
      = s.rest.take (roundLength hashSz total s.rest.length) := by
    rw [overwrite, List.take_append_of_le_length hle, h.delivered_rest, List.take_take,
      min_eq_left (hle.trans hd)]
  rw [hashLoop_round fuel hwbuf hlen (hle.trans hd)]
  dsimp only
  rw [hdata]
  by_cases hgo : GoesOn hashSz total s
  · have hcomplete : overwrite wbuf (s.delivered 0x7c0) = s.delivered 0x7c0 :=
      overwrite_of_complete (by rw [hgo.1, hwbuf])
    rw [if_pos (hgoes.mpr hgo), if_pos hgo, hcomplete, hfull hgo.1 hgo.2, hgo.1, Local.size,
      if_neg (lt_irrefl _)]
  · rw [if_neg fun hgo' => hgo (hgoes.mp hgo'), if_neg hgo]

/-! ## The loop -/

theorem roundLength_of_goesOn {s : Reading} {hashSz total : ℕ} (h : s.Whole)
    (hgo : GoesOn hashSz total s) : roundLength hashSz total s.rest.length = 0x7c0 := by
  obtain ⟨hcomplete, hsum⟩ := hgo
  rw [h.delivered_length] at hcomplete
  rw [roundLength, hcomplete, if_neg hsum.not_gt]

theorem hashLoop_whole {hashSz : ℕ} (hsz : hashSz < 4294967296) {fuel total : ℕ} {s : Reading}
    {wbuf : List Byte} (h : s.Whole) (hwbuf : wbuf.length = 0x7c0) (hfuel : s.rest.length < fuel)
    (htotal : total < hashSz) :
    ∃ t calls n, hashLoop hashSz fuel wbuf total s = .ok ⟨⟩ t ∧ t.calls = s.calls ++ calls ∧
      sha256Input calls = s.rest.take n ∧ n ≤ s.rest.length ∧
      (0x7c0 ∣ total ∨ s.rest.length = 0 →
        (n = min s.rest.length (hashSz - total) ↔ SumFits hashSz (total + s.rest.length))) := by
  induction fuel generalizing total s wbuf with
  | zero => exact absurd hfuel (Nat.not_lt_zero _)
  | succ fuel ih =>
    rw [hashLoop_whole_round h htotal.le hsz fuel hwbuf]
    dsimp only
    by_cases hgo : GoesOn hashSz total s
    · rw [if_pos hgo, roundLength_of_goesOn h hgo]
      obtain ⟨hcomplete, hsum⟩ := hgo
      have hmin := hcomplete
      rw [h.delivered_length] at hmin
      have hrest := s.rest_behindRead hcomplete (s.rest.take 0x7c0)
      have hlen : (s.rest.drop 0x7c0).length = s.rest.length - 0x7c0 := List.length_drop
      have hwhole : ((s.behindRead 0x7c0).hashed (s.rest.take 0x7c0)).Whole := fun i => h (i + 1)
      obtain ⟨t, calls, n, hrun, hcalls, hinput, hn, hiff⟩ :=
        ih hwhole hcomplete (by rw [hrest, hlen]; omega) hsum
      rw [hrest, hlen] at hn hiff
      refine ⟨t, .read 0x7c0 (s.delivered 0x7c0) (s.ret 0x7c0) :: .sha256Update (s.rest.take 0x7c0) ::
        calls, 0x7c0 + n, hrun, ?_, ?_, by omega, fun hblocks => ?_⟩
      · rw [hcalls, hashed_calls, List.append_assoc]
        rfl
      · rw [sha256Input_read, sha256Input_update, hinput, hrest, List.take_add]
      · exact further_round_iff htotal hsz hblocks hmin hsum hiff
    · rw [if_neg hgo]
      refine ⟨_, _, roundLength hashSz total s.rest.length, rfl, hashed_calls s _, ?_, ?_,
        fun hblocks => ?_⟩
      · rw [sha256Input_read, sha256Input_update, sha256Input, List.flatMap_nil, List.append_nil]
      · unfold roundLength
        split_ifs with hclip
        · have := Nat.mod_le (total + min 0x7c0 s.rest.length) 4294967296
          omega
        · exact min_le_right _ _
      · refine last_round_iff htotal hsz hblocks fun hfurther => hgo ⟨?_, hfurther.2⟩
        rw [h.delivered_length]
        exact hfurther.1

/-! ## The function -/

theorem hashSize_of_lt {header : List Byte} (h : dataPsarPtr header + 0x1C0000 < 4294967296) :
    hashSize header = dataPsarPtr header + 0x1C0000 := Nat.mod_eq_of_lt h

theorem dataPsarPtr_take {content : List Byte} (n : ℕ) (hn : 40 ≤ n) :
    dataPsarPtr (content.take n) = dataPsarPtr content := by
  rw [dataPsarPtr, dataPsarPtr, word32, word32, List.drop_take, List.take_take,
    min_eq_left (by omega)]

theorem take_append_take_drop_eq_iff {α : Type} (l : List α) {k n m : ℕ} (hn : n ≤ l.length - k)
    (hm : k ≤ m) (hml : m ≤ l.length) : l.take k ++ (l.drop k).take n = l.take m ↔ n = m - k := by
  rw [← List.take_add, List.take_eq_take_iff]
  omega

theorem hashPbp_whole (mem : Stack) {s : Reading} (hwhole : s.Whole) (hlen : 40 ≤ s.content.length)
    (hpsar : dataPsarPtr s.content + 0x1C0000 < 4294967296) :
    ∃ t calls, hashPbp mem s = .ok 1 t ∧ t.calls = s.calls ++ calls ∧
      (sha256Input calls = s.content.take (min s.content.length (dataPsarPtr s.content + 0x1C0000)) ↔
        SumFits (dataPsarPtr s.content + 0x1C0000) s.content.length) := by
  have hu : (s.behindSeek 0).Whole := hwhole
  have hrest : (s.behindSeek 0).rest = s.content := List.drop_zero
  have hfirst : (s.behindSeek 0).delivered 0x7c0 = s.content.take 0x7c0 := by
    rw [hu.delivered_rest, hrest]
  have hfirst_length : (s.content.take 0x7c0).length = min 0x7c0 s.content.length := List.length_take
  have hsize : hashSize (s.content.take 0x7c0) = dataPsarPtr s.content + 0x1C0000 := by
    rw [hashSize_of_lt] <;> rw [dataPsarPtr_take _ (by norm_num)]
    exact hpsar
  set v := ((s.behindSeek 0).behindRead 0x7c0).hashed (s.content.take 0x7c0) with hv
  have hv_whole : v.Whole := fun i => hwhole (i + 1)
  have hv_rest : v.rest = s.content.drop (min 0x7c0 s.content.length) := by
    show s.content.drop (0 + ((s.behindSeek 0).delivered 0x7c0).length) = _
    rw [Nat.zero_add, hfirst, hfirst_length]
  have hv_length : v.rest.length = s.content.length - min 0x7c0 s.content.length := by
    rw [hv_rest, List.length_drop]
  have hlong : 40 ≤ ((s.behindSeek 0).delivered 0x7c0).length := by
    rw [hfirst, hfirst_length]
    omega
  have hrun : hashRun mem (s.behindSeek 0) = _ := hashRun_delivered (hu.not_fails 0) hlong
  have hwbuf : (overwrite (mem.array .wbuf) (s.content.take 0x7c0)).length = 0x7c0 := by
    rw [← hfirst]
    exact overwrite_delivered_length (mem.array_length .wbuf) _
  rw [hfirst, hsize, hfirst_length, ← hv] at hrun
  have hfuel : v.rest.length < s.content.length + 1 := by omega
  obtain ⟨t, calls, n, hloop, hcalls, hinput, hn, hiff⟩ :=
    hashLoop_whole hpsar hv_whole hwbuf hfuel (show min 0x7c0 s.content.length < _ by omega)
  rw [hv_length] at hiff hn
  refine ⟨t, .lseek 0 :: .read 0x7c0 (s.content.take 0x7c0) ((s.behindSeek 0).ret 0x7c0) ::
    .sha256Update (s.content.take 0x7c0) :: calls, ?_, ?_, ?_⟩
  · rw [hashPbp_apply, hrun]
    exact bind_of_ok hloop
  · rw [hcalls, hv, hashed_calls, behindSeek_calls, hfirst, List.append_assoc, List.append_assoc]
    rfl
  · have hn' : n = min s.content.length (dataPsarPtr s.content + 0x1C0000) - min 0x7c0 s.content.length
        ↔ n = min (s.content.length - min 0x7c0 s.content.length)
          (dataPsarPtr s.content + 0x1C0000 - min 0x7c0 s.content.length) := by omega
    have hsum : min 0x7c0 s.content.length + (s.content.length - min 0x7c0 s.content.length)
        = s.content.length := by omega
    rw [sha256Input_lseek, sha256Input_read, sha256Input_update, hinput, hv_rest,
      List.take_eq_take_min, take_append_take_drop_eq_iff _ hn (by omega) (min_le_left _ _), hn',
      hiff (by omega), hsum]

/-- **The bytes hashed.** `hash_pbp` terminates, and hashes exactly the beginning of the file up to the
hash size, when the sum of the bytes hashed and the bytes read does not wrap. -/
theorem hashPbp_input_iff (mem : Stack) (s : Reading) (hwhole : s.Whole) (hlen : 40 ≤ s.content.length)
    (hpsar : dataPsarPtr s.content + 0x1C0000 < 4294967296) :
    ∃ t calls, hashPbp mem s = .ok 1 t ∧ t.calls = s.calls ++ calls ∧
      (sha256Input calls = s.content.take (min s.content.length (dataPsarPtr s.content + 0x1C0000)) ↔
        dataPsarPtr s.content + 0x1C0000 ≤ 4294967168 ∨ s.content.length < 4294967296) :=
  hashPbp_whole mem hwhole hlen hpsar

theorem hashPbp_input_iff_small :
    ∃ t calls, hashPbp (fun _ _ => 0) (wholeFile (List.replicate 50 0)) = .ok 1 t ∧
      t.calls = [] ++ calls ∧ sha256Input calls = List.replicate 50 0 := by
  obtain ⟨t, calls, hrun, hcalls, hiff⟩ :=
    hashPbp_input_iff (fun _ _ => 0) (wholeFile (List.replicate 50 0)) (fun _ => rfl) (by decide)
      (by decide)
  exact ⟨t, calls, hrun, hcalls, hiff.mpr (Or.inl (by decide))⟩

/-- A header whose hash size is `2 ^ 32 - 1` -/
def lastHeader : List Byte := List.replicate 36 0 ++ [255, 255, 227, 255]

/-- A file of `2 ^ 32` bytes -/
def hugeContent : List Byte := lastHeader ++ List.replicate 4294967256 0

theorem hugeContent_length : hugeContent.length = 4294967296 := by
  rw [hugeContent, List.length_append, List.length_replicate]
  rfl

theorem hugeContent_psar : dataPsarPtr hugeContent = 0xFFE3FFFF := by
  have htake : hugeContent.take 40 = lastHeader :=
    List.take_left' (by decide : lastHeader.length = 40)
  rw [← dataPsarPtr_take 40 (le_refl 40), htake]
  decide

/-- More than the hash size is hashed of a file of `2 ^ 32` bytes. -/
theorem hashPbp_huge : dataPsarPtr hugeContent + 0x1C0000 = 4294967295 ∧
    ∃ t calls, hashPbp (fun _ _ => 0) (wholeFile hugeContent) = .ok 1 t ∧ t.calls = [] ++ calls ∧
      sha256Input calls ≠ hugeContent.take (min hugeContent.length 4294967295) := by
  have hsize : dataPsarPtr hugeContent + 0x1C0000 = 4294967295 := by rw [hugeContent_psar]
  have hcontent : (wholeFile hugeContent).content = hugeContent := rfl
  obtain ⟨t, calls, hrun, hcalls, hiff⟩ := hashPbp_whole (fun _ _ => 0) (s := wholeFile hugeContent)
    (fun _ => rfl) (by rw [hcontent, hugeContent_length]; norm_num) (by rw [hcontent, hsize]; norm_num)
  rw [hcontent, hsize] at hiff
  refine ⟨hsize, t, calls, hrun, hcalls, fun hinput => ?_⟩
  have hfits := hiff.mp hinput
  rw [SumFits, hugeContent_length] at hfits
  omega

end VitaConnect.Pbp

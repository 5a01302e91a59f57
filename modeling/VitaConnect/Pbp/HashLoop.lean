import VitaConnect.Pbp.DeliveredId

/-! # Reads that fail: the hash

A round of the loop hashes a part of what its read has delivered, as long as the read does not fail.
An error is clipped to the number of bytes that are left to hash, which the array still holds from the
round before, or is taken for a length behind the end of the array.
-/
namespace VitaConnect.Pbp
open CString Program
set_option autoImplicit false

/-! ## One round -/

def Reading.hashed (s : Reading) (data : List Byte) : Reading :=
  { s with calls := s.calls ++ [.sha256Update data] }

/-- The length that a round hashes. -/
def clipped (hashSz total : ℕ) (ret : ℤ) : ℤ :=
  if hashSz < (total + u32 ret) % 4294967296 then i32 (hashSz - total) else ret

section Round
variable {s : Reading} {wbuf : List Byte} {hashSz total : ℕ}

theorem sha256Update_apply (data : List Byte) (len : ℕ) (s : Reading) :
    sha256Update data len s
      = if len ≤ data.length then .ok ⟨⟩ (s.hashed (data.take len)) else .error .overread s := by
  unfold sha256Update
  split <;> rfl

theorem hashLoop_overread (fuel : ℕ) (hwbuf : wbuf.length = 0x7c0)
    (h : 0x7c0 < u32 (clipped hashSz total (s.ret 0x7c0))) :
    hashLoop hashSz (fuel + 1) wbuf total s = .error .overread (s.behindRead 0x7c0) := by
  have hlen : ¬ u32 (clipped hashSz total (s.ret 0x7c0))
      ≤ (overwrite wbuf (s.delivered 0x7c0)).length := by
    rw [overwrite_delivered_length hwbuf]
    omega
  rw [hashLoop, bind_apply, readInto_apply, hwbuf]
  dsimp only
  rw [← clipped, bind_apply, sha256Update_apply, if_neg hlen]

theorem hashLoop_round (fuel : ℕ) (hwbuf : wbuf.length = 0x7c0) {len : ℕ}
    (hlen : u32 (clipped hashSz total (s.ret 0x7c0)) = len) (hle : len ≤ 0x7c0) :
    hashLoop hashSz (fuel + 1) wbuf total s =
      let u := (s.behindRead 0x7c0).hashed ((overwrite wbuf (s.delivered 0x7c0)).take len)
      let total' := if len < Local.wbuf.size then hashSz else (total + len) % 4294967296
      if total' < hashSz then hashLoop hashSz fuel (overwrite wbuf (s.delivered 0x7c0)) total' u
      else .ok ⟨⟩ u := by
  have hfits : len ≤ (overwrite wbuf (s.delivered 0x7c0)).length := by
    rw [overwrite_delivered_length hwbuf]
    exact hle
  rw [hashLoop, bind_apply, readInto_apply, hwbuf]
  dsimp only
  rw [← clipped, hlen, bind_apply, sha256Update_apply, if_pos hfits]
  dsimp only
  rw [ite_run]
  rfl

theorem clipped_delivered {n : ℕ} (hn : n ≤ 0x7c0) (htotal : total ≤ hashSz)
    (hsz : hashSz < 4294967296) :
    u32 (clipped hashSz total n) ≤ n ∧
      ((if u32 (clipped hashSz total n) < Local.wbuf.size then hashSz
          else (total + u32 (clipped hashSz total n)) % 4294967296) < hashSz ↔
        n = 0x7c0 ∧ (total + 0x7c0) % 4294967296 < hashSz) ∧
      (n = 0x7c0 → (total + 0x7c0) % 4294967296 < hashSz → u32 (clipped hashSz total n) = n) := by
  rw [Local.size]
  unfold clipped i32 u32
  split_ifs <;> omega

theorem clipped_error {ret : ℤ} (hret : -2147483648 ≤ ret ∧ ret < 0) (htotal : total < hashSz)
    (hsz : hashSz < 4294967296) : 0 < u32 (clipped hashSz total ret) ∧
      (u32 (clipped hashSz total ret) ≤ 0x7c0 →
        hashSz ≤ (total + u32 (clipped hashSz total ret)) % 4294967296) := by
  unfold clipped i32 u32
  split_ifs <;> omega

/-- More is hashed than there is to hash. -/
theorem clipped_over {ret : ℤ} (hret : -2147483648 ≤ ret ∧ ret ≤ 0x7c0) (htotal : hashSz < total)
    (hfirst : total ≤ 0x7c0) : 0x7c0 < u32 (clipped hashSz total ret) := by
  unfold clipped i32 u32
  split_ifs <;> omega

theorem clipped_exhausted {ret : ℤ} (hret : -2147483648 ≤ ret ∧ ret < 0) (hfirst : hashSz ≤ 0x7c0) :
    u32 (clipped hashSz hashSz ret) = 0 ∧ ret < -hashSz ∨
      0x7c0 < u32 (clipped hashSz hashSz ret) ∧ ¬ ret < -hashSz := by
  unfold clipped i32 u32
  split_ifs <;> omega

end Round

/-! ## The loop -/

/-- A further round follows. -/
abbrev GoesOn (hashSz total : ℕ) (s : Reading) : Prop :=
  (s.delivered 0x7c0).length = 0x7c0 ∧ (total + 0x7c0) % 4294967296 < hashSz

theorem hashLoop_delivered {s : Reading} {hashSz total : ℕ} (hdelivers : ¬ s.Fails 0)
    (htotal : total ≤ hashSz) (hsz : hashSz < 4294967296) :
    ∃ data, data <+: s.delivered 0x7c0 ∧ ∀ fuel wbuf, wbuf.length = 0x7c0 →
      hashLoop hashSz (fuel + 1) wbuf total s =
        if GoesOn hashSz total s then
          hashLoop hashSz fuel (s.delivered 0x7c0) ((total + 0x7c0) % 4294967296)
            ((s.behindRead 0x7c0).hashed data)
        else .ok ⟨⟩ ((s.behindRead 0x7c0).hashed data) := by
  have hn := delivered_length_le s 0x7c0
  have hret : s.ret 0x7c0 = (s.delivered 0x7c0).length := ret_of_not_fails hdelivers
  obtain ⟨hle, hgoes, hfull⟩ := clipped_delivered hn htotal hsz
  rw [← hret] at hle hgoes hfull
  refine ⟨(s.delivered 0x7c0).take (u32 (clipped hashSz total (s.ret 0x7c0))), List.take_prefix _ _,
    fun fuel wbuf hwbuf => ?_⟩
  rw [hashLoop_round fuel hwbuf rfl (hle.trans hn)]
  dsimp only
  rw [overwrite, List.take_append_of_le_length hle]
  by_cases hgo : GoesOn hashSz total s
  · have hcomplete : s.delivered 0x7c0 ++ wbuf.drop (s.delivered 0x7c0).length = s.delivered 0x7c0 :=
      overwrite_of_complete (by rw [hgo.1, hwbuf])
    rw [if_pos (hgoes.mpr hgo), if_pos hgo, hcomplete, hfull hgo.1 hgo.2, hgo.1, Local.size,
      if_neg (lt_irrefl _)]
  · rw [if_neg fun h => hgo (hgoes.mp h), if_neg hgo]

/-- No read fails in a round that is reached. -/
def LoopDelivered (hashSz total : ℕ) (s : Reading) : Prop :=
  ∀ i, (∀ j < i, (s.deliveredAt j (s.pos + 0x7c0 * j) 0x7c0).length = 0x7c0) →
    (∀ j ≤ i, (total + 0x7c0 * j) % 4294967296 < hashSz) → ¬ s.Fails i

theorem deliveredAt_hashed {s : Reading} (hcomplete : (s.delivered 0x7c0).length = 0x7c0)
    (data : List Byte) (j : ℕ) :
    ((s.behindRead 0x7c0).hashed data).deliveredAt j
        (((s.behindRead 0x7c0).hashed data).pos + 0x7c0 * j) 0x7c0
      = s.deliveredAt (j + 1) (s.pos + 0x7c0 * (j + 1)) 0x7c0 := by
  have hpos : ((s.behindRead 0x7c0).hashed data).pos + 0x7c0 * j = s.pos + 0x7c0 * (j + 1) := by
    show s.pos + (s.delivered 0x7c0).length + 0x7c0 * j = _
    rw [hcomplete]
    ring
  rw [hpos]
  rfl

theorem loopDelivered_iff {s : Reading} {hashSz total : ℕ} (htotal : total < hashSz)
    (hsz : hashSz < 4294967296) (data : List Byte) :
    LoopDelivered hashSz total s ↔ ¬ s.Fails 0 ∧ (GoesOn hashSz total s →
      LoopDelivered hashSz ((total + 0x7c0) % 4294967296) ((s.behindRead 0x7c0).hashed data)) := by
  constructor
  · intro h
    refine ⟨h 0 (fun j hj => absurd hj (Nat.not_lt_zero j)) fun j hj => by omega, ?_⟩
    intro hgo i hcomplete hlt
    refine h (i + 1) (fun j hj => ?_) fun j hj => ?_
    · cases j with
      | zero => exact hgo.1
      | succ j =>
        rw [← deliveredAt_hashed hgo.1 data]
        exact hcomplete j (by omega)
    · cases j with
      | zero => omega
      | succ j =>
        have hj := hlt j (by omega)
        omega
  · rintro ⟨hfirst, hrest⟩ i hcomplete hlt
    cases i with
    | zero => exact hfirst
    | succ i =>
      have hgo : GoesOn hashSz total s := ⟨hcomplete 0 (Nat.succ_pos i), by simpa using hlt 1 (by omega)⟩
      refine hrest hgo i (fun j hj => ?_) fun j hj => ?_
      · rw [deliveredAt_hashed hgo.1 data]
        exact hcomplete (j + 1) (by omega)
      · have hj := hlt (j + 1) (by omega)
        omega

theorem hashed_calls (s : Reading) (data : List Byte) :
    ((s.behindRead 0x7c0).hashed data).calls
      = s.calls ++ [.read 0x7c0 (s.delivered 0x7c0) (s.ret 0x7c0), .sha256Update data] := by
  rw [Reading.hashed, behindRead_calls, List.append_assoc, List.singleton_append]

/-- The loop has one outcome for every array, and hashes what has been delivered. -/
def LoopUniform (hashSz fuel total : ℕ) (s : Reading) : Prop :=
  ∃ t calls, (∀ wbuf, wbuf.length = 0x7c0 → hashLoop hashSz fuel wbuf total s = .ok ⟨⟩ t) ∧
    t.calls = s.calls ++ calls ∧ HashesDelivered 0x7c0 calls

theorem not_short_of_goesOn {s : Reading} {hashSz total : ℕ} (hgo : GoesOn hashSz total s) :
    ¬ s.ret 0x7c0 < 0x7c0 := by
  rw [ret_of_complete (by norm_num) hgo.1]
  decide

theorem delivered_length_le_rest (s : Reading) (size : ℕ) :
    (s.delivered size).length ≤ s.content.length - s.pos := by
  unfold Reading.delivered
  rw [← List.length_drop]
  cases s.sceIoRead 0 with
  | full => exact List.length_take_le' _ _
  | short n => exact List.length_take_le' _ _
  | error code => exact Nat.zero_le _

/-- The fuel lasts because a round that is followed by another has delivered bytes. -/
theorem loopUniform_of_delivered {hashSz : ℕ} (hsz : hashSz < 4294967296) {fuel total : ℕ} {s : Reading}
    (hfuel : s.content.length - s.pos < fuel) (htotal : total < hashSz)
    (h : LoopDelivered hashSz total s) : LoopUniform hashSz fuel total s := by
  induction fuel generalizing total s with
  | zero => exact absurd hfuel (Nat.not_lt_zero _)
  | succ fuel ih =>
    have hdelivers : ¬ s.Fails 0 := ((loopDelivered_iff htotal hsz []).mp h).1
    obtain ⟨data, hdata, hround⟩ := hashLoop_delivered hdelivers htotal.le hsz
    by_cases hgo : GoesOn hashSz total s
    · have hrest := delivered_length_le_rest s 0x7c0
      have hfuel' : ((s.behindRead 0x7c0).hashed data).content.length
          - ((s.behindRead 0x7c0).hashed data).pos < fuel := by
        show s.content.length - (s.pos + (s.delivered 0x7c0).length) < fuel
        rw [hgo.1] at hrest ⊢
        omega
      obtain ⟨t, calls, hrun, hcalls, hhashes⟩ :=
        ih hfuel' hgo.2 (((loopDelivered_iff htotal hsz data).mp h).2 hgo)
      refine ⟨t, .read 0x7c0 (s.delivered 0x7c0) (s.ret 0x7c0) :: .sha256Update data :: calls,
        fun wbuf hwbuf => ?_, ?_, hdata, fun hshort => absurd hshort (not_short_of_goesOn hgo), hhashes⟩
      · rw [hround fuel wbuf hwbuf, if_pos hgo]
        exact hrun _ hgo.1
      · rw [hcalls, hashed_calls, List.append_assoc]
        rfl
    · refine ⟨(s.behindRead 0x7c0).hashed data, _, fun wbuf hwbuf => ?_, hashed_calls s data, hdata,
        fun _ => rfl, trivial⟩
      rw [hround fuel wbuf hwbuf, if_neg hgo]

theorem grows_sha256Update (data : List Byte) (len : ℕ) : Respects CallsGrow (sha256Update data len) :=
  respects_ite (grows_call _) (respects_throw _)

theorem grows_hashLoop (hashSz fuel : ℕ) (wbuf : List Byte) (total : ℕ) :
    Respects CallsGrow (hashLoop hashSz fuel wbuf total) := by
  induction fuel generalizing wbuf total with
  | zero => exact respects_throw _
  | succ fuel ih =>
    refine respects_bind (grows_readInto _) fun r => respects_bind (grows_sha256Update _ _) fun _ => ?_
    exact respects_ite (ih _ _) (respects_pure _)

/-- Behind an error the loop hashes what the array still holds, or more. -/
theorem not_fails_of_run {s t : Reading} {hashSz fuel total : ℕ} {wbuf : List Byte} {calls : List Call}
    (hwbuf : wbuf.length = 0x7c0) (htotal : total < hashSz) (hsz : hashSz < 4294967296)
    (hrun : hashLoop hashSz (fuel + 1) wbuf total s = .ok ⟨⟩ t) (hcalls : t.calls = s.calls ++ calls)
    (hhashes : HashesDelivered 0x7c0 calls) : ¬ s.Fails 0 := by
  intro hfails
  obtain ⟨hpos, hend⟩ := clipped_error (ret_of_fails 0x7c0 hfails) htotal hsz
  by_cases hle : u32 (clipped hashSz total (s.ret 0x7c0)) ≤ 0x7c0
  · rw [hashLoop_round fuel hwbuf rfl hle] at hrun
    dsimp only at hrun
    rw [if_neg] at hrun
    · obtain ⟨-, rfl⟩ := EStateM.Result.ok.inj hrun
      rw [hashed_calls, List.append_cancel_left_eq] at hcalls
      subst hcalls
      have hprefix := hhashes.1.length_le
      rw [delivered_of_fails hfails, overwrite_nil, List.length_take, hwbuf, List.length_nil] at hprefix
      omega
    · split
      · exact lt_irrefl _
      · exact not_lt.mpr (hend hle)
  · rw [hashLoop_overread fuel hwbuf (not_le.mp hle)] at hrun
    cases hrun

theorem loopDelivered_of_run {hashSz : ℕ} (hsz : hashSz < 4294967296) {fuel total : ℕ} {s t : Reading}
    {wbuf : List Byte} {calls : List Call} (hwbuf : wbuf.length = 0x7c0) (htotal : total < hashSz)
    (hrun : hashLoop hashSz fuel wbuf total s = .ok ⟨⟩ t) (hcalls : t.calls = s.calls ++ calls)
    (hhashes : HashesDelivered 0x7c0 calls) : LoopDelivered hashSz total s := by
  induction fuel generalizing total s wbuf calls with
  | zero => cases hrun
  | succ fuel ih =>
    have hdelivers := not_fails_of_run hwbuf htotal hsz hrun hcalls hhashes
    obtain ⟨data, hdata, hround⟩ := hashLoop_delivered hdelivers htotal.le hsz
    refine (loopDelivered_iff htotal hsz data).mpr ⟨hdelivers, fun hgo => ?_⟩
    rw [hround fuel wbuf hwbuf, if_pos hgo] at hrun
    obtain ⟨rest, hrest⟩ := Respects.ok (grows_hashLoop _ _ _ _) hrun
    have hcalls' : calls = .read 0x7c0 (s.delivered 0x7c0) (s.ret 0x7c0) :: .sha256Update data :: rest := by
      rw [← hrest, hashed_calls, List.append_assoc, List.append_cancel_left_eq] at hcalls
      exact hcalls.symm
    subst hcalls'
    exact ih hgo.1 hgo.2 hrun hrest.symm hhashes.2.2

/-- When the first read has delivered everything that is to be hashed, the loop hashes nothing. -/
theorem loop_exhausted {s : Reading} {hashSz : ℕ} (hfirst : hashSz ≤ 0x7c0)
    (h : s.Fails 0 → s.ret 0x7c0 < -hashSz) (fuel : ℕ) : LoopUniform hashSz (fuel + 1) hashSz s := by
  by_cases hfails : s.Fails 0
  · rcases clipped_exhausted (ret_of_fails 0x7c0 hfails) hfirst with ⟨hzero, -⟩ | ⟨-, hnot⟩
    · refine ⟨(s.behindRead 0x7c0).hashed [], _, fun wbuf hwbuf => ?_, hashed_calls s [],
        List.nil_prefix, fun _ => rfl, trivial⟩
      rw [hashLoop_round fuel hwbuf hzero (Nat.zero_le _)]
      dsimp only
      have hsize : 0 < Local.wbuf.size := by decide
      rw [if_pos hsize, if_neg (lt_irrefl _)]
      rfl
    · exact absurd (h hfails) hnot
  · obtain ⟨data, hdata, hround⟩ := hashLoop_delivered hfails (le_refl hashSz) (by omega)
    refine ⟨(s.behindRead 0x7c0).hashed data, _, fun wbuf hwbuf => ?_, hashed_calls s data, hdata,
      fun _ => rfl, trivial⟩
    rw [hround fuel wbuf hwbuf, if_neg fun hgo => by have hlt := hgo.2; omega]

/-! ## The function -/

theorem hashSize_overwrite {first : List Byte} (h : 40 ≤ first.length) (wbuf : List Byte) :
    hashSize (overwrite wbuf first) = hashSize first := by
  have hfield : ((overwrite wbuf first).drop 36).take 4 = (first.drop 36).take 4 := by
    rw [overwrite, List.drop_append_of_le_length (by omega),
      List.take_append_of_le_length (by rw [List.length_drop]; omega)]
  rw [hashSize, hashSize, dataPsarPtr, dataPsarPtr, word32, word32, hfield]

theorem hashSize_lt (header : List Byte) : hashSize header < 4294967296 := Nat.mod_lt _ (by norm_num)

/-- The run of `hash_pbp` behind its seek. -/
def hashRun (mem : Stack) : PbpM ℤ := do
  let (readSz, wbuf) ← readInto (mem.array .wbuf)
  if u32 readSz < Local.pbpHeader.size then pure readSz
  else do
    let hashSz := hashSize wbuf
    sha256Update wbuf (u32 readSz)
    let s ← get
    hashLoop hashSz (s.content.length + 1) wbuf (u32 readSz)
    pure 1

theorem hashPbp_apply (mem : Stack) (s : Reading) : hashPbp mem s = hashRun mem (s.behindSeek 0) := by
  rw [hashPbp, sceIoLseek_bind, hashRun]

section First
variable {s : Reading} {mem : Stack}

theorem hashRun_short (h : ¬ s.Fails 0) (hlen : (s.delivered 0x7c0).length < 40) :
    hashRun mem s = .ok (s.ret 0x7c0) (s.behindRead 0x7c0) := by
  have hshort : u32 (s.ret Local.wbuf.size) < Local.pbpHeader.size := by
    rw [Local.size, Local.size, ret_of_not_fails h, u32_of_lt (by omega)]
    exact hlen
  rw [hashRun, bind_read]
  dsimp only
  rw [if_pos hshort]
  rfl

theorem hashRun_fails (h : s.Fails 0) : hashRun mem s = .error .overread (s.behindRead 0x7c0) := by
  have hbig : 2147483648 ≤ u32 (s.ret Local.wbuf.size) := by
    have hret := ret_of_fails Local.wbuf.size h
    unfold u32
    omega
  have hlong : ¬ u32 (s.ret Local.wbuf.size) < Local.pbpHeader.size := by
    rw [Local.size]
    omega
  have hover : ¬ u32 (s.ret Local.wbuf.size)
      ≤ (overwrite (mem.array .wbuf) (s.delivered Local.wbuf.size)).length := by
    rw [overwrite_delivered_length (mem.array_length .wbuf), Local.size]
    exact not_le.mpr (lt_of_lt_of_le (by norm_num) hbig)
  rw [hashRun, bind_read]
  dsimp only
  rw [if_neg hlong, bind_apply, sha256Update_apply, if_neg hover]
  rfl

theorem hashRun_delivered (h : ¬ s.Fails 0) (hlen : 40 ≤ (s.delivered 0x7c0).length) :
    hashRun mem s = (hashLoop (hashSize (s.delivered 0x7c0)) (s.content.length + 1)
        (overwrite (mem.array .wbuf) (s.delivered 0x7c0)) (s.delivered 0x7c0).length >>= fun _ => pure 1)
      ((s.behindRead 0x7c0).hashed (s.delivered 0x7c0)) := by
  have hle : (s.delivered 0x7c0).length ≤ 0x7c0 := delivered_length_le s _
  have hret : u32 (s.ret Local.wbuf.size) = (s.delivered 0x7c0).length := by
    rw [ret_of_not_fails h, u32_of_lt]
    · rfl
    · exact lt_of_le_of_lt hle (by norm_num)
  have hlong : ¬ (s.delivered 0x7c0).length < Local.pbpHeader.size := not_lt.mpr hlen
  have hfits : (s.delivered 0x7c0).length ≤ (overwrite (mem.array .wbuf) (s.delivered 0x7c0)).length := by
    rw [overwrite, List.length_append]
    omega
  have htake : (overwrite (mem.array .wbuf) (s.delivered 0x7c0)).take (s.delivered 0x7c0).length
      = s.delivered 0x7c0 := List.take_left
  rw [hashRun, bind_read]
  dsimp only
  rw [hret, if_neg hlong]
  show (sha256Update (overwrite (mem.array .wbuf) (s.delivered 0x7c0)) _ >>= _) _ = _
  rw [bind_apply, sha256Update_apply, if_pos hfits, htake]
  dsimp only
  rw [bind_apply, get_apply]
  dsimp only
  rw [show Local.wbuf.size = 0x7c0 from rfl, hashSize_overwrite hlen]
  rfl

end First

/-- Behind the seek: the first read does not fail, what it delivers is not more than what is to be
hashed, and no read of a round that is reached fails. -/
structure HashDelivered (s : Reading) : Prop where
  first : ¬ s.Fails 0
  fits : 40 ≤ (s.delivered 0x7c0).length →
    (s.delivered 0x7c0).length ≤ hashSize (s.delivered 0x7c0)
  exhausted : 40 ≤ (s.delivered 0x7c0).length →
    (s.delivered 0x7c0).length = hashSize (s.delivered 0x7c0) → s.Fails 1 →
      (s.behindRead 0x7c0).ret 0x7c0 < -hashSize (s.delivered 0x7c0)
  rounds : 40 ≤ (s.delivered 0x7c0).length →
    (s.delivered 0x7c0).length < hashSize (s.delivered 0x7c0) →
      LoopDelivered (hashSize (s.delivered 0x7c0)) (s.delivered 0x7c0).length (s.behindRead 0x7c0)

theorem hashesDelivered_update {need ret : ℤ} {size : ℕ} {delivered data : List Byte}
    {calls : List Call} :
    HashesDelivered need (.read size delivered ret :: .sha256Update data :: calls) ↔
      data <+: delivered ∧ (ret < need → calls = []) ∧ HashesDelivered 0x7c0 calls := by
  rw [HashesDelivered]

theorem loopDelivered_hashed {s : Reading} {hashSz total : ℕ} (data : List Byte) :
    LoopDelivered hashSz total (s.hashed data) ↔ LoopDelivered hashSz total s := Iff.rfl

theorem hashed_fails (s : Reading) (data : List Byte) (i : ℕ) :
    (s.hashed data).Fails i ↔ s.Fails i := Iff.rfl

theorem hashed_ret (s : Reading) (data : List Byte) (size : ℕ) :
    (s.hashed data).ret size = s.ret size := rfl

theorem uniform_hashRun_of_delivered {s : Reading} (h : HashDelivered s) :
    Uniform (fun _ => HashesDelivered Local.pbpHeader.size) hashRun s := by
  have hret : s.ret 0x7c0 = (s.delivered 0x7c0).length := ret_of_not_fails h.first
  by_cases hlen : (s.delivered 0x7c0).length < 40
  · refine ⟨_, _, _, fun mem => hashRun_short h.first hlen, behindRead_calls s 0x7c0, ?_⟩
    show s.ret 0x7c0 < 40
    omega
  rw [not_lt] at hlen
  have hfits := h.fits hlen
  have hloop : LoopUniform (hashSize (s.delivered 0x7c0)) (s.content.length + 1)
      (s.delivered 0x7c0).length ((s.behindRead 0x7c0).hashed (s.delivered 0x7c0)) := by
    rcases hfits.lt_or_eq with hlt | heq
    · refine loopUniform_of_delivered (hashSize_lt _) ?_ hlt
        ((loopDelivered_hashed _).mpr (h.rounds hlen hlt))
      exact Nat.lt_succ_of_le (Nat.sub_le _ _)
    · have hle := delivered_length_le s 0x7c0
      have hexhausted : ((s.behindRead 0x7c0).hashed (s.delivered 0x7c0)).Fails 0 →
          ((s.behindRead 0x7c0).hashed (s.delivered 0x7c0)).ret 0x7c0
            < -hashSize (s.delivered 0x7c0) := by
        rw [hashed_fails, hashed_ret]
        exact h.exhausted hlen heq
      rw [heq]
      exact loop_exhausted (heq.symm.le.trans hle) hexhausted s.content.length
  obtain ⟨t, calls, hrun, hcalls, hhashes⟩ := hloop
  refine ⟨1, t, .read 0x7c0 (s.delivered 0x7c0) (s.ret 0x7c0) :: .sha256Update (s.delivered 0x7c0) ::
    calls, fun mem => ?_, ?_, ?_⟩
  · have harray : (overwrite (mem.array .wbuf) (s.delivered 0x7c0)).length = 0x7c0 :=
      overwrite_delivered_length (mem.array_length .wbuf) s
    exact (hashRun_delivered h.first hlen).trans (bind_of_ok (hrun _ harray))
  · rw [hcalls, hashed_calls, List.append_assoc]
    rfl
  · refine hashesDelivered_update.mpr ⟨List.prefix_refl _, fun hshort => ?_, hhashes⟩
    rw [hret, Local.size] at hshort
    omega

theorem hashDelivered_of_uniform {s : Reading}
    (h : Uniform (fun _ => HashesDelivered Local.pbpHeader.size) hashRun s) : HashDelivered s := by
  obtain ⟨value, t, calls, hrun, hcalls, hhashes⟩ := h
  have hfirst : ¬ s.Fails 0 := by
    intro hfails
    have herror := hrun (.holding .wbuf [])
    rw [hashRun_fails hfails] at herror
    cases herror
  have hle := delivered_length_le s 0x7c0
  have hloop : 40 ≤ (s.delivered 0x7c0).length → ∃ wbuf t calls, wbuf.length = 0x7c0 ∧
      hashLoop (hashSize (s.delivered 0x7c0)) (s.content.length + 1) wbuf (s.delivered 0x7c0).length
        ((s.behindRead 0x7c0).hashed (s.delivered 0x7c0)) = .ok ⟨⟩ t ∧
      t.calls = ((s.behindRead 0x7c0).hashed (s.delivered 0x7c0)).calls ++ calls ∧
      HashesDelivered 0x7c0 calls := by
    intro hlen
    have hwhole := hrun (.holding .wbuf [])
    rw [hashRun_delivered hfirst hlen] at hwhole
    obtain ⟨_, u, hu, hpure⟩ := bind_ok hwhole
    obtain ⟨-, rfl⟩ := EStateM.Result.ok.inj hpure
    obtain ⟨rest, hrest⟩ := Respects.ok (grows_hashLoop _ _ _ _) hu
    refine ⟨_, _, rest, ?_, hu, hrest.symm, ?_⟩
    · exact overwrite_delivered_length (Stack.array_length _ .wbuf) s
    · rw [← hrest, hashed_calls, List.append_assoc, List.append_cancel_left_eq] at hcalls
      rw [← hcalls] at hhashes
      exact hhashes.2.2
  refine ⟨hfirst, fun hlen => ?_, fun hlen heq hfails => ?_, fun hlen hlt => ?_⟩
  · by_contra hlt
    obtain ⟨wbuf, u, rest, hwbuf, hu, -, -⟩ := hloop hlen
    rw [hashLoop_overread _ hwbuf (clipped_over (ret_bounds _ _) (not_le.mp hlt) hle)] at hu
    cases hu
  · obtain ⟨wbuf, u, rest, hwbuf, hu, -, -⟩ := hloop hlen
    rw [heq] at hu
    have hneg := ret_of_fails 0x7c0 ((behindRead_fails s 0x7c0 0).mpr hfails)
    rcases clipped_exhausted hneg (heq.symm.le.trans hle) with ⟨-, hlt⟩ | ⟨hover, -⟩
    · exact hlt
    · rw [← hashed_ret _ (s.delivered 0x7c0)] at hover
      rw [hashLoop_overread _ hwbuf hover] at hu
      cases hu
  · obtain ⟨wbuf, u, rest, hwbuf, hu, hrest, hhashes'⟩ := hloop hlen
    exact (loopDelivered_hashed _).mp
      (loopDelivered_of_run (hashSize_lt _) hwbuf hlt hu hrest hhashes')

end VitaConnect.Pbp

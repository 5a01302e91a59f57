import VitaConnect.Files.Progress

/-! # The maximum of the progress

A caller takes the maximum of the progress from `getPathInfo`. The counter reaches it exactly as long as no
path is cut, the counts have room in 32 bits and the copy does not write into its own source.
-/
namespace VitaConnect.Files
open CString Program Storage
set_option autoImplicit false

def removeMaximum (info : PathInfo) : UInt64 := info.folders.toUInt64 + info.files.toUInt64

def copyMaximum (info : PathInfo) : UInt64 :=
  info.size + info.folders.toUInt64 * UInt64.ofNat directorySize

/-- A counter that starts at 0 is not shown above `max`, and `max` is shown last. -/
def ShowsUpTo (param : FileProcessParam) (max : UInt64) (w w' : World) : Prop := w.value = 0 →
  (∃ more, w'.shown = w.shown ++ more ∧ ∀ s ∈ more, s.1 ≤ max) ∧
    (param.setProgress = true → max ≠ 0 → w'.shown.getLast? = some (max, param.max))

theorem Reported.showsUpTo {param : FileProcessParam} {amount : ℕ} {w w' : World}
    (h : Reported param amount w w') (hamount : amount < 2 ^ 64) :
    ShowsUpTo param (UInt64.ofNat amount) w w' := by
  intro hzero
  obtain ⟨more, hshown, hmore⟩ := h.shown
  refine ⟨⟨more, hshown, fun s hs => ?_⟩, fun hset hne => ?_⟩
  · obtain ⟨-, k, hk, hvalue⟩ := hmore s hs
    rw [hvalue, hzero, UInt64.zero_add]
    exact (UInt64.ofNat_le_iff_le (lt_of_le_of_lt hk hamount) hamount).mpr hk
  · have hpos : 0 < amount := by
      refine Nat.pos_of_ne_zero fun heq => hne ?_
      rw [heq]
      rfl
    rw [h.last hset hpos, h.value, hzero, UInt64.zero_add]

theorem toUInt64_ofNat {n : ℕ} (h : n < 2 ^ 32) : (UInt32.ofNat n).toUInt64 = UInt64.ofNat n := by
  have h64 : n < 2 ^ 64 := by omega
  refine UInt64.toNat.inj ?_
  rw [UInt32.toNat_toUInt64, UInt32.toNat_ofNat_of_lt' h, UInt64.toNat_ofNat_of_lt' h64]

/-- What `getPathInfo` finds at `p`. -/
def infoAt (d : Disk) (p : Loc) : PathInfo := PathInfo.plusTotals ⟨0, 0, 0⟩ d p

section Maximum
variable {d : Disk} {p : Loc} (hfolders : d.total isFolder p < 2 ^ 32)

include hfolders

theorem infoAt_folders : (infoAt d p).folders.toUInt64 = UInt64.ofNat (d.total isFolder p) := by
  rw [← toUInt64_ofNat hfolders]
  exact congrArg UInt32.toUInt64 (UInt32.zero_add _)

theorem removeMaximum_infoAt (hfiles : d.total isFile p < 2 ^ 32) :
    removeMaximum (infoAt d p) = UInt64.ofNat (d.total countEach p) := by
  have hcount : (infoAt d p).files.toUInt64 = UInt64.ofNat (d.total isFile p) := by
    rw [← toUInt64_ofNat hfiles]
    exact congrArg UInt32.toUInt64 (UInt32.zero_add _)
  have htotal : d.total countEach p = d.total isFolder p + d.total isFile p := total_one d p
  rw [removeMaximum, infoAt_folders hfolders, hcount, htotal, UInt64.ofNat_add]

theorem copyMaximum_infoAt : copyMaximum (infoAt d p) = UInt64.ofNat (d.total copyWeight p) := by
  have hsize : (infoAt d p).size = UInt64.ofNat (d.total fileSize p) := UInt64.zero_add _
  rw [copyMaximum, infoAt_folders hfolders, hsize, total_copy, UInt64.ofNat_add, UInt64.ofNat_mul]

end Maximum

/-- **The maximum is reached.** When no call fails and nothing is cancelled, `getPathInfo` returns 1. A
removal that returns 1 adds `folders + files` to the counter, and a copy that returns 1 adds
`size + folders * DIRECTORY_SIZE`; a maximum taken from them is reached and not exceeded. -/
theorem progress_maximum (d : Disk) (path : CStr) (hne : locate path ≠ [])
    (hexists : d.look (locate path) ≠ none) (hfits : Fits d path)
    (hfolders : d.total isFolder (locate path) < 2 ^ 32) (hfiles : d.total isFile (locate path) < 2 ^ 32) :
    ∃ info : PathInfo,
      (∀ env w, Calm env → w.disk = d → w.info = ⟨0, 0, 0⟩ →
        ∃ w', getPathInfo env none allPointers maxPathLength path w = .ok 1 w' ∧ w'.info = info) ∧
      (∀ env w (param : FileProcessParam), Calm env → w.disk = d → param.value = true →
        ∃ ret w', removePath env (some param) maxPathLength path w = .ok ret w' ∧
          (2 ≤ (locate path).length → 0 < ret) ∧
          (0 < ret → w'.value = w.value + removeMaximum info ∧ ShowsUpTo param (removeMaximum info) w w')) ∧
      ∀ env w (param : FileProcessParam) dstPath, Calm env → w.disk = d → param.value = true →
        Separate d.look (locate path) (locate dstPath) → FitsAs d (locate path) dstPath →
        ∃ ret w', copyPath env (some param) maxPathLength path dstPath w = .ok ret w' ∧
          (0 < ret → w'.value = w.value + copyMaximum info ∧
            (d.total copyWeight (locate path) < 2 ^ 64 → ShowsUpTo param (copyMaximum info) w w')) := by
  have hfuel : maxPathLength ≤ path.length + maxPathLength := Nat.le_add_left _ _
  have hpos : 0 < maxPathLength := by decide
  refine ⟨infoAt d (locate path), fun env w hcalm hdisk hinfo => ?_, fun env w param hcalm hdisk hvalue => ?_,
    fun env w param dstPath hcalm hdisk hvalue hsep hfits' => ?_⟩
  · subst hdisk
    obtain ⟨ret, w', hrun, rfl, -, hcounted⟩ :=
      (getPathInfo_ends hcalm maxPathLength rfl hne hexists hfits hfuel hpos).exists_ok
    exact ⟨w', hrun, by rw [hcounted, hinfo, infoAt]⟩
  · subst hdisk
    obtain ⟨ret, w', hrun, hlength, hreported⟩ := (removePath_reports hcalm hvalue maxPathLength rfl hne hexists
      (fun _ => rfl) hfits hfuel hpos).exists_ok
    rw [removeMaximum_infoAt hfolders hfiles]
    refine ⟨ret, w', hrun, hlength, fun hret => ⟨(hreported hret).value, (hreported hret).showsUpTo ?_⟩⟩
    have htotal : w.disk.total countEach (locate path) = _ := total_one w.disk (locate path)
    omega
  · subst hdisk
    have hends := copyPath_reports (r := []) hsep hvalue hcalm maxPathLength (List.append_nil _).symm
      (List.append_nil (locate dstPath)).symm (by rwa [List.append_nil]) (by rwa [List.append_nil])
      (fun _ => rfl) (by rwa [List.append_nil]) (by rwa [List.append_nil]) hfuel hpos
    obtain ⟨ret, w', hrun, -, hreported⟩ := hends.exists_ok
    rw [List.append_nil] at hreported
    rw [copyMaximum_infoAt hfolders]
    exact ⟨ret, w', hrun, fun hret => ⟨(hreported hret).value, (hreported hret).showsUpTo⟩⟩

theorem calm_calmEnv : Calm calmEnv where
  answers _ _ h := by cases h
  listed _ _ := List.Perm.refl _
  goesOn _ := rfl

theorem progress_maximum_small :
    ∃ info : PathInfo,
      (∃ w', getPathInfo calmEnv none allPointers maxPathLength (bytes "ux0:a") (World.start smallDisk) =
        .ok 1 w' ∧ w'.info = info) ∧
      ∃ ret w', copyPath calmEnv (some ⟨true, 0, true, false⟩) maxPathLength (bytes "ux0:a") (bytes "ux0:c")
          (World.start smallDisk) = .ok ret w' ∧
        (0 < ret → w'.value = copyMaximum info) := by
  have happart : Apart (locate (bytes "ux0:a")) (locate (bytes "ux0:c")) :=
    ⟨by decide +kernel, by decide +kernel⟩
  obtain ⟨info, hinfo, -, hcopy⟩ := progress_maximum smallDisk (bytes "ux0:a") (by decide +kernel)
    (by decide +kernel) (fitsAs_of_locs (by decide +kernel)) (by decide +kernel) (by decide +kernel)
  obtain ⟨ret, w', hrun, hreached⟩ := hcopy calmEnv (World.start smallDisk) ⟨true, 0, true, false⟩
    (bytes "ux0:c") calm_calmEnv rfl rfl (fun rel _ => happart.not_prefix_append rel)
    (fitsAs_of_locs (by decide +kernel))
  exact ⟨info, hinfo calmEnv (World.start smallDisk) calm_calmEnv rfl rfl, ret, w', hrun, fun hret =>
    (hreached hret).1.trans (UInt64.zero_add _)⟩

/-! ## Where the maximum is missed -/

def countingParam : FileProcessParam where
  value := true
  max := 0
  setProgress := true
  cancelHandler := false

/-- `getPathInfo` and the copy both return 1, and the counter is not at the maximum. -/
def CopyMisses (d : Disk) (path dstPath : CStr) : Prop :=
  ∃ w w', getPathInfo calmEnv none allPointers maxPathLength path (World.start d) = .ok 1 w ∧
    copyPath calmEnv (some countingParam) maxPathLength path dstPath (World.start d) = .ok 1 w' ∧
    w'.value ≠ copyMaximum w.info

def RemoveMisses (d : Disk) (path : CStr) : Prop :=
  ∃ ret w w', getPathInfo calmEnv none allPointers maxPathLength path (World.start d) = .ok 1 w ∧
    removePath calmEnv (some countingParam) maxPathLength path (World.start d) = .ok ret w' ∧ 0 < ret ∧
    w'.value ≠ removeMaximum w.info

theorem copyMisses_of {d : Disk} {path dstPath : CStr} {value max : UInt64} (hne : value ≠ max)
    (hinfo : Ends (fun _ => False) (fun ret w => ret = 1 ∧ copyMaximum w.info = max)
      (getPathInfo calmEnv none allPointers maxPathLength path (World.start d)))
    (hcopy : Ends (fun _ => False) (fun ret w => ret = 1 ∧ w.value = value)
      (copyPath calmEnv (some countingParam) maxPathLength path dstPath (World.start d))) :
    CopyMisses d path dstPath := by
  obtain ⟨-, w, hrun, rfl, hmax⟩ := hinfo.exists_ok
  obtain ⟨-, w', hrun', rfl, hvalue⟩ := hcopy.exists_ok
  exact ⟨w, w', hrun, hrun', by rwa [hvalue, hmax]⟩

/-- Nine directories, each in the one before. -/
def deepNames : List Name := List.replicate 9 ⟨List.replicate 112 97, by decide +kernel⟩

def deepPath : CStr := bytes "ux0:" ++ [slash].intercalate (deepNames.map Subtype.val)

def nameXy : Name := ⟨bytes "xy", by decide⟩

def nameXyz : Name := ⟨bytes "xyz", by decide⟩

/-- The path of the last directory leaves room for the path of `xy` only. -/
def deepDisk : Disk :=
  (((device :: deepNames).inits.foldl (fun d l => d.put l .dir) FileSystem.empty).put
    (device :: deepNames ++ [nameXy]) (.file [1])).put (device :: deepNames ++ [nameXyz]) (.file [1, 2, 3])

/-- The path of `xyz` is cut to that of `xy`, which is copied twice. -/
theorem copyPath_cut : CopyMisses deepDisk deepPath (bytes "ux0:c") := by
  have hne : (4098 : UInt64) ≠ 4100 := by decide
  refine copyMisses_of hne ?_ ?_
  · decide +kernel
  · decide +kernel

/-- Directories `a`, `a/b` and `a/b/b`, and files `a/b/a` and `a/b/b/a` of one and of three bytes. -/
def aboveDisk : Disk := (((((FileSystem.empty.put [device] .dir).put [device, nameA] .dir).put
  [device, nameA, nameB] .dir).put [device, nameA, nameB, nameA] (.file [1])).put
  [device, nameA, nameB, nameB] .dir).put [device, nameA, nameB, nameB, nameA] (.file [1, 2, 3])

/-- The copy of `a/b/b` takes the place of `a/b/a` before that is copied itself. -/
theorem copyPath_above : CopyMisses aboveDisk (bytes "ux0:a/b") (bytes "ux0:a") := by
  have hne : (8198 : UInt64) ≠ 8196 := by decide
  refine copyMisses_of hne ?_ ?_
  · decide +kernel
  · decide +kernel

/-- The maximum is missed when a path is cut, and when a copy writes into its own source. -/
theorem progress_maximum_missed :
    (Apart (locate deepPath) (locate (bytes "ux0:c")) ∧ CopyMisses deepDisk deepPath (bytes "ux0:c")) ∧
    ¬ locate (bytes "ux0:a/b") <+: locate (bytes "ux0:a") ∧
      CopyMisses aboveDisk (bytes "ux0:a/b") (bytes "ux0:a") :=
  ⟨⟨⟨by decide +kernel, by decide +kernel⟩, copyPath_cut⟩, by decide +kernel, copyPath_above⟩

/-! ## More than `folders` and `files` have room for -/

def bitByte (i k : ℕ) : Byte := if i.testBit k then 98 else 97

theorem bitByte_cases (i k : ℕ) : bitByte i k = 98 ∨ bitByte i k = 97 := by
  unfold bitByte
  split
  · exact Or.inl rfl
  · exact Or.inr rfl

theorem isName_bits (i : ℕ) : IsName ((List.range 64).map (bitByte i)) where
  ne_nil := by simp
  slash_notMem h := by
    obtain ⟨k, -, hk⟩ := List.mem_map.mp h
    rcases bitByte_cases i k with h | h <;> exact absurd (h.symm.trans hk) (by decide)
  colon_notMem h := by
    obtain ⟨k, -, hk⟩ := List.mem_map.mp h
    rcases bitByte_cases i k with h | h <;> exact absurd (h.symm.trans hk) (by decide)
  lowered := by
    rw [lowered, List.map_map]
    refine List.map_congr_left fun k _ => ?_
    rw [Function.comp_apply]
    rcases bitByte_cases i k with h | h <;> rw [h] <;> decide

/-- The lowest 64 bits of a number, as a name. -/
def bitName (i : ℕ) : Name := ⟨(List.range 64).map (bitByte i), isName_bits i⟩

theorem length_bitName (i : ℕ) : (bitName i).1.length = 64 := by
  rw [bitName, List.length_map, List.length_range]

theorem bitName_inj {i j : ℕ} (hi : i < 2 ^ 64) (hj : j < 2 ^ 64) (h : bitName i = bitName j) : i = j := by
  refine Nat.eq_of_testBit_eq fun k => ?_
  by_cases hk : k < 64
  · have hbits : bitByte i k = bitByte j k :=
      List.map_inj_left.mp (Subtype.mk.inj h) k (List.mem_range.mpr hk)
    unfold bitByte at hbits
    cases hik : i.testBit k <;> cases hjk : j.testBit k
    · rfl
    · rw [hik, hjk] at hbits
      exact absurd hbits (by decide)
    · rw [hik, hjk] at hbits
      exact absurd hbits (by decide)
    · rfl
  · have hpow : 2 ^ 64 ≤ 2 ^ k := Nat.pow_le_pow_right (by decide) (not_lt.mp hk)
    rw [Nat.testBit_lt_two_pow (hi.trans_le hpow), Nat.testBit_lt_two_pow (hj.trans_le hpow)]

def bitNames (n : ℕ) : List Name := (List.range n).map bitName

theorem nodup_bitNames {n : ℕ} (hn : n ≤ 2 ^ 64) : (bitNames n).Nodup := by
  refine List.Nodup.map_on (fun i hi j hj h => ?_) List.nodup_range
  rw [List.mem_range] at hi hj
  exact bitName_inj (by omega) (by omega) h

/-- The directory at `p` and those above it, and empty files in it. -/
def flatDisk (p : Loc) (names : List Name) : Disk where
  look l := if l <+: p then some .dir else if l ∈ names.map (p ++ [·]) then some (.file []) else none
  locs := p.inits ++ names.map (p ++ [·])
  look_nil := if_pos List.nil_prefix
  mem_locs l h := by
    by_cases hdir : l <+: p
    · exact List.mem_append_left _ ((List.mem_inits l p).mpr hdir)
    · by_cases hfile : l ∈ names.map (p ++ [·])
      · exact List.mem_append_right _ hfile
      · rw [if_neg hdir, if_neg hfile] at h
        exact absurd rfl h
  closed l n h := by
    refine if_pos ?_
    by_cases hdir : l ++ [n] <+: p
    · exact (List.prefix_append l [n]).trans hdir
    · by_cases hfile : l ++ [n] ∈ names.map (p ++ [·])
      · obtain ⟨m, -, heq⟩ := List.mem_map.mp hfile
        obtain ⟨rfl, -⟩ := List.append_inj' heq rfl
        exact List.prefix_refl p
      · rw [if_neg hdir, if_neg hfile] at h
        exact absurd rfl h

section Flat
variable {p : Loc} {names : List Name}

theorem flatDisk_below {rel : Loc} (h : (flatDisk p names).look (p ++ rel) ≠ none) :
    rel = [] ∨ ∃ n ∈ names, rel = [n] := by
  by_cases hdir : p ++ rel <+: p
  · have hle := hdir.length_le
    rw [List.length_append] at hle
    exact Or.inl (List.eq_nil_of_length_eq_zero (by omega))
  · by_cases hfile : p ++ rel ∈ names.map (p ++ [·])
    · obtain ⟨n, hn, heq⟩ := List.mem_map.mp hfile
      exact Or.inr ⟨n, hn, (List.append_cancel_left heq).symm⟩
    · exact absurd ((if_neg hdir).trans (if_neg hfile)) h

theorem flatDisk_dir : (flatDisk p names).look p = some .dir := if_pos (List.prefix_refl p)

theorem flatDisk_file {n : Name} (hn : n ∈ names) : (flatDisk p names).look (p ++ [n]) = some (.file []) := by
  have hdir : ¬ p ++ [n] <+: p := fun h => by
    have hle := h.length_le
    rw [List.length_append, List.length_singleton] at hle
    omega
  exact (if_neg hdir).trans (if_pos (List.mem_map.mpr ⟨n, hn, rfl⟩))

theorem total_flatDisk (hnodup : names.Nodup) (weight : Entry (List Byte) → ℕ) :
    (flatDisk p names).total weight p = weight .dir + names.length * weight (.file []) := by
  have hchildren : ((flatDisk p names).children p).Perm names := by
    refine (List.perm_ext_iff_of_nodup (FileSystem.nodup_children _ _) hnodup).mpr fun n => ?_
    rw [FileSystem.mem_children]
    constructor
    · intro h
      obtain hnil | ⟨m, hm, heq⟩ := flatDisk_below h
      · exact absurd hnil (List.cons_ne_nil n [])
      · rwa [(List.cons.inj heq).1]
    · intro hn
      rw [flatDisk_file hn]
      exact Option.some_ne_none _
  have hfile : ∀ n ∈ names, (flatDisk p names).total weight (p ++ [n]) = weight (.file []) := fun n hn =>
    FileSystem.total_file weight (flatDisk_file hn)
  rw [FileSystem.total_entry weight flatDisk_dir, (hchildren.map _).sum_eq, List.map_congr_left hfile,
    List.map_const', List.sum_replicate, smul_eq_mul]

end Flat

/-- The directory `ux0:a` with `n` files. -/
def manyFiles (n : ℕ) : Disk := flatDisk [device, nameA] (bitNames n)

theorem manyFiles_fits (n : ℕ) : FitsAs (manyFiles n) [device, nameA] (bytes "ux0:a") := by
  intro rel hrel
  obtain rfl | ⟨name, hname, rfl⟩ := flatDisk_below hrel
  · decide
  · obtain ⟨i, -, rfl⟩ := List.mem_map.mp hname
    show (joined (bytes "ux0:a") (bitName i).1).length < maxPathLength
    rw [joined, List.length_append, length_bitName]
    decide

theorem total_manyFiles {n : ℕ} (hn : n ≤ 2 ^ 64) (weight : Entry (List Byte) → ℕ) :
    (manyFiles n).total weight [device, nameA] = weight .dir + n * weight (.file []) := by
  have hlength : (bitNames n).length = n := by rw [bitNames, List.length_map, List.length_range]
  rw [manyFiles, total_flatDisk (nodup_bitNames hn), hlength]

theorem ofNat_ne_counted {n : ℕ} (hmin : 2 ^ 32 ≤ n) (hmax : n + 1 < 2 ^ 64) :
    UInt64.ofNat (1 + n) ≠ 1 + (UInt32.ofNat n).toUInt64 := by
  intro h
  have hnat := congrArg UInt64.toNat h
  have hone : (1 : UInt64).toNat = 1 := rfl
  have hcount : (UInt32.ofNat n).toUInt64.toNat = n % 2 ^ 32 := by
    rw [UInt32.toNat_toUInt64, UInt32.toNat_ofNat']
  rw [UInt64.toNat_ofNat', UInt64.toNat_add, hcount, hone] at hnat
  omega

/-- The bound on the count is needed: from `2 ^ 32` files in a directory on the maximum is missed. -/
theorem removePath_many {n : ℕ} (hmin : 2 ^ 32 ≤ n) (hmax : n + 1 < 2 ^ 64) :
    RemoveMisses (manyFiles n) (bytes "ux0:a") := by
  have hn : n ≤ 2 ^ 64 := by omega
  have hpath : locate (bytes "ux0:a") = [device, nameA] := by decide +kernel
  have hexists : (manyFiles n).look [device, nameA] ≠ none := by
    rw [manyFiles, flatDisk_dir]
    exact Option.some_ne_none _
  obtain ⟨ret, w, hrun, rfl, -, hinfo⟩ := (getPathInfo_ends calm_calmEnv maxPathLength
    (w := World.start (manyFiles n)) hpath (List.cons_ne_nil _ _) hexists (manyFiles_fits n)
    (Nat.le_add_left _ _) (by decide)).exists_ok
  obtain ⟨ret, w', hrun', hlength, hreported⟩ := (removePath_reports calm_calmEnv
    (show countingParam.value = true from rfl) maxPathLength (w := World.start (manyFiles n)) hpath
    (List.cons_ne_nil _ _) hexists (fun _ => rfl) (manyFiles_fits n) (Nat.le_add_left _ _) (by decide)).exists_ok
  have hret := hlength (le_refl 2)
  refine ⟨ret, w, w', hrun, hrun', hret, ?_⟩
  have hvalue : w'.value = UInt64.ofNat (1 + n) := by
    rw [(hreported hret).value, total_manyFiles hn]
    show 0 + UInt64.ofNat (1 + n * 1) = _
    rw [UInt64.zero_add, Nat.mul_one]
  have hmaximum : removeMaximum w.info = 1 + (UInt32.ofNat n).toUInt64 := by
    rw [hinfo]
    show ((0 : UInt32) + UInt32.ofNat ((manyFiles n).total isFolder [device, nameA])).toUInt64 +
      ((0 : UInt32) + UInt32.ofNat ((manyFiles n).total isFile [device, nameA])).toUInt64 = _
    rw [total_manyFiles hn, total_manyFiles hn, UInt32.zero_add, UInt32.zero_add]
    show (UInt32.ofNat (1 + n * 0)).toUInt64 + (UInt32.ofNat (0 + n * 1)).toUInt64 = _
    rw [Nat.mul_zero, Nat.mul_one, Nat.zero_add]
    rfl
  rw [hvalue, hmaximum]
  exact ofNat_ne_counted hmin hmax

end VitaConnect.Files

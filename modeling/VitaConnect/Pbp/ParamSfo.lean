import VitaConnect.Pbp.ReadFailures

/-! # The param.sfo of a file read whole

`icon0_png_ptr - param_sfo_ptr` is taken modulo `2 ^ 32` as an `int`, and the bytes are looked for
wherever `param_sfo_ptr` says: `ParamSfo` is when they are there.
-/
namespace VitaConnect.Pbp
open CString Program
set_option autoImplicit false

/-- The header is complete, gives a positive size, and `xs` are all the bytes of that size. -/
def ParamSfo (content : List Byte) (n : ℤ) (xs : List Byte) : Prop :=
  ∃ header, slice? content 0 40 = some header ∧ n = sfoSize header ∧ 0 < n ∧
    slice? content (paramSfoPtr header) n.toNat = some xs

/-- What `get_pbp_sfo` returns and leaves in `*param_sfo_buffer`. -/
def sfoOf (content : List Byte) : ℤ × Option (List Byte) :=
  match slice? content 0 40 with
  | none => (0, none)
  | some header =>
    if sfoSize header ≤ 0 then (0, none)
    else match slice? content (paramSfoPtr header) (sfoSize header).toNat with
      | none => (0, none)
      | some xs => (sfoSize header, some xs)

theorem sfoOf_of_paramSfo {content xs : List Byte} {n : ℤ} (h : ParamSfo content n xs) :
    sfoOf content = (n, some xs) := by
  obtain ⟨header, hheader, rfl, hpos, hxs⟩ := h
  simp [sfoOf, hheader, not_le.mpr hpos, hxs]

theorem sfoOf_cases (content : List Byte) :
    (∃ n xs, ParamSfo content n xs) ∨ sfoOf content = (0, none) := by
  unfold sfoOf ParamSfo
  cases hheader : slice? content 0 40 with
  | none => simp
  | some header =>
    by_cases hsize : sfoSize header ≤ 0
    · simp [hsize]
    · cases hxs : slice? content (paramSfoPtr header) (sfoSize header).toNat with
      | none => simp [hsize, hxs]
      | some xs => exact .inl ⟨sfoSize header, xs, header, rfl, rfl, by omega, hxs⟩

section Whole
variable {s : Reading} {heap : ℕ → Byte} {header : List Byte}

/-- The end of `read_sfo`: a file that ends before the param.sfo does is refused. -/
theorem sfoBody_whole (h : s.Whole) (hmalloc : s.malloc = some heap) (hsize : ¬ sfoSize header ≤ 0) :
    ∃ t, sfoBody header s
      = .ok (match slice? s.content (paramSfoPtr header) (sfoSize header).toNat with
        | none => (0, none)
        | some xs => (sfoSize header, some xs)) t := by
  set buffer := (List.range (sfoSize header).toNat).map heap with hbuffer
  have hlength : buffer.length = (sfoSize header).toNat := by simp [hbuffer]
  set u := s.behindMalloc (sfoSize header).toNat with hu
  set v := u.behindSeek (paramSfoPtr header) with hv
  have hwhole : v.Whole := h
  have hpos : v.pos = paramSfoPtr header := behindSeek_pos u _
  have hcontent : v.content = s.content := rfl
  have hdelivered : v.delivered buffer.length
      = (s.content.drop (paramSfoPtr header)).take (sfoSize header).toNat := by
    rw [hwhole.delivered, hpos, hcontent, hlength]
  have hbody : sfoBody header s
      = .ok (if v.ret buffer.length < sfoSize header then (0, none)
          else (sfoSize header, some (overwrite buffer (v.delivered buffer.length))))
        (v.behindRead buffer.length) := by
    rw [sfoBody, if_neg hsize, malloc_bind, hmalloc]
    show (sceIoLseek (paramSfoPtr header) >>= _) u = _
    rw [sceIoLseek_bind, bind_apply, readInto_apply]
    dsimp only
    rw [ite_run]
    split <;> rfl
  refine ⟨v.behindRead buffer.length, ?_⟩
  rw [hbody, hwhole.ret]
  cases hxs : slice? s.content (paramSfoPtr header) (sfoSize header).toNat with
  | none =>
    have hshort := slice?_eq_none_iff.mp hxs
    have hlt : ((v.delivered buffer.length).length : ℤ) < sfoSize header := by
      rw [hdelivered, List.length_take, List.length_drop]
      omega
    rw [if_pos hlt]
  | some xs =>
    have hlen := slice?_length hxs
    obtain ⟨htake, -⟩ := slice?_eq_some_iff.mp hxs
    rw [htake] at hdelivered
    rw [hdelivered, overwrite_of_complete (by rw [hlen, hlength]), if_neg (by omega)]

theorem readSfo_whole (mem : Stack) (h : s.Whole) (hpos : s.pos = 0) (hmalloc : s.malloc = some heap) :
    ∃ t, readSfo mem s = .ok (sfoOf s.content) t := by
  have hdelivered : s.delivered 40 = s.content.take 40 := by
    rw [h.delivered, hpos, List.drop_zero]
  have hfails : ¬ s.Fails 0 := by
    rintro ⟨code, hcode⟩
    rw [h 0] at hcode
    cases hcode
  unfold sfoOf
  cases hheader : slice? s.content 0 40 with
  | none =>
    have hshort := slice?_eq_none_iff.mp hheader
    refine ⟨s.behindRead 40, readSfo_short hfails ?_⟩
    rw [hdelivered, List.length_take]
    omega
  | some header =>
    have hlength := slice?_length hheader
    obtain ⟨htake, -⟩ := slice?_eq_some_iff.mp hheader
    rw [List.drop_zero] at htake
    rw [htake] at hdelivered
    have hcomplete : (s.delivered 40).length = 40 := by rw [hdelivered, hlength]
    have hrun : readSfo mem s = sfoBody header (s.behindRead 40) := by
      refine readSfo_header (not_short_of_complete (by decide) hcomplete) ?_
      rw [header_complete hcomplete mem, hdelivered]
    rw [hrun]
    by_cases hsize : sfoSize header ≤ 0
    · exact ⟨s.behindRead 40, by rw [sfoBody, if_pos hsize]; simp [hsize]; rfl⟩
    · have hbehind : (s.behindRead 40).Whole := fun i => h (i + 1)
      obtain ⟨t, ht⟩ := sfoBody_whole hbehind hmalloc hsize
      exact ⟨t, by rw [ht]; simp [hsize]; rfl⟩

end Whole

/-- **`get_pbp_sfo` on a file read whole.** It returns a size exactly when the file opens and has the whole
param.sfo, with these bytes in the buffer; otherwise it returns 0 and leaves no buffer. -/
theorem getPbpSfo_exact (mem : Stack) (path : CStr) (s : Reading) (h : s.Whole) (hmalloc : s.malloc.isSome) :
    ∃ n buffer t, getPbpSfo mem (some path) s = .ok (n, buffer) t ∧
      (∀ m > 0, n = m ↔ ∃ content xs, s.file = some content ∧ ParamSfo content m xs) ∧
      (∀ content xs, s.file = some content → ParamSfo content n xs → buffer = some xs) ∧
      (n ≤ 0 → n = 0 ∧ buffer = none) := by
  obtain ⟨heap, hheap⟩ := Option.isSome_iff_exists.mp hmalloc
  have hopened : Reading.Whole { s with pos := 0 } := h
  obtain ⟨t, ht⟩ := readSfo_whole mem hopened rfl hheap
  by_cases hopen : s.sceIoOpen < 0
  · refine ⟨0, none, { s with pos := 0 }, ?_, fun m hm => ?_, fun content xs hfile => ?_, fun _ => ⟨rfl, rfl⟩⟩
    · rw [getPbpSfo, openPbp_bind, if_pos hopen]
      rfl
    · simp only [Reading.file, if_pos hopen, reduceCtorEq, false_and, exists_false, iff_false]
      omega
    · rw [Reading.file, if_pos hopen] at hfile
      cases hfile
  have hfile : s.file = some s.content := if_neg hopen
  have hrun : getPbpSfo mem (some path) s = .ok (sfoOf s.content) t := by
    rw [getPbpSfo, openPbp_bind, if_neg hopen, ht]
  refine ⟨(sfoOf s.content).1, (sfoOf s.content).2, t, hrun, fun m hm => ?_, fun content xs hcontent hxs => ?_,
    fun hle => ?_⟩
  · constructor
    · intro heq
      rcases sfoOf_cases s.content with ⟨n, xs, hsfo⟩ | hnone
      · rw [sfoOf_of_paramSfo hsfo] at heq
        obtain rfl : n = m := heq
        exact ⟨s.content, xs, hfile, hsfo⟩
      · rw [hnone] at heq
        exact absurd heq hm.ne
    · rintro ⟨content, xs, hcontent, hsfo⟩
      obtain rfl : s.content = content := Option.some.inj (hfile.symm.trans hcontent)
      rw [sfoOf_of_paramSfo hsfo]
  · obtain rfl : s.content = content := Option.some.inj (hfile.symm.trans hcontent)
    rw [sfoOf_of_paramSfo hxs]
  · rcases sfoOf_cases s.content with ⟨n, xs, hsfo⟩ | hnone
    · rw [sfoOf_of_paramSfo hsfo] at hle
      obtain ⟨_, _, _, hpos, _⟩ := hsfo
      exact absurd hpos (not_lt.mpr hle)
    · rw [hnone]
      exact ⟨rfl, rfl⟩

/-- A file whose param.sfo are its last three bytes. -/
def threeByteSfo : Reading :=
  { wholeFile (List.replicate 8 0 ++ leBytes 4 40 ++ leBytes 4 43 ++ List.replicate 24 0 ++ bytes "sfo") with
    malloc := some fun _ => 0 }

theorem getPbpSfo_exact_three :
    ∃ t, getPbpSfo (fun _ _ => 0) (some []) threeByteSfo = .ok (3, some (bytes "sfo")) t := by
  have hsfo : ParamSfo threeByteSfo.content 3 (bytes "sfo") := ⟨_, rfl, by decide⟩
  obtain ⟨n, buffer, t, hrun, hsize, hbuffer, -⟩ :=
    getPbpSfo_exact (fun _ _ => 0) [] threeByteSfo (fun _ => rfl) rfl
  obtain rfl : n = 3 := (hsize 3 (by decide)).mpr ⟨_, _, rfl, hsfo⟩
  obtain rfl := hbuffer _ _ rfl hsfo
  exact ⟨t, hrun⟩

end VitaConnect.Pbp

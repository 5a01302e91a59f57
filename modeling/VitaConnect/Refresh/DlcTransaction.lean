import VitaConnect.Refresh.DlcPlaces

/-! # No DLC is lost, and each string is freed once

The strings of `dlc_data.list` are the paths of the directories that were listed, and what the outer
callback cuts out of them behind `len` are the names. Each loop is run entry by entry: the entry's own
directory moves on, the other ones stay, and a string is freed when its entry is done.
-/
namespace VitaConnect.Refresh
open CString Program Storage
set_option autoImplicit false

/-! ## The strings -/

structure PlainName (name : CStr) : Prop where
  isName : IsName name
  length_le : name.length ≤ 255

def titlePath (title : CStr) : CStr := joined addcont title

def dlcText (title name : CStr) : CStr := joined (titlePath title) name

theorem names_joined (a b : CStr) : names (joined a b) = names a ++ names b := by
  rw [names, joined, List.splitOn_append_cons_self, List.filter_append, names, names]

theorem pathOf_ux0 (path : CStr) : pathOf (ux0 ++ path) = ux0 :: names path := by
  have hcolon : strchr (ux0 ++ path) colon = some 3 := rfl
  rw [pathOf, hcolon]
  rfl

theorem dlcText_length {title name : CStr} (htitle : PlainName title) (hname : PlainName name) :
    (dlcText title name).length < maxPathLength := by
  have haddcont : addcont.length = 11 := rfl
  have htitleLength := htitle.length_le
  have hnameLength := hname.length_le
  simp only [dlcText, titlePath, joined, List.length_append, List.length_cons, maxPathLength]
  omega

theorem pathOf_dlcText {title name : CStr} (htitle : PlainName title) (hname : PlainName name) :
    pathOf (dlcText title name) = dlcHome title name := by
  have hnames : names (joined (joined (bytes "addcont") title) name)
      = [bytes "addcont", title, name] := by
    rw [names_joined, names_joined, names_of_isName htitle.isName, names_of_isName hname.isName]
    rfl
  have htext : dlcText title name = ux0 ++ joined (joined (bytes "addcont") title) name := rfl
  rw [htext, pathOf_ux0, hnames, dlcHome]

theorem drop_dlcText (title name : CStr) :
    (dlcText title name).drop ((titlePath title).length + 1) = name := by
  rw [dlcText, joined, List.append_cons, List.drop_left']
  simp

theorem pathOf_dlcTempPath {title name : CStr} (hname : PlainName name) :
    pathOf (dlcTempPath (titlePath title).length (dlcText title name)) = dlcAway name := by
  have hlength : (joined dlcTemp name).length < maxPathLength := by
    have htemp : dlcTemp.length = 16 := rfl
    have hnameLength := hname.length_le
    simp only [joined, List.length_append, List.length_cons, maxPathLength]
    omega
  have hnames : names (joined (bytes "temp/addcont") name)
      = [bytes "temp", bytes "addcont", name] := by
    rw [names_joined, names_of_isName hname.isName]
    rfl
  have htext : joined dlcTemp name = ux0 ++ joined (bytes "temp/addcont") name := rfl
  rw [dlcTempPath, drop_dlcText, snprintf_of_fits hlength, htext, pathOf_ux0, hnames, dlcAway]

theorem dlcText_injective (title : CStr) : Function.Injective (dlcText title) := by
  intro name name' h
  have hdrop := congrArg (List.drop ((titlePath title).length + 1)) h
  rwa [drop_dlcText, drop_dlcText] at hdrop

/-! ## The heap -/

/-- Behind `heap` comes `heap'`, in which the strings `ks` are freed and nothing else is. -/
structure Frees (ks : List ℕ) (heap heap' : List HeapEvent) : Prop where
  sound : heapLedger.Sound heap'
  net : ∀ k, heapLedger.net k heap' = if k ∈ ks then 0 else heapLedger.net k heap
  strdups : ∀ k, heap'.count (.strdup k) = heap.count (.strdup k)

section Heap
variable {heap heap' heap'' : List HeapEvent} {k : ℕ} {ks ls : List ℕ}

theorem frees_nil (h : heapLedger.Sound heap) : Frees [] heap heap :=
  ⟨h, fun _ => by simp, fun _ => rfl⟩

theorem Frees.trans (h : Frees ks heap heap') (h' : Frees ls heap' heap'') :
    Frees (ks ++ ls) heap heap'' := by
  refine ⟨h'.sound, fun k => ?_, fun k => (h'.strdups k).trans (h.strdups k)⟩
  rw [h'.net, h.net]
  by_cases hl : k ∈ ls
  · rw [if_pos hl, if_pos (List.mem_append_right _ hl)]
  · by_cases hk : k ∈ ks
    · rw [if_neg hl, if_pos hk, if_pos (List.mem_append_left _ hk)]
    · rw [if_neg hl, if_neg hk, if_neg (by simp [hk, hl])]

theorem frees_read (h : heapLedger.Sound heap) (hk : heapLedger.net k heap = 1) :
    Frees [] heap (heap ++ [.read k]) := by
  refine ⟨h.snoc ⟨nofun, nofun, ?_⟩, fun j => ?_, fun j => by simp⟩
  · rintro j ⟨⟩
    exact hk
  · rw [Ledger.net_snoc, Ledger.change]
    simp [heapLedger]

theorem frees_free (h : heapLedger.Sound heap) (hk : heapLedger.net k heap = 1) :
    Frees [k] heap (heap ++ [.free k]) := by
  refine ⟨h.snoc ⟨nofun, ?_, nofun⟩, fun j => ?_, fun j => by simp⟩
  · rintro j ⟨⟩
    exact hk
  · rw [Ledger.net_snoc, Ledger.change]
    by_cases hj : j = k
    · subst hj
      rw [hk]
      simp [heapLedger]
    · have hne : k ≠ j := Ne.symm hj
      simp [heapLedger, hj, hne]

theorem Frees.net_other (h : Frees ks heap heap') (hk : k ∉ ks) :
    heapLedger.net k heap' = heapLedger.net k heap := by
  rw [h.net, if_neg hk]

theorem strdups_sound (n : ℕ) :
    heapLedger.Sound ((List.range n).map .strdup) ∧
      ∀ k, heapLedger.net k ((List.range n).map .strdup) = if k < n then 1 else 0 := by
  induction n with
  | zero => exact ⟨Ledger.sound_nil, fun _ => rfl⟩
  | succ n ih =>
    obtain ⟨hsound, hnet⟩ := ih
    rw [List.range_succ, List.map_append, List.map_singleton]
    refine ⟨hsound.snoc ⟨?_, nofun, nofun⟩, fun k => ?_⟩
    · rintro k ⟨⟩
      rw [hnet, if_neg (lt_irrefl n)]
    · rw [Ledger.net_snoc, Ledger.change, hnet]
      rcases lt_trichotomy k n with hlt | rfl | hgt
      · have hne : n ≠ k := hlt.ne'
        simp [heapLedger, hlt, hlt.trans (Nat.lt_succ_self n), hne]
      · simp [heapLedger]
      · have hne : n ≠ k := hgt.ne
        simp [heapLedger, hgt.not_gt, hne, show ¬ k < n + 1 by omega]

end Heap

/-! ## The first loop -/

theorem readString_apply (str : DlcString) (s : DlcRun) :
    readString str s = .ok str.text { s with heap := s.heap ++ [.read str.ptr] } := rfl

theorem onHeap_apply (e : HeapEvent) (s : DlcRun) :
    onHeap e s = .ok ⟨⟩ { s with heap := s.heap ++ [e] } := rfl

section Loops
variable {title : CStr} {str : DlcString} {s : DlcRun}

theorem moveDlc_needed {m : CStr} (htitle : PlainName title) (hm : PlainName m)
    (htext : str.text = dlcText title m) (hneeded : str.answers.refreshNeeded = true) :
    moveDlc (titlePath title).length str s
      = .ok (some str) { s with
          pass := movedAway str.answers title m s.pass
          heap := s.heap ++ [.read str.ptr] ++ [.read str.ptr] ++ [.read str.ptr] } := by
  simp only [moveDlc, bind_apply, readString_apply, hneeded, if_true, htext, pathOf_dlcText htitle hm,
    pathOf_dlcTempPath hm, inPass, removePath_apply, sceIoRename_apply, pure_apply]
  rfl

theorem moveDlc_current (hcurrent : str.answers.refreshNeeded = false) (len : ℕ) :
    moveDlc len str s
      = .ok none { s with heap := s.heap ++ [.read str.ptr] ++ [.free str.ptr] } := by
  simp only [moveDlc, bind_apply, readString_apply, hcurrent, Bool.false_eq_true, if_false,
    onHeap_apply, pure_apply]

/-- The strings that an entry keeps. -/
def kept (entries : List (Option DlcString)) : List DlcString := entries.filterMap id

@[simp] theorem kept_nil : kept [] = [] := rfl

@[simp] theorem kept_cons (entry : Option DlcString) (entries : List (Option DlcString)) :
    kept (entry :: entries) = entry.toList ++ kept entries := by
  cases entry <;> rfl

/-- The first loop frees the strings that it does not keep. -/
structure Moves (title : CStr) (strs : List DlcString) (s t : DlcRun)
    (entries : List (Option DlcString)) : Prop where
  kept_mem : ∀ str ∈ kept entries, str ∈ strs
  frees : ∃ freed, Frees freed s.heap t.heap ∧
    (freed ++ (kept entries).map (·.ptr)).Perm (strs.map (·.ptr))
  other : ∀ before name place, dlcText title name ∉ strs.map (·.text) →
    Kept before title name s.pass.world place → Kept before title name t.pass.world place
  own : ∀ before name, Kept before title name s.pass.world .home →
    ∃ place, Kept before title name t.pass.world place

/-- The string of the list whose text is the path of a name. -/
def IsDlc (title : CStr) (str : DlcString) : Prop := ∃ m, PlainName m ∧ str.text = dlcText title m

theorem moveDlc_moves (htitle : PlainName title) (hstr : IsDlc title str)
    (hsound : heapLedger.Sound s.heap) (hlive : heapLedger.net str.ptr s.heap = 1) :
    ∃ entry t, moveDlc (titlePath title).length str s = .ok entry t ∧
      Moves title [str] s t [entry] := by
  obtain ⟨m, hm, htext⟩ := hstr
  cases hneeded : str.answers.refreshNeeded with
  | true =>
    refine ⟨_, _, moveDlc_needed htitle hm htext hneeded, by simp, ⟨[], ?_, by simp⟩, ?_, ?_⟩
    · have hfirst := frees_read hsound hlive
      have hsecond := frees_read hfirst.sound ((hfirst.net_other nofun).trans hlive)
      have hboth := hfirst.trans hsecond
      exact hboth.trans (frees_read hboth.sound ((hboth.net_other nofun).trans hlive))
    · intro before name place hname hkept
      apply movedAway_other hkept
      rintro rfl
      exact hname (by simp [htext])
    · intro before name hhome
      by_cases hname : m = name
      · subst hname
        exact movedAway_own hhome
      · exact ⟨.home, movedAway_other hhome hname⟩
  | false =>
    refine ⟨_, _, moveDlc_current hneeded _, by simp, ⟨[str.ptr], ?_, by simp⟩, ?_, ?_⟩
    · have hread := frees_read hsound hlive
      exact hread.trans (frees_free hread.sound ((hread.net_other nofun).trans hlive))
    · exact fun _ _ _ _ hkept => hkept
    · exact fun _ _ hhome => ⟨.home, hhome⟩

theorem moveAll_moves (htitle : PlainName title) (strs : List DlcString)
    (hstrs : ∀ str ∈ strs, IsDlc title str) (htexts : (strs.map (·.text)).Nodup)
    (hptrs : (strs.map (·.ptr)).Nodup) (hsound : heapLedger.Sound s.heap)
    (hlive : ∀ str ∈ strs, heapLedger.net str.ptr s.heap = 1) :
    ∃ entries t, moveAll (titlePath title).length strs s = .ok entries t ∧
      Moves title strs s t entries := by
  induction strs generalizing s with
  | nil =>
    exact ⟨[], s, rfl, by simp, ⟨[], frees_nil hsound, by simp⟩, fun _ _ _ _ h => h,
      fun _ _ h => ⟨.home, h⟩⟩
  | cons str rest ih =>
    rw [List.forall_mem_cons] at hstrs hlive
    rw [List.map_cons, List.nodup_cons] at htexts hptrs
    obtain ⟨entry, u, hmove, hfirst⟩ := moveDlc_moves htitle hstrs.1 hsound hlive.1
    obtain ⟨freed, hfrees, hperm⟩ := hfirst.frees
    have hrest : ∀ str' ∈ rest, heapLedger.net str'.ptr u.heap = 1 := by
      intro str' hstr'
      rw [hfrees.net_other, hlive.2 str' hstr']
      intro hmem
      have hptr : str'.ptr = str.ptr := by
        simpa using hperm.subset (List.mem_append_left _ hmem)
      exact hptrs.1 (hptr ▸ List.mem_map_of_mem hstr')
    obtain ⟨entries, t, hall, hlater⟩ := ih hstrs.2 htexts.2 hptrs.2 hfrees.sound hrest
    obtain ⟨freed', hfrees', hperm'⟩ := hlater.frees
    refine ⟨entry :: entries, t, ?_, ?_, ⟨freed ++ freed', hfrees.trans hfrees', ?_⟩, ?_, ?_⟩
    · simp only [moveAll, bind_apply, hmove, hall, pure_apply]
    · intro str' hstr'
      rw [kept_cons, List.mem_append] at hstr'
      rcases hstr' with hstr' | hstr'
      · have hmem := hfirst.kept_mem str' (by simpa using hstr')
        exact List.mem_singleton.mp hmem ▸ List.mem_cons_self
      · exact List.mem_cons_of_mem str (hlater.kept_mem str' hstr')
    · have hboth := hperm.append hperm'
      rw [kept_cons, List.map_append, List.map_cons]
      simp only [kept_cons, kept_nil, List.append_nil] at hboth
      refine List.Perm.trans ?_ hboth
      rw [List.append_assoc, List.append_assoc]
      apply List.Perm.append_left
      rw [← List.append_assoc, ← List.append_assoc]
      exact List.perm_append_comm.append_right _
    · intro before name place hname hkept
      rw [List.map_cons, List.mem_cons, not_or] at hname
      exact hlater.other before name place hname.2
        (hfirst.other before name place (by simpa using hname.1) hkept)
    · intro before name hhome
      by_cases hname : dlcText title name = str.text
      · obtain ⟨place, hplace⟩ := hfirst.own before name hhome
        exact ⟨place, hlater.other before name place (hname ▸ htexts.1) hplace⟩
      · exact hlater.own before name (hfirst.other before name .home (by simpa using hname) hhome)

/-! ## The second loop -/

/-- The second loop frees the strings it is given. -/
structure Refreshes (before : World) (title : CStr) (strs : List DlcString) (s t : DlcRun) : Prop where
  frees : Frees (strs.map (·.ptr)) s.heap t.heap
  kept : ∀ name, before.fs (dlcHome title name) ≠ none → ∀ place,
    Kept before title name s.pass.world place → ∃ place', Kept before title name t.pass.world place'

theorem refreshDlc_refreshes (before : World) (htitle : PlainName title) (hstr : IsDlc title str)
    (hsound : heapLedger.Sound s.heap) (hlive : heapLedger.net str.ptr s.heap = 1) :
    ∃ t, refreshDlc (titlePath title).length (some str) s = .ok ⟨⟩ t ∧
      Refreshes before title [str] s t := by
  obtain ⟨m, hm, htext⟩ := hstr
  obtain ⟨res, u, happ, hkept⟩ := refreshApp_kept before title m str.answers s.pass
  have hread := frees_read hsound hlive
  have hlive' := (hread.net_other nofun).trans hlive
  by_cases hres : res = 1
  · refine ⟨{ s with
      pass := { u with refreshed := u.refreshed + 1 }
      heap := s.heap ++ [.read str.ptr] ++ [.free str.ptr] }, ?_, ?_, ?_⟩
    · simp only [refreshDlc, bind_apply, readString_apply, htext, pathOf_dlcTempPath hm, inPass, happ,
        hres, if_true, onHeap_apply]
      rfl
    · exact hread.trans (frees_free hread.sound hlive')
    · exact fun name _ place h => hkept name place h
  · obtain ⟨t, hrename, hback⟩ := renameBack_kept before title m str.answers.renameBack u
    refine ⟨{ s with
      pass := t
      heap := s.heap ++ [.read str.ptr] ++ [.read str.ptr] ++ [.free str.ptr] }, ?_, ?_, ?_⟩
    · simp only [refreshDlc, bind_apply, readString_apply, htext, pathOf_dlcTempPath hm,
        pathOf_dlcText htitle hm, inPass, happ, hrename, hres, if_false, onHeap_apply]
    · have hboth := hread.trans (frees_read hread.sound hlive')
      exact hboth.trans (frees_free hboth.sound ((hboth.net_other nofun).trans hlive))
    · intro name hexists place h
      obtain ⟨place', h'⟩ := hkept name place h
      exact hback name hexists place' h'

theorem refreshAll_refreshes (before : World) (htitle : PlainName title)
    (entries : List (Option DlcString)) (hstrs : ∀ str ∈ kept entries, IsDlc title str)
    (hptrs : ((kept entries).map (·.ptr)).Nodup) (hsound : heapLedger.Sound s.heap)
    (hlive : ∀ str ∈ kept entries, heapLedger.net str.ptr s.heap = 1) :
    ∃ t, runAll (refreshDlc (titlePath title).length) entries s = .ok ⟨⟩ t ∧
      Refreshes before title (kept entries) s t := by
  induction entries generalizing s with
  | nil => exact ⟨s, rfl, frees_nil hsound, fun _ _ place h => ⟨place, h⟩⟩
  | cons entry rest ih =>
    cases entry with
    | none =>
      rw [kept_cons] at hstrs hptrs hlive ⊢
      exact ih hstrs hptrs hsound hlive
    | some str =>
      rw [kept_cons, Option.toList_some, List.singleton_append] at hstrs hptrs hlive ⊢
      rw [List.forall_mem_cons] at hstrs hlive
      rw [List.map_cons, List.nodup_cons] at hptrs
      obtain ⟨u, hrun, hfirst⟩ := refreshDlc_refreshes before htitle hstrs.1 hsound hlive.1
      have hrest : ∀ str' ∈ kept rest, heapLedger.net str'.ptr u.heap = 1 := by
        intro str' hstr'
        rw [hfirst.frees.net_other, hlive.2 str' hstr']
        intro hmem
        have hptr : str'.ptr = str.ptr := by simpa using hmem
        exact hptrs.1 (hptr ▸ List.mem_map_of_mem hstr')
      obtain ⟨t, hall, hlater⟩ := ih hstrs.2 hptrs.2 hfirst.frees.sound hrest
      refine ⟨t, ?_, hfirst.frees.trans hlater.frees, ?_⟩
      · rw [runAll_cons, hrun]
        exact hall
      · intro name hexists place hkept
        obtain ⟨place', hkept'⟩ := hfirst.kept name hexists place hkept
        exact hlater.kept name hexists place' hkept'

end Loops

/-! ## Collecting the strings -/

/-- The strings are numbered as they were duplicated, and nothing else has been done on the heap. -/
def DlcRun.Numbered (s : DlcRun) : Prop :=
  s.list.map (·.ptr) = List.range s.list.length ∧ s.heap = (List.range s.list.length).map .strdup

section Collect
variable {title : CStr} {s : DlcRun} {e : Dirent}

theorem dlcCallbackInner_cases (htitle : PlainName title) (he : PlainName e.name)
    (hpass : s.pass.refreshPass = true) :
    dlcCallbackInner (titlePath title) e s = .ok ⟨⟩ s ∨
      dlcCallbackInner (titlePath title) e s = strdup (dlcText title e.name) e.answers s := by
  by_cases hsce : sameFirst 4 e.name (bytes "sce_") = true
  · left
    rw [dlcCallbackInner, if_pos hsce, pure_apply]
  · by_cases hroom : s.list.length < maxDlcPerTitle
    · right
      have hfits : snprintf maxPathLength (joined (titlePath title) e.name) = dlcText title e.name :=
        snprintf_of_fits (dlcText_length htitle he)
      simp only [dlcCallbackInner, if_neg hsce, bind_apply, get_apply, hpass, if_true, if_pos hroom, hfits]
    · left
      simp only [dlcCallbackInner, if_neg hsce, bind_apply, get_apply, hpass, if_true, if_neg hroom,
        pure_apply]

theorem DlcRun.Numbered.strdup (h : s.Numbered) (text : CStr) (answers : Answers) :
    ∃ t, Refresh.strdup text answers s = .ok ⟨⟩ t ∧ t.pass = s.pass ∧
      t.list = s.list ++ [⟨s.list.length, text, answers⟩] ∧ t.Numbered := by
  refine ⟨_, rfl, rfl, rfl, ?_, ?_⟩
  · rw [List.map_append, List.length_append, h.1]
    exact List.range_succ.symm
  · rw [List.length_append, List.length_singleton, List.range_succ, List.map_append, ← h.2]
    rfl

theorem collect_run (htitle : PlainName title) (entries : List Dirent)
    (hplain : ∀ e ∈ entries, PlainName e.name) (hpass : s.pass.refreshPass = true) (hs : s.Numbered) :
    ∃ t new, runAll (dlcCallbackInner (titlePath title)) entries s = .ok ⟨⟩ t ∧ t.pass = s.pass ∧
      t.list = s.list ++ new ∧ (new.map (·.text)).Sublist (entries.map fun e => dlcText title e.name) ∧
      t.Numbered := by
  induction entries generalizing s with
  | nil => exact ⟨s, [], rfl, rfl, (List.append_nil _).symm, List.Sublist.refl _, hs⟩
  | cons e rest ih =>
    rw [List.forall_mem_cons] at hplain
    rw [runAll_cons]
    rcases dlcCallbackInner_cases htitle hplain.1 hpass with hskip | hdup
    · rw [hskip]
      obtain ⟨t, new, hrun, hsame, hlist, hsub, ht⟩ := ih hplain.2 hpass hs
      exact ⟨t, new, hrun, hsame, hlist, hsub.cons _, ht⟩
    · obtain ⟨u, hu, hsame, hlist, hnumbered⟩ := hs.strdup (dlcText title e.name) e.answers
      rw [hdup, hu]
      obtain ⟨t, new, hrun, hsame', hlist', hsub, ht⟩ := ih hplain.2 (hsame ▸ hpass) hnumbered
      refine ⟨t, ⟨s.list.length, dlcText title e.name, e.answers⟩ :: new, hrun, hsame'.trans hsame, ?_,
        hsub.cons_cons _, ht⟩
      rw [hlist', hlist, List.append_assoc]
      rfl

/-- The pass that counts. -/
theorem count_run (dir : CStr) (entries : List Dirent) (hpass : s.pass.refreshPass = false) :
    ∃ t, runAll (dlcCallbackInner dir) entries s = .ok ⟨⟩ t ∧
      t.pass.world = s.pass.world ∧ t.pass.refreshPass = false ∧ t.heap = s.heap := by
  have hround : ∀ (e : Dirent) (u : DlcRun), True →
      (u.pass.world = s.pass.world ∧ u.pass.refreshPass = false ∧ u.heap = s.heap) →
      ∃ t, dlcCallbackInner dir e u = .ok ⟨⟩ t ∧
        (t.pass.world = s.pass.world ∧ t.pass.refreshPass = false ∧ t.heap = s.heap) := by
    rintro e u - ⟨hworld, hfalse, hheap⟩
    by_cases hsce : sameFirst 4 e.name (bytes "sce_") = true
    · exact ⟨u, by rw [dlcCallbackInner, if_pos hsce, pure_apply], hworld, hfalse, hheap⟩
    · refine ⟨{ u with pass := { u.pass with count := u.pass.count + 1 } }, ?_, hworld, hfalse, hheap⟩
      simp only [dlcCallbackInner, if_neg hsce, bind_apply, get_apply, hfalse, Bool.false_eq_true,
        if_false, inPass, addCount, modify_apply]
  exact runAll_ok hround (fun _ _ => trivial) ⟨rfl, hpass, rfl⟩

end Collect

/-! ## The callback -/

theorem kept_start (w : World) (title name : CStr) : Kept w title name w .home :=
  ⟨le_rfl, fun _ _ => rfl⟩

/-- What the heap looks like when every string is freed. -/
theorem freed_once {n : ℕ} {ks : List ℕ} {heap : List HeapEvent}
    (h : Frees ks ((List.range n).map .strdup) heap) (hks : ks.Perm (List.range n)) :
    heapLedger.Sound heap ∧ ∀ k, heap.count (.strdup k) ≤ 1 ∧
      heap.count (.free k) = heap.count (.strdup k) := by
  refine ⟨h.sound, fun k => ⟨?_, ?_⟩⟩
  · rw [h.strdups]
    apply List.nodup_iff_count_le_one.mp
    exact List.nodup_range.map fun a b hab => HeapEvent.strdup.inj hab
  · have hnet : heapLedger.net k heap = 0 := by
      rw [h.net, (strdups_sound n).2]
      simp only [hks.mem_iff, List.mem_range]
      split_ifs <;> rfl
    have hacquires : heap.countP (heapLedger.acquires · = some k) = heap.count (.strdup k) := by
      apply List.countP_congr
      intro e _
      cases e <;> simp [heapLedger]
    have hreleases : heap.countP (heapLedger.releases · = some k) = heap.count (.free k) := by
      apply List.countP_congr
      intro e _
      cases e <;> simp [heapLedger]
    rw [Ledger.net_eq_count, hacquires, hreleases] at hnet
    omega

/-- The callback behind its listing. -/
theorem dlcCallbackOuter_apply {title : CStr} {listing : List Dirent} {s : Pass} {u : DlcRun}
    (htitle : PlainName title)
    (hrun : runAll (dlcCallbackInner (titlePath title)) (listing.filter (·.isDir)) (DlcRun.start s)
      = .ok ⟨⟩ u) :
    dlcCallbackOuter listing addcont title (DlcRun.start s)
      = (if u.pass.refreshPass then
          moveAll (titlePath title).length u.list >>= fun entries =>
            runAll (refreshDlc (titlePath title).length) entries
        else pure ⟨⟩) u := by
  have hfits : snprintf maxPathLength (joined addcont title) = titlePath title := by
    apply snprintf_of_fits
    have haddcont : addcont.length = 11 := rfl
    have hlength := htitle.length_le
    simp only [joined, List.length_append, List.length_cons, maxPathLength]
    omega
  have hstart : ({ DlcRun.start s with list := [] } : DlcRun) = DlcRun.start s := rfl
  simp only [dlcCallbackOuter, bind_apply, modify_apply, parseDirWithCallback, hfits, hstart, hrun,
    get_apply]
  rfl

/-- **No DLC is lost.** Behind a call of `dlc_callback_outer` each directory that was there under the title
is at its old path, in `DLC_TEMP` under its name, or accepted by the promoter; and each string that was
duplicated is freed exactly once and not read afterwards. -/
theorem dlcCallbackOuter_loses_none (title : CStr) (listing : List Dirent) (s : Pass)
    (htitle : PlainName title) (hplain : ∀ e ∈ listing, PlainName e.name)
    (hnodup : (listing.map (·.name)).Nodup) :
    ∃ t, dlcCallbackOuter listing addcont title (DlcRun.start s) = .ok ⟨⟩ t ∧
      (∀ name, s.world.fs (dlcHome title name) ≠ none →
        ∃ place, DlcAt s.world title name t.pass.world place) ∧
      heapLedger.Sound t.heap ∧ ∀ k, t.heap.count (.strdup k) ≤ 1 ∧
        t.heap.count (.free k) = t.heap.count (.strdup k) := by
  have hdirs : ∀ e ∈ listing.filter (·.isDir), PlainName e.name := fun e he =>
    hplain e (List.mem_filter.mp he).1
  cases hpass : s.refreshPass with
  | false =>
    obtain ⟨t, hrun, hworld, hfalse, hheap⟩ := count_run (s := DlcRun.start s) (titlePath title)
      (listing.filter (·.isDir)) hpass
    refine ⟨t, ?_, fun name _ => ⟨.home, ?_⟩, ?_⟩
    · rw [dlcCallbackOuter_apply htitle hrun, hfalse]
      rfl
    · rw [hworld]
      exact (kept_start s.world title name).whole
    · rw [hheap]
      exact freed_once (n := 0) (frees_nil Ledger.sound_nil) (List.Perm.refl _)
  | true =>
    obtain ⟨u, new, hrun, hsame, hlist, hsub, hptrs, hheap⟩ := collect_run (s := DlcRun.start s) htitle
      (listing.filter (·.isDir)) hdirs hpass ⟨rfl, rfl⟩
    obtain rfl : u.list = new := hlist
    have hstrs : ∀ str ∈ u.list, IsDlc title str := by
      intro str hstr
      obtain ⟨e, he, htext⟩ := List.mem_map.mp (hsub.subset (List.mem_map_of_mem hstr))
      exact ⟨e.name, hdirs e he, htext.symm⟩
    have htexts : (u.list.map (·.text)).Nodup := by
      apply hsub.nodup
      have hnames : ((listing.filter (·.isDir)).map (·.name)).Nodup :=
        hnodup.sublist (List.filter_sublist.map _)
      have hmap := hnames.map (dlcText_injective title)
      rw [List.map_map] at hmap
      exact hmap
    have hnodupPtrs : (u.list.map (·.ptr)).Nodup := hptrs ▸ List.nodup_range
    have hlive : ∀ str ∈ u.list, heapLedger.net str.ptr u.heap = 1 := by
      intro str hstr
      have hmem : str.ptr ∈ List.range u.list.length := hptrs ▸ List.mem_map_of_mem hstr
      rw [hheap, (strdups_sound _).2, if_pos (List.mem_range.mp hmem)]
    have hsound : heapLedger.Sound u.heap := hheap ▸ (strdups_sound _).1
    obtain ⟨entries, v, hmove, hmoves⟩ :=
      moveAll_moves htitle u.list hstrs htexts hnodupPtrs hsound hlive
    obtain ⟨freed, hfrees, hperm⟩ := hmoves.frees
    have hkeptPtrs : (freed ++ (kept entries).map (·.ptr)).Nodup := hperm.nodup_iff.mpr hnodupPtrs
    have hkeptLive : ∀ str ∈ kept entries, heapLedger.net str.ptr v.heap = 1 := by
      intro str hstr
      rw [hfrees.net_other, hlive str (hmoves.kept_mem str hstr)]
      exact fun hmem => (List.nodup_append.mp hkeptPtrs).2.2 _ hmem _ (List.mem_map_of_mem hstr) rfl
    obtain ⟨t, hrefresh, hrefreshes⟩ := refreshAll_refreshes s.world htitle entries
      (fun str hstr => hstrs str (hmoves.kept_mem str hstr)) (List.nodup_append.mp hkeptPtrs).2.1
      hfrees.sound hkeptLive
    refine ⟨t, ?_, fun name hexists => ?_, ?_⟩
    · rw [dlcCallbackOuter_apply htitle hrun, hsame]
      simp only [DlcRun.start, hpass, if_true, bind_apply, hmove]
      exact hrefresh
    · have hhome : Kept s.world title name u.pass.world .home := by
        rw [hsame]
        exact kept_start s.world title name
      obtain ⟨place, hplace⟩ := hmoves.own s.world name hhome
      obtain ⟨place', hplace'⟩ := hrefreshes.kept name hexists place hplace
      exact ⟨place', hplace'.whole⟩
    · have hall := hfrees.trans hrefreshes.frees
      rw [hheap] at hall
      exact freed_once hall (hptrs ▸ hperm)

def titleWithDlc : Pass where
  start :=
    { fs := fun q =>
        if q = dlcHome (bytes "PCSB00001") (bytes "A") then some .dir
        else if q = dlcHome (bytes "PCSB00001") (bytes "B") then some .dir
        else none
      accepted := [] }
  steps := []
  refreshPass := true
  count := 0
  refreshed := 0

theorem dlcCallbackOuter_loses_none_two :
    ∃ t, dlcCallbackOuter [⟨bytes "A", true, calmAnswers⟩, ⟨bytes "sce_sys", true, calmAnswers⟩,
        ⟨bytes "B", true, { calmAnswers with renameToTemp := false }⟩] addcont (bytes "PCSB00001")
        (DlcRun.start titleWithDlc) = .ok ⟨⟩ t ∧
      (∃ place, DlcAt titleWithDlc.world (bytes "PCSB00001") (bytes "A") t.pass.world place) ∧
      ∃ place, DlcAt titleWithDlc.world (bytes "PCSB00001") (bytes "B") t.pass.world place := by
  have hplain : ∀ name ∈ [bytes "PCSB00001", bytes "A", bytes "sce_sys", bytes "B"], PlainName name := by
    have hname : ∀ name ∈ [bytes "PCSB00001", bytes "A", bytes "sce_sys", bytes "B"],
        (name ≠ [] ∧ slash ∉ name ∧ name ≠ bytes "." ∧ name ≠ bytes "..") ∧ name.length ≤ 255 := by
      decide
    exact fun name hmem => ⟨(hname name hmem).1, (hname name hmem).2⟩
  obtain ⟨t, hrun, hkept, -⟩ := dlcCallbackOuter_loses_none (bytes "PCSB00001")
    [⟨bytes "A", true, calmAnswers⟩, ⟨bytes "sce_sys", true, calmAnswers⟩,
      ⟨bytes "B", true, { calmAnswers with renameToTemp := false }⟩] titleWithDlc
    (hplain _ List.mem_cons_self) (by
      intro e he
      apply hplain
      exact List.mem_cons_of_mem _ (List.mem_map_of_mem he)) (by decide)
  exact ⟨t, hrun, hkept (bytes "A") (by decide), hkept (bytes "B") (by decide)⟩

end VitaConnect.Refresh

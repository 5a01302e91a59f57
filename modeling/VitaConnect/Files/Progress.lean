import VitaConnect.Files.Count
import VitaConnect.Storage.Shift

/-! # Progress

`removePath` and `copyPath` go through the same tree as `getPathInfo`, and each reports it in its own way.
What they report is compared with the totals of the tree.
-/
namespace VitaConnect.Files
open CString Program Storage
set_option autoImplicit false

/-! ## Reports -/

/-- `amount` has been added to `*param->value`, `SetProgress` has been shown values in between, and the last
of them is the value at the end. -/
structure Reported (param : FileProcessParam) (amount : ℕ) (w w' : World) : Prop where
  value : w'.value = w.value + UInt64.ofNat amount
  shown : ∃ more, w'.shown = w.shown ++ more ∧
    ∀ s ∈ more, s.2 = param.max ∧ ∃ k ≤ amount, s.1 = w.value + UInt64.ofNat k
  last : param.setProgress = true → 0 < amount → w'.shown.getLast? = some (w'.value, param.max)

section Report
variable {param : FileProcessParam}

theorem reported_zero {w w' : World} (hvalue : w'.value = w.value) (hshown : w'.shown = w.shown) :
    Reported param 0 w w' where
  value := by rw [hvalue]; exact (UInt64.add_zero _).symm
  shown := ⟨[], by rw [hshown, List.append_nil], List.forall_mem_nil _⟩
  last _ h := absurd h (lt_irrefl 0)

theorem Reported.trans {a b : ℕ} {w w' w'' : World} (h : Reported param a w w')
    (h' : Reported param b w' w'') : Reported param (a + b) w w'' where
  value := by rw [h'.value, h.value, UInt64.ofNat_add, UInt64.add_assoc]
  shown := by
    obtain ⟨more, hshown, hmore⟩ := h.shown
    obtain ⟨more', hshown', hmore'⟩ := h'.shown
    refine ⟨more ++ more', by rw [hshown', hshown, List.append_assoc], ?_⟩
    refine List.forall_mem_append.mpr ⟨fun s hs => ?_, fun s hs => ?_⟩
    · obtain ⟨hmax, k, hk, hvalue⟩ := hmore s hs
      exact ⟨hmax, k, by omega, hvalue⟩
    · obtain ⟨hmax, k, hk, hvalue⟩ := hmore' s hs
      exact ⟨hmax, a + k, by omega, by rw [hvalue, h.value, UInt64.ofNat_add, UInt64.add_assoc]⟩
  last hset hpos := by
    by_cases hb : 0 < b
    · exact h'.last hset hb
    · obtain rfl : b = 0 := by omega
      have hvalue : w''.value = w'.value := by rw [h'.value]; exact UInt64.add_zero _
      obtain ⟨more', hshown', hmore'⟩ := h'.shown
      cases more' using List.reverseRecOn with
      | nil =>
        rw [hshown', List.append_nil, hvalue]
        exact h.last hset (by omega)
      | append_singleton more' s =>
        obtain ⟨hmax, k, hk, hs⟩ := hmore' s (List.mem_append_right _ (List.mem_singleton_self s))
        obtain rfl : k = 0 := by omega
        rw [hshown', ← List.append_assoc, List.getLast?_concat, hvalue]
        exact congrArg some (Prod.ext (hs.trans (UInt64.add_zero _)) hmax)

theorem Reported.of_same {a : ℕ} {w w' w'' : World} (h : Reported param a w' w'')
    (hvalue : w'.value = w.value) (hshown : w'.shown = w.shown) : Reported param a w w'' := by
  have hzero : Reported param 0 w w' := reported_zero hvalue hshown
  have hsum := hzero.trans h
  rwa [Nat.zero_add] at hsum

theorem progress_reports (env : Env) (hvalue : param.value = true) (amount : ℕ) (w : World) :
    ∃ cancelled w', progress env (some param) amount w = .ok cancelled w' ∧ w'.disk = w.disk ∧
      Reported param amount w w' ∧ ((∀ i, env.cancel i = false) → cancelled = false) := by
  obtain ⟨value, max, setProgress, handler⟩ := param
  obtain rfl : value = true := hvalue
  have hshown : ∀ s ∈ [(w.value + UInt64.ofNat amount, max)], s.2 = max ∧
      ∃ k ≤ amount, s.1 = w.value + UInt64.ofNat k := by
    intro s hs
    rw [List.mem_singleton.mp hs]
    exact ⟨rfl, amount, le_refl _, rfl⟩
  have hnone : ∃ more, w.shown = w.shown ++ more ∧ ∀ s ∈ more, s.2 = max ∧
      ∃ k ≤ amount, s.1 = w.value + UInt64.ofNat k := ⟨[], (List.append_nil _).symm, List.forall_mem_nil _⟩
  cases setProgress <;> cases handler
  · exact ⟨false, _, rfl, rfl, ⟨rfl, hnone, fun h => absurd h Bool.false_ne_true⟩, fun _ => rfl⟩
  · exact ⟨_, _, rfl, rfl, ⟨rfl, hnone, fun h => absurd h Bool.false_ne_true⟩, fun h => h _⟩
  · exact ⟨false, _, rfl, rfl, ⟨rfl, ⟨_, rfl, hshown⟩, fun _ _ => List.getLast?_concat⟩, fun _ => rfl⟩
  · exact ⟨_, _, rfl, rfl, ⟨rfl, ⟨_, rfl, hshown⟩, fun _ _ => List.getLast?_concat⟩, fun h => h _⟩

end Report

/-! ## Listings of an intact directory -/

theorem entriesOf_perm {d d' : Disk} {l : Loc} (h : ∀ n, d'.look (l ++ [n]) = d.look (l ++ [n])) :
    (entriesOf d' l).Perm (entriesOf d l) := by
  unfold entriesOf
  simp only [h]
  exact (FileSystem.children_perm h).map _

theorem Intact.child {d : Disk} {p : Loc} {w : World} (h : Intact d p w) (rel : Loc) :
    Intact d (p ++ rel) w := by
  intro rel'
  rw [List.append_assoc]
  exact h (rel ++ rel')

theorem Intact.listed {d : Disk} {p : Loc} {w : World} {entries : List DirEntry} (h : Intact d p w)
    (hlisted : entries.Perm (entriesOf w.disk p)) : entries.Perm (entriesOf d p) :=
  hlisted.trans (entriesOf_perm fun n => h [n])

/-! ## `removePath` -/

/-- Every entry counts. -/
def countEach (_ : Entry (List Byte)) : ℕ := 1

/-- The entries done have been removed and reported, from `w` on. -/
structure RemovedEach (param : FileProcessParam) (d : Disk) (p : Loc) (w : World) (done : List DirEntry)
    (u : World) : Prop where
  frame : ∀ l, (∀ entry ∈ done, ¬ p ++ [entry.name] <+: l) → u.disk.look l = w.disk.look l
  gone : ∀ entry ∈ done, Gone (p ++ [entry.name]) u.disk
  reported : Reported param (listedTotal d p countEach done) w u

/-- What a run removes at `p`, and what it reports. -/
def RemoveReports (param : FileProcessParam) (d : Disk) (p : Loc) (w : World) (ret : ℤ) (w' : World) : Prop :=
  0 < ret ∧ Reported param (d.total countEach p) w w' ∧ RemovesAt p w.disk ret w'

section Remove
variable {param : FileProcessParam} {d : Disk} {p : Loc} {w : World}

theorem removedEach_nil : RemovedEach param d p w [] w where
  frame _ _ := rfl
  gone := List.forall_mem_nil _
  reported := reported_zero rfl rfl

theorem RemovedEach.concat {u u' : World} {done : List DirEntry} {entry : DirEntry} {ret : ℤ}
    (h : RemovedEach param d p w done u) (hrun : RemoveReports param d (p ++ [entry.name]) u ret u') :
    RemovedEach param d p w (done ++ [entry]) u' := by
  obtain ⟨hret, hreported, hremoved, hgone⟩ := hrun
  refine ⟨fun l hl => ?_, ?_, ?_⟩
  · rw [hremoved.outside l (hl entry (List.mem_append_right _ (List.mem_singleton_self entry)))]
    exact h.frame l fun e he => hl e (List.mem_append_left _ he)
  · refine List.forall_mem_append.mpr ⟨fun e he rel => ?_, List.forall_mem_singleton.mpr (hgone hret)⟩
    by_contra hne
    exact hremoved.mono hne (h.gone e he rel)
  · rw [listedTotal_concat]
    exact h.reported.trans hreported

/-- An entry whose turn has not come is as it was. -/
theorem RemovedEach.intact {u : World} {done : List DirEntry} {entry : DirEntry}
    (h : RemovedEach param d p w done u) (hintact : Intact d p w)
    (hentry : entry.name ∉ done.map DirEntry.name) : Intact d (p ++ [entry.name]) u := by
  intro rel
  rw [h.frame _ fun e he hbegins => ?_, List.append_assoc, hintact]
  rw [List.append_assoc, List.prefix_append_right_inj, List.singleton_append, List.cons_prefix_cons]
    at hbegins
  exact hentry (hbegins.1 ▸ List.mem_map_of_mem he)

variable (param) in
theorem removeRounds_ends {entries : List DirEntry} {f : DirEntry → FileM ℤ}
    (hnodup : (entries.map DirEntry.name).Nodup) (hintact : Intact d p w)
    (hround : ∀ entry ∈ entries, ∀ u, Intact d (p ++ [entry.name]) u →
      Ends (fun _ => False) (RemoveReports param d (p ++ [entry.name]) u) (f entry u)) :
    Ends (fun _ => False) (fun ret u => 0 < ret ∧ RemovedEach param d p w entries u)
      (untilRefused f entries w) := by
  have hrule : Triple (fun _ => False) (RemovedEach param d p w []) (untilRefused f entries) fun ret u =>
      Continues (RemovedEach param d p w entries) (fun _ _ => False) ret u ∧ (0 < ret → ret = 1) := by
    refine triple_untilRefused (P := RemovedEach param d p w) ?_
    intro done entry rest hentries u hu
    obtain ⟨hmem, hn⟩ := round_item hnodup hentries
    refine ends_mono (hround entry hmem u (hu.intact hintact hn)) fun ret u' hrun => ?_
    rw [continues_of_pos hrun.1]
    exact hu.concat hrun
  refine ends_mono (hrule w removedEach_nil) fun ret u ⟨hcontinues, _⟩ => ?_
  by_cases hret : 0 < ret
  · exact ⟨hret, (continues_of_pos hret).mp hcontinues⟩
  · exact ((continues_of_not_pos hret).mp hcontinues).elim

/-- Behind the rounds the directory is still there, and empty. -/
theorem RemovedEach.emptied {u : World} {entries : List DirEntry} (h : RemovedEach param d p w entries u)
    (hdir : w.disk.look p = some .dir) (hlisted : entries.Perm (entriesOf w.disk p)) :
    u.disk.look p = some .dir ∧ u.disk.children p = [] := by
  constructor
  · rw [h.frame p fun e _ hbegins => ?_, hdir]
    have hle := hbegins.length_le
    rw [List.length_append, List.length_singleton] at hle
    omega
  · refine FileSystem.children_eq_nil_iff.mpr fun n => ?_
    by_cases hn : n ∈ w.disk.children p
    · rw [← map_name_entriesOf] at hn
      obtain ⟨e, he, rfl⟩ := List.mem_map.mp hn
      have hgone := h.gone e (hlisted.symm.subset he) []
      rwa [List.append_nil] at hgone
    · rw [h.frame _ fun e he hbegins => hn ?_]
      · exact of_not_not fun hne => hn (FileSystem.mem_children.mpr hne)
      · rw [List.prefix_append_right_inj, List.cons_prefix_cons] at hbegins
        rw [← map_name_entriesOf, ← hbegins.1]
        exact List.mem_map_of_mem (hlisted.subset he)

section Run
variable {env : Env} (hcalm : Calm env) (hvalue : param.value = true)

include hcalm hvalue

/-- The report behind a removal of one entry. -/
theorem progress_one {w' : World} {a : ℕ} (hreported : Reported param a w w') :
    Ends (fun _ => False) (fun ret u => 0 < ret ∧ Reported param (1 + a) w u)
      ((do if ← progress env (some param) 1 then pure 0 else pure 1 : FileM ℤ) w') := by
  obtain ⟨cancelled, u, hrun, -, hone, hgoesOn⟩ := progress_reports env hvalue 1 w'
  obtain rfl := hgoesOn hcalm.goesOn
  refine ends_of_ok hrun (ends_ite (fun h => absurd h Bool.false_ne_true) fun _ => ⟨one_pos, ?_⟩)
  rw [Nat.add_comm]
  exact hreported.trans hone

theorem removeFileAt_reports {path : CStr} {content : List Byte}
    (hfile : w.disk.look (locate path) = some (.file content)) :
    Ends (fun _ => False) (fun ret u => 0 < ret ∧ Reported param 1 w u)
      (removeFileAt env (some param) path w) := by
  obtain ⟨disk, hremove, -⟩ := hcalm.remove hfile
  refine ends_of_ok hremove (ends_ite (fun h => absurd h (by decide)) fun _ => ?_)
  exact progress_one (a := 0) hcalm hvalue (reported_zero (w := w) rfl rfl)

/-- What `removePath` answers and reports; a device is not removed. -/
def RemoveCounts (param : FileProcessParam) (d : Disk) (p : Loc) (w : World) (ret : ℤ) (w' : World) : Prop :=
  (2 ≤ p.length → 0 < ret) ∧ (0 < ret → Reported param (d.total countEach p) w w')

/-- A round of `removePath` removes and reports one entry of the directory. -/
theorem removeRound_reports {fuel : ℕ} {path : CStr} {entry : DirEntry} {u : World} (hne : locate path ≠ [])
    (hmem : entry ∈ entriesOf d (locate path)) (hfits : FitsAs d (locate path) path)
    (hu : Intact d (locate path ++ [entry.name]) u) (hfuel : maxPathLength ≤ path.length + (fuel + 1))
    (hrec : Ends (fun _ => False) (RemoveCounts param d (locate path ++ [entry.name]) u)
      (removePath env (some param) fuel (joined path entry.name.1) u)) :
    Ends (fun _ => False) (RemoveReports param d (locate path ++ [entry.name]) u)
      ((if entry.isDir then removePath env (some param) fuel (newPath path entry.name.1)
        else removeFileAt env (some param) (newPath path entry.name.1)) u) := by
  have hentry := mem_entriesOf hmem
  have hchild : locate (joined path entry.name.1) = locate path ++ [entry.name] := locate_joined hne entry.name
  rw [hfits.newPath hentry]
  rcases entriesOf_kind hmem with ⟨htrue, -⟩ | ⟨hfalse, content, hfile, -⟩
  · obtain ⟨hfuel', hpos'⟩ := fuel_joined hfuel (hfits [entry.name] hentry)
    have hlength : 2 ≤ (locate path ++ [entry.name]).length := by
      have hpos := List.length_pos_iff.mpr hne
      rw [List.length_append, List.length_singleton]
      omega
    have hfits' : Fits u.disk (joined path entry.name.1) := by
      rw [Fits, hchild]
      refine (hfits.joined entry.name).mono fun rel hrel => ?_
      rwa [hu rel] at hrel
    have hremoves := removePath_ends env (some param) fuel (joined path entry.name.1) u hfits' hfuel' hpos'
    rw [hchild] at hremoves
    rw [if_pos htrue]
    refine ends_mono (hremoves.and hrec) fun ret u' ⟨hremoved, hret, hreported⟩ => ?_
    exact ⟨hret hlength, hreported (hret hlength), hremoved⟩
  · have hlook : u.disk.look (locate (joined path entry.name.1)) = some (.file content) := by
      rw [hchild, hu.root, hfile]
    have hremoves := removeFileAt_ends env (some param) (joined path entry.name.1) u
    rw [hchild] at hremoves
    rw [hfalse, if_neg Bool.false_ne_true]
    refine ends_mono (hremoves.and (removeFileAt_reports hcalm hvalue hlook))
      fun ret u' ⟨hremoved, hret, hreported⟩ => ?_
    exact ⟨hret, by rwa [FileSystem.total_file countEach hfile], hremoved⟩

/-- The removal of the emptied directory. -/
theorem rmdir_reports {path : CStr} {u : World} {a : ℕ} (hdir : u.disk.look (locate path) = some .dir)
    (hempty : u.disk.children (locate path) = []) (hreported : Reported param a w u) :
    Ends (fun _ => False) (fun ret u' => (2 ≤ (locate path).length → 0 < ret) ∧
        (0 < ret → Reported param (1 + a) w u'))
      ((do
        let ret ← sceIoRmdir env path
        if ret < 0 then pure ret
        else if ← progress env (some param) 1 then pure 0
        else pure 1 : FileM ℤ) u) := by
  by_cases hlength : 2 ≤ (locate path).length
  · obtain ⟨disk, hrmdir, -⟩ := hcalm.rmdir hdir hlength hempty
    refine ends_of_ok hrmdir (ends_ite (fun h => absurd h (by decide)) fun _ => ?_)
    have hzero : Reported param 0 u (u.did (.rmdir (locate path) 0) disk) := reported_zero rfl rfl
    refine ends_mono (progress_one hcalm hvalue (hreported.trans hzero)) fun ret u' ⟨hret, hsum⟩ => ?_
    exact ⟨fun _ => hret, fun _ => hsum⟩
  · obtain ⟨u', hrmdir⟩ := hcalm.rmdir_device hdir hlength
    refine ends_of_ok hrmdir (ends_ite (fun _ => ?_) fun h => absurd (by decide) h)
    exact ⟨fun h => absurd h hlength, fun h => absurd h (by decide)⟩

theorem removePath_reports (fuel : ℕ) {path : CStr} {p : Loc} {w : World} (hpath : locate path = p)
    (hne : p ≠ []) (hexists : d.look p ≠ none) (hintact : Intact d p w) (hfits : FitsAs d p path)
    (hfuel : maxPathLength ≤ path.length + fuel) (hpos : 0 < fuel) :
    Ends (fun _ => False) (RemoveCounts param d p w) (removePath env (some param) fuel path w) := by
  induction fuel generalizing path p w with
  | zero => exact absurd hpos (lt_irrefl 0)
  | succ fuel ih =>
    subst hpath
    obtain ⟨e, he⟩ := Option.ne_none_iff_exists'.mp hexists
    have hlook : w.disk.look (locate path) = some e := by rw [hintact.root, he]
    cases e with
    | file content =>
      obtain ⟨code, w', hopen, hstill⟩ := hcalm.dopen_file hlook
      have hlook' : w'.disk.look (locate path) = some (.file content) := by rw [hstill.disk, hlook]
      refine ends_of_ok hopen (ends_mono (removeFileAt_reports hcalm hvalue hlook') fun ret u hends => ?_)
      rw [RemoveCounts, FileSystem.total_file countEach he]
      exact ⟨fun _ => hends.1, fun _ => hends.2.of_same hstill.value hstill.shown⟩
    | dir =>
      obtain ⟨entries, w', hopen, hstill, hlisted⟩ := hcalm.dopen hne hlook
      have hintact' : Intact d (locate path) w' := hintact.of_disk hstill.disk
      have hlisted' := hintact.listed hlisted
      have hnodup : (entries.map DirEntry.name).Nodup := by
        rw [(hlisted.map DirEntry.name).nodup_iff, map_name_entriesOf]
        exact FileSystem.nodup_children _ _
      refine ends_of_ok hopen (ends_bind
        (removeRounds_ends param hnodup hintact' fun entry hmem u hu => ?_) fun ret u hends => ?_)
      · have hentry := mem_entriesOf (hlisted'.subset hmem)
        obtain ⟨hfuel', hpos'⟩ := fuel_joined hfuel (hfits [entry.name] hentry)
        refine removeRound_reports hcalm hvalue hne (hlisted'.subset hmem) hfits hu hfuel ?_
        exact ih (locate_joined hne entry.name) (List.append_ne_nil_of_right_ne_nil _ (List.cons_ne_nil _ _))
          hentry hu (hfits.joined entry.name) hfuel' hpos'
      · obtain ⟨hret, heach⟩ := hends
        obtain ⟨hdir, hempty⟩ := heach.emptied (by rw [hstill.disk, hlook]) (by rwa [hstill.disk])
        refine ends_ite (fun h => absurd hret h.not_gt) fun _ => ?_
        have hreported := heach.reported.of_same hstill.value hstill.shown
        refine ends_mono (rmdir_reports hcalm hvalue hdir hempty hreported) fun ret u' hends => ?_
        rwa [RemoveCounts, total_dir countEach he hlisted']

end Run
end Remove

/-! ## `copyFile` -/

section Copy
variable {param : FileProcessParam} {env : Env} (hvalue : param.value = true)

/-- An exit that is not 1 reports nothing. -/
theorem stopped_reports {amount : ℕ} {dstPath : CStr} {code : ℤ} {w w' : World} (hcode : code ≤ 0) :
    Ends (fun _ => False) (fun ret u => 0 < ret → Reported param amount w u)
      ((do let _ ← sceIoRemove env dstPath; pure code : FileM ℤ) w') := by
  refine ends_mono (remove_ends env dstPath code w') fun ret u ⟨hret, _⟩ hpos => ?_
  omega

include hvalue

theorem copyLoop_reports {src : Loc} {dstPath : CStr} (hne : src ≠ locate dstPath) {content : List Byte}
    (fuel readPos : ℕ) (out : List Byte) (w : World) (hsrc : w.disk.look src = some (.file content))
    (hdst : w.disk.look (locate dstPath) = some (.file out)) (hfuel : content.length - readPos < fuel) :
    Ends (fun _ => False) (fun ret w' => 0 < ret → Reported param (content.length - readPos) w w')
      (copyLoop env src (locate dstPath) dstPath (some param) fuel readPos out.length w) := by
  induction fuel generalizing readPos out w with
  | zero => exact absurd hfuel (Nat.not_lt_zero _)
  | succ fuel ih =>
    have hcontent : contentAt w.disk src = content := by rw [contentAt, hsrc]
    obtain ⟨res, hread, hdata⟩ := sceIoRead_cases env src readPos (by decide : 0 < transferSize) w
    rw [hcontent] at hdata
    refine ends_of_ok hread ?_
    cases res with
    | error code => exact stopped_reports (by omega)
    | ok data =>
      obtain ⟨hbegins, hend⟩ := hdata data rfl
      have hle := hbegins.length_le
      rw [List.length_drop] at hle
      refine ends_ite (fun hnil _ => ?_) fun hnil => ?_
      · have hzero := congrArg List.length (hend hnil)
        rw [List.length_drop, List.length_nil] at hzero
        rw [hzero]
        exact reported_zero rfl rfl
      · obtain ⟨wrote, disk, hwrite, hcases⟩ := sceIoWrite_cases env out.length data
          (w := w.did (.read src (.ok data)) w.disk) hdst
        refine ends_of_ok hwrite ?_
        rcases hcases with ⟨⟨code, rfl⟩, -⟩ | ⟨n, rfl, hn, hlook⟩
        · exact stopped_reports (by omega)
        obtain ⟨cancelled, u, hrun, hdisk, hreported, -⟩ := progress_reports env hvalue data.length
          ((w.did (.read src (.ok data)) w.disk).did (.write (locate dstPath) data (.ok n)) disk)
        refine ends_of_ok hrun (ends_ite (fun _ => stopped_reports (le_refl 0)) fun _ => ?_)
        rw [splice_end] at hlook
        have hlength : (out ++ data.take n).length = out.length + n := by
          rw [List.length_append, List.length_take, min_eq_left hn]
        have hpos := List.length_pos_iff.mpr hnil
        have hsrc' : u.disk.look src = some (.file content) := by
          rw [hdisk]
          exact ((congrFun hlook src).trans (Function.update_of_ne hne _ _)).trans hsrc
        have hdst' : u.disk.look (locate dstPath) = some (.file (out ++ data.take n)) := by
          rw [hdisk]
          exact (congrFun hlook _).trans (Function.update_self _ _ _)
        have hrest := ih (readPos + data.length) (out ++ data.take n) u hsrc' hdst' (by omega)
        rw [hlength] at hrest
        refine ends_mono hrest fun ret u' hends hret => ?_
        have hsum := (hreported.of_same (w := w) rfl rfl).trans (hends hret)
        rwa [show data.length + (content.length - (readPos + data.length)) = content.length - readPos by omega]
          at hsum

theorem copyFile_reports {srcPath dstPath : CStr} {content : List Byte} {w : World}
    (hne : locate srcPath ≠ locate dstPath) (hsrc : w.disk.look (locate srcPath) = some (.file content)) :
    Ends (fun _ => False) (fun ret w' => 0 < ret → Reported param content.length w w')
      (copyFile env (some param) srcPath dstPath w) := by
  unfold copyFile
  cases hguard : guard srcPath dstPath with
  | some code => exact fun hret => absurd hret (guard_neg hguard).not_gt
  | none =>
    obtain ⟨res, hopen, hfile⟩ := sceIoOpenRead_cases env srcPath w
    refine ends_of_ok hopen ?_
    cases res with
    | error code => exact fun hret => absurd hret code.2.2.not_gt
    | ok fdsrc =>
      obtain ⟨rfl, -⟩ := hfile fdsrc rfl
      obtain ⟨made, disk, hcreate, hcases⟩ :=
        sceIoOpenWrite_cases env true dstPath { w with tick := w.tick + 1 }
      refine ends_of_ok hcreate ?_
      rcases hcases with ⟨⟨code, rfl⟩, -⟩ | ⟨rfl, hmade⟩
      · exact fun hret => absurd hret code.2.2.not_gt
      · have hlook := create_look hmade
        have hdst : disk.look (locate dstPath) = some (.file []) := by rw [hlook, Function.update_self]
        have hsrc' : disk.look (locate srcPath) = some (.file content) := by
          rw [hlook, Function.update_of_ne hne]
          exact hsrc
        have hcontent : contentAt disk (locate srcPath) = content := by rw [contentAt, hsrc']
        refine ends_of_ok (get_apply _) ?_
        show Ends _ _ (copyLoop env _ _ _ _ ((contentAt disk (locate srcPath)).length + 1) 0 0 _)
        rw [hcontent]
        refine ends_mono (copyLoop_reports hvalue hne _ 0 [] _ hsrc' hdst (Nat.lt_succ_self _))
          fun ret u hends hret => ?_
        exact (hends hret).of_same rfl rfl

end Copy

/-! ## `copyPath` -/

/-- What a run copies of the entry at `r` it reports, and it writes counterparts only. -/
def CopyReports (param : FileProcessParam) (d : Disk) (S D r : Loc) (w : World) (ret : ℤ) (w' : World) :
    Prop :=
  Writes d.look S D w.disk.look w'.disk.look ∧
    (0 < ret → Reported param (d.total copyWeight (S ++ r)) w w')

section CopyTree
variable {param : FileProcessParam} {d : Disk} {S D : Loc} (hsep : Separate d.look S D)

theorem writes_at {r : Loc} {u u' : Tree Name (List Byte)} (hr : d.look (S ++ r) ≠ none)
    (h : ∀ l, l ≠ D ++ r → u' l = u l) : Writes d.look S D u u' := fun l hl =>
  h l fun heq => hl ⟨r, hr, heq⟩

include hsep

theorem Intact.writes_separate {w w' : World} (h : Intact d S w)
    (hwrites : Writes d.look S D w.disk.look w'.disk.look) : Intact d S w' := fun rel => by
  rw [hwrites _ (hsep.not_counterpart rel), h]

theorem copyRounds_reports {r : Loc} {entries : List DirEntry} {f : DirEntry → FileM ℤ} {w : World}
    (hintact : Intact d S w)
    (hround : ∀ entry ∈ entries, ∀ u, Intact d S u →
      Ends (fun _ => False) (CopyReports param d S D (r ++ [entry.name]) u) (f entry u)) :
    Ends (fun _ => False) (fun ret u => Writes d.look S D w.disk.look u.disk.look ∧
      (0 < ret → Reported param (listedTotal d (S ++ r) copyWeight entries) w u))
      (untilRefused f entries w) := by
  have hrule : Triple (fun _ => False)
      (fun u => Writes d.look S D w.disk.look u.disk.look ∧
        Reported param (listedTotal d (S ++ r) copyWeight []) w u) (untilRefused f entries) fun ret u =>
      Continues (fun u => Writes d.look S D w.disk.look u.disk.look ∧
        Reported param (listedTotal d (S ++ r) copyWeight entries) w u)
        (fun _ u => Writes d.look S D w.disk.look u.disk.look) ret u ∧ (0 < ret → ret = 1) := by
    refine triple_untilRefused (P := fun done (u : World) => Writes d.look S D w.disk.look u.disk.look ∧
      Reported param (listedTotal d (S ++ r) copyWeight done) w u) ?_
    rintro done entry rest hentries u ⟨hwrites, hreported⟩
    have hmem : entry ∈ entries := by
      rw [hentries]
      exact List.mem_append_right done List.mem_cons_self
    refine ends_mono (hround entry hmem u (hintact.writes_separate hsep hwrites)) ?_
    rintro ret u' ⟨hwrites', hreported'⟩
    by_cases hret : 0 < ret
    · rw [continues_of_pos hret, listedTotal_concat, List.append_assoc]
      exact ⟨hwrites.trans hwrites', hreported.trans (hreported' hret)⟩
    · rw [continues_of_not_pos hret]
      exact hwrites.trans hwrites'
  refine ends_mono (hrule w ⟨Writes.refl _ _ _ _, reported_zero rfl rfl⟩) fun ret u ⟨hcontinues, _⟩ => ?_
  by_cases hret : 0 < ret
  · obtain ⟨hwrites, hreported⟩ := (continues_of_pos hret).mp hcontinues
    exact ⟨hwrites, fun _ => hreported⟩
  · exact ⟨(continues_of_not_pos hret).mp hcontinues, fun h => absurd h hret⟩

section Run
variable {env : Env} (hvalue : param.value = true)

include hvalue

theorem copyFile_copyReports {srcPath dstPath : CStr} {r : Loc} {content : List Byte} {w : World}
    (hsrc : locate srcPath = S ++ r) (hdst : locate dstPath = D ++ r)
    (hfile : d.look (S ++ r) = some (.file content)) (hintact : Intact d S w) :
    Ends (fun _ => False) (CopyReports param d S D r w) (copyFile env (some param) srcPath dstPath w) := by
  have hr : d.look (S ++ r) ≠ none := by
    rw [hfile]
    exact Option.some_ne_none _
  have hne : locate srcPath ≠ locate dstPath := by
    rw [hsrc, hdst]
    exact hsep.append_ne hr
  have hlook : w.disk.look (locate srcPath) = some (.file content) := by rw [hsrc, hintact, hfile]
  refine ends_mono ((copyFile_ends env (some param) srcPath dstPath w).and
    (copyFile_reports hvalue hne hlook)) ?_
  rintro ret w' ⟨⟨steps, hran, -⟩, hreported⟩
  rw [hdst] at hran
  refine ⟨writes_at hr hran.frame, fun hret => ?_⟩
  rw [FileSystem.total_file copyWeight hfile, copyWeight_file]
  exact hreported hret

omit hsep in
/-- The making of the directory and its report, and the rounds behind them. -/
theorem enter_reports (hcalm : Calm env) {dstPath : CStr} {r : Loc} {w w' : World} {weight : ℕ}
    {next : FileM ℤ} (hdst : locate dstPath = D ++ r) (hr : d.look (S ++ r) ≠ none) (hstill : Still w w')
    (hnext : D ++ r ≠ [] → ∀ u, Writes d.look S D w.disk.look u.disk.look →
      Ends (fun _ => False) (fun ret u' => Writes d.look S D u.disk.look u'.disk.look ∧
        (0 < ret → Reported param weight u u')) (next u)) :
    Ends (fun _ => False) (fun ret u => Writes d.look S D w.disk.look u.disk.look ∧
        (0 < ret → Reported param (directorySize + weight) w u))
      ((do
        let ret ← sceIoMkdir env dstPath
        if ret < 0 ∧ ret ≠ eexist.1 then pure ret
        else if ← progress env (some param) directorySize then pure 0
        else next : FileM ℤ) w') := by
  by_cases hroot : D ++ r = []
  · refine ends_of_ok (hcalm.mkdir_root w' (hdst.trans hroot)) (ends_ite (fun h => ?_) fun h => ?_)
    · exact ⟨fun _ _ => congrFun (congrArg _ hstill.disk) _, fun hret => absurd hret h.1.not_gt⟩
    · exact absurd (by decide) h
  obtain ⟨ret, disk, hmkdir, hcases⟩ := sceIoMkdir_cases env dstPath w'
  have hwrites : Writes d.look S D w.disk.look disk.look := by
    refine writes_at hr fun l hl => ?_
    rw [← hstill.disk]
    rcases hcases with ⟨-, rfl⟩ | ⟨-, -, hlook⟩
    · rfl
    · rw [hlook, hdst]
      exact Function.update_of_ne hl _ _
  refine ends_of_ok hmkdir (ends_ite (fun h => ⟨hwrites, fun hret => absurd hret h.1.not_gt⟩) fun _ => ?_)
  obtain ⟨cancelled, u, hrun, hdisk, hreported, -⟩ :=
    progress_reports env hvalue directorySize (w'.did (.mkdir (locate dstPath) ret) disk)
  have hwrites' : Writes d.look S D w.disk.look u.disk.look := by rwa [hdisk]
  refine ends_of_ok hrun (ends_ite (fun _ => ⟨hwrites', fun h => absurd h (lt_irrefl 0)⟩) fun _ => ?_)
  refine ends_mono (hnext hroot u hwrites') fun ret u' ⟨hrest, hends⟩ => ⟨hwrites'.trans hrest, fun hret => ?_⟩
  exact (hreported.of_same hstill.value hstill.shown).trans (hends hret)

/-- A round of `copyPath` copies and reports one entry of the directory. -/
theorem copyRound_reports {fuel : ℕ} {srcPath dstPath : CStr} {r : Loc} {entry : DirEntry} {u : World}
    (hsrc : locate srcPath = S ++ r) (hdst : locate dstPath = D ++ r) (hne : S ++ r ≠ []) (hroot : D ++ r ≠ [])
    (hmem : entry ∈ entriesOf d (S ++ r)) (hfits : FitsAs d (S ++ r) srcPath)
    (hfits' : FitsAs d (S ++ r) dstPath) (hu : Intact d S u)
    (hrec : locate (joined srcPath entry.name.1) = S ++ (r ++ [entry.name]) →
      locate (joined dstPath entry.name.1) = D ++ (r ++ [entry.name]) →
      Ends (fun _ => False) (CopyReports param d S D (r ++ [entry.name]) u)
        (copyPath env (some param) fuel (joined srcPath entry.name.1) (joined dstPath entry.name.1) u)) :
    Ends (fun _ => False) (CopyReports param d S D (r ++ [entry.name]) u)
      ((if entry.isDir then
          copyPath env (some param) fuel (newPath srcPath entry.name.1) (newPath dstPath entry.name.1)
        else copyFile env (some param) (newPath srcPath entry.name.1) (newPath dstPath entry.name.1)) u) := by
  have hentry := mem_entriesOf hmem
  have hsrc' : locate (joined srcPath entry.name.1) = S ++ (r ++ [entry.name]) := by
    rw [locate_joined (hsrc ▸ hne), hsrc, List.append_assoc]
  have hdst' : locate (joined dstPath entry.name.1) = D ++ (r ++ [entry.name]) := by
    rw [locate_joined (hdst ▸ hroot), hdst, List.append_assoc]
  rw [hfits.newPath hentry, hfits'.newPath hentry]
  rcases entriesOf_kind hmem with ⟨htrue, -⟩ | ⟨hfalse, content, hfile, -⟩
  · rw [if_pos htrue]
    exact hrec hsrc' hdst'
  · rw [hfalse, if_neg Bool.false_ne_true]
    rw [List.append_assoc] at hfile
    exact copyFile_copyReports hsep hvalue hsrc' hdst' hfile hu

theorem copyPath_reports (hcalm : Calm env) (fuel : ℕ) {srcPath dstPath : CStr} {r : Loc} {w : World}
    (hsrc : locate srcPath = S ++ r) (hdst : locate dstPath = D ++ r) (hne : S ++ r ≠ [])
    (hexists : d.look (S ++ r) ≠ none) (hintact : Intact d S w) (hfits : FitsAs d (S ++ r) srcPath)
    (hfits' : FitsAs d (S ++ r) dstPath) (hfuel : maxPathLength ≤ srcPath.length + fuel) (hpos : 0 < fuel) :
    Ends (fun _ => False) (CopyReports param d S D r w)
      (copyPath env (some param) fuel srcPath dstPath w) := by
  induction fuel generalizing srcPath dstPath r w with
  | zero => exact absurd hpos (lt_irrefl 0)
  | succ fuel ih =>
    unfold copyPath
    cases hguard : guard srcPath dstPath with
    | some code => exact ⟨Writes.refl _ _ _ _, fun hret => absurd hret (guard_neg hguard).not_gt⟩
    | none =>
      obtain ⟨e, he⟩ := Option.ne_none_iff_exists'.mp hexists
      have hlook : w.disk.look (locate srcPath) = some e := by rw [hsrc, hintact, he]
      cases e with
      | file content =>
        obtain ⟨code, w', hopen, hstill⟩ := hcalm.dopen_file hlook
        have hintact' : Intact d S w' := hintact.of_disk hstill.disk
        refine ends_of_ok hopen (ends_mono (copyFile_copyReports hsep hvalue hsrc hdst he hintact') ?_)
        rintro ret u ⟨hwrites, hreported⟩
        refine ⟨?_, fun hret => ?_⟩
        · rwa [hstill.disk] at hwrites
        · exact (hreported hret).of_same hstill.value hstill.shown
      | dir =>
        obtain ⟨entries, w', hopen, hstill, hlisted⟩ := hcalm.dopen (hsrc ▸ hne) hlook
        rw [hsrc] at hlisted
        have hlisted' := (hintact.child r).listed hlisted
        refine ends_of_ok hopen (ends_mono (enter_reports hvalue hcalm hdst hexists hstill
          fun hroot u hwrites => copyRounds_reports (r := r) hsep (hintact.writes_separate hsep hwrites)
            fun entry hmem u' hu' => ?_) ?_)
        · have hentry := mem_entriesOf (hlisted'.subset hmem)
          obtain ⟨hfuel', hpos'⟩ := fuel_joined hfuel (hfits [entry.name] hentry)
          have hfits_src := hfits.joined entry.name
          have hfits_dst := hfits'.joined entry.name
          rw [List.append_assoc] at hentry hfits_src hfits_dst
          refine copyRound_reports hsep hvalue hsrc hdst hne hroot (hlisted'.subset hmem) hfits hfits' hu'
            fun hsrc' hdst' => ?_
          exact ih hsrc' hdst' (List.append_ne_nil_of_right_ne_nil _ (by simp)) hentry hu' hfits_src hfits_dst
            hfuel' hpos'
        · rintro ret u ⟨hwrites, hreported⟩
          refine ⟨hwrites, fun hret => ?_⟩
          rw [total_dir copyWeight he hlisted', copyWeight_dir]
          exact hreported hret

end Run
end CopyTree

end VitaConnect.Files

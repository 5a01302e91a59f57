import VitaConnect.Files.CopyFile
import VitaConnect.Storage.Shift

/-! # Moving a tree

One call of `movePath` renames, or it merges two files or two directories, or it passes over: a rename that
fails otherwise, or whose flag is not set, ends in the same `return 1`. Calls that did not change anything
are `Quiet`.
-/
namespace VitaConnect.Files
open CString Program Storage
set_option autoImplicit false

/-! ## One level -/

def BothFiles (d : Disk) (src dst : Loc) : Prop :=
  ∃ content content', d.look src = some (.file content) ∧ d.look dst = some (.file content')

def BothDirs (d : Disk) (src dst : Loc) : Prop := d.look src = some .dir ∧ d.look dst = some .dir

/-- Two entries that the flags let `movePath` merge. -/
def Merges (flags : UInt32) (d : Disk) (src dst : Loc) : Prop :=
  BothFiles d src dst ∧ flags &&& moveReplace ≠ 0 ∨ BothDirs d src dst ∧ flags &&& moveIntegrate ≠ 0

theorem merges_flags {flags : UInt32} {d : Disk} {src dst : Loc} (h : Merges flags d src dst) :
    flags &&& (moveIntegrate ||| moveReplace) ≠ 0 := by
  have hpart {part : UInt32} (hand : (moveIntegrate ||| moveReplace) &&& part = part)
      (hpart : flags &&& part ≠ 0) : flags &&& (moveIntegrate ||| moveReplace) ≠ 0 := fun hzero => by
    rw [← hand, ← UInt32.and_assoc, hzero, UInt32.zero_and] at hpart
    exact hpart rfl
  rcases h with ⟨-, hreplace⟩ | ⟨-, hintegrate⟩
  · exact hpart (by decide) hreplace
  · exact hpart (by decide) hintegrate

inductive Quiet (src dst : Loc) (d : Disk) : Step → Prop
  | rename (ret : ℤ) (hret : ret < 0) : Quiet src dst d ⟨.rename src dst ret, d, d⟩
  | dopen (answer : Except ErrorCode (List DirEntry)) : Quiet src dst d ⟨.dopen src answer, d, d⟩

/-- The disk is as it was. -/
structure Stays (src dst : Loc) (w w' : World) (steps : List Step) : Prop where
  trace : w'.trace = w.trace ++ steps
  disk : w'.disk = w.disk
  quiet : ∀ s ∈ steps, Quiet src dst w.disk s

theorem stays_nil (src dst : Loc) (w : World) : Stays src dst w w [] where
  trace := (List.append_nil _).symm
  disk := rfl
  quiet := List.forall_mem_nil _

theorem stays_singleton {src dst : Loc} {w w' : World} {s : Step} (htrace : w'.trace = w.trace ++ [s])
    (hdisk : w'.disk = w.disk) (hs : Quiet src dst w.disk s) : Stays src dst w w' [s] where
  trace := htrace
  disk := hdisk
  quiet := List.forall_mem_singleton.mpr hs

theorem Stays.concat {src dst : Loc} {w w' w'' : World} {steps : List Step} {s : Step}
    (h : Stays src dst w w' steps) (htrace : w''.trace = w'.trace ++ [s]) (hdisk : w''.disk = w'.disk)
    (hs : Quiet src dst w.disk s) : Stays src dst w w'' (steps ++ [s]) where
  trace := by rw [htrace, h.trace, List.append_assoc]
  disk := hdisk.trans h.disk
  quiet := List.forall_mem_append.mpr ⟨h.quiet, List.forall_mem_singleton.mpr hs⟩

section Level
variable (env : Env) {E : World → Prop} {Q : ℤ → World → Prop}

/-- Looking at the types of the two entries. -/
theorem stats_ends {srcPath dstPath : CStr} {src dst : Loc} {w u : World} {steps : List Step}
    {next : Bool → Bool → FileM ℤ} (hsrc : locate srcPath = src) (hdst : locate dstPath = dst)
    (hu : Stays src dst w u steps)
    (hrefused : ∀ ret w', ret < 0 → Stays src dst w w' steps → Q ret w')
    (hnext : ∀ srcIsDir dstIsDir w', dst ≠ [] →
      (srcIsDir = true ∧ w.disk.look src = some .dir ∨
        srcIsDir = false ∧ ∃ content, w.disk.look src = some (.file content)) →
      (dstIsDir = true ∧ w.disk.look dst = some .dir ∨
        dstIsDir = false ∧ ∃ content, w.disk.look dst = some (.file content)) →
      Stays src dst w w' steps → Ends E Q (next srcIsDir dstIsDir w')) :
    Ends E Q ((do
      match ← sceIoGetstat env srcPath with
      | .error code => pure code.1
      | .ok (srcIsDir, _) =>
        match ← sceIoGetstat env dstPath with
        | .error code => pure code.1
        | .ok (dstIsDir, _) => next srcIsDir dstIsDir : FileM ℤ) u) := by
  have hkind {isDir : Bool} {size : ℕ} {l : Loc}
      (h : isDir = true ∧ u.disk.look l = some .dir ∨
        isDir = false ∧ ∃ content, u.disk.look l = some (.file content) ∧ size = content.length) :
      isDir = true ∧ w.disk.look l = some .dir ∨
        isDir = false ∧ ∃ content, w.disk.look l = some (.file content) := by
    rw [hu.disk] at h
    rcases h with hdir | ⟨hfalse, content, hfile, -⟩
    · exact Or.inl hdir
    · exact Or.inr ⟨hfalse, content, hfile⟩
  obtain ⟨srcStat, hstat, hsrcStat⟩ := sceIoGetstat_cases env srcPath u
  refine ends_of_ok hstat ?_
  cases srcStat with
  | error code => exact hrefused code.1 _ code.2.2 ⟨hu.trace, hu.disk, hu.quiet⟩
  | ok srcStat =>
    obtain ⟨dstStat, hstat', hdstStat⟩ := sceIoGetstat_cases env dstPath { u with tick := u.tick + 1 }
    refine ends_of_ok hstat' ?_
    rw [hsrc] at hsrcStat
    rw [hdst] at hdstStat
    cases dstStat with
    | error code => exact hrefused code.1 _ code.2.2 ⟨hu.trace, hu.disk, hu.quiet⟩
    | ok dstStat =>
      obtain ⟨-, hsrcKind⟩ := hsrcStat _ _ rfl
      obtain ⟨hne, hdstKind⟩ := hdstStat _ _ rfl
      exact hnext srcStat.1 dstStat.1 _ hne (hkind hsrcKind) (hkind hdstKind) ⟨hu.trace, hu.disk, hu.quiet⟩

/-- Listing the entries that are to be merged. -/
theorem listing_ends {srcPath : CStr} {src dst : Loc} {w u : World} {steps : List Step}
    {next : List DirEntry → FileM ℤ} (hsrc : locate srcPath = src) (hu : Stays src dst w u steps)
    (hrefused : ∀ ret w' steps, ret < 0 → Stays src dst w w' steps → Q ret w')
    (hnext : ∀ entries w', src ≠ [] → entries = env.dread src (entriesOf w.disk src) →
      Stays src dst w w' (steps ++ [⟨.dopen src (.ok entries), w.disk, w.disk⟩]) →
      Ends E Q (next entries w')) :
    Ends E Q ((do
      match ← sceIoDopen env srcPath with
      | .error code => pure code.1
      | .ok entries => next entries : FileM ℤ) u) := by
  obtain ⟨res, hopen, hentries⟩ := sceIoDopen_cases env srcPath u
  rw [hsrc, hu.disk] at hopen hentries
  have hlisted : Stays src dst w (u.did (.dopen src res) w.disk)
      (steps ++ [⟨.dopen src res, w.disk, w.disk⟩]) :=
    hu.concat (by rw [← hu.disk]; rfl) hu.disk.symm (.dopen res)
  refine ends_of_ok hopen ?_
  cases res with
  | error code => exact hrefused code.1 _ _ code.2.2 hlisted
  | ok entries =>
    obtain ⟨hne, -, hdread⟩ := hentries entries rfl
    exact hnext entries _ hne hdread hlisted

/-- What there is to prove about one level, by the way it goes. -/
theorem movePath_level {flags : UInt32} {fuel : ℕ} {srcPath dstPath : CStr} {src dst : Loc} {w : World}
    (hsrc : locate srcPath = src) (hdst : locate dstPath = dst)
    (hrefused : ∀ ret w' steps, ret < 0 → Stays src dst w w' steps → Q ret w')
    (hrenamed : ∀ disk, w.disk.look src ≠ none → w.disk.Movable src dst →
      disk.look = w.disk.look.move src dst → Q 1 (w.did (.rename src dst 0) disk))
    (hpassed : ∀ ret w', ret < 0 → ¬ (ret = eexist.1 ∧ Merges flags w.disk src dst) →
      Stays src dst w w' [⟨.rename src dst ret, w.disk, w.disk⟩] → Q 1 w')
    (hreplaced : BothFiles w.disk src dst → flags &&& moveReplace ≠ 0 →
      ∀ w', Stays src dst w w' [⟨.rename src dst eexist.1, w.disk, w.disk⟩] → Ends E Q ((do
        let _ ← sceIoRemove env dstPath
        let res ← sceIoRename env srcPath dstPath
        if res < 0 then pure res else pure 1 : FileM ℤ) w'))
    (hintegrated : BothDirs w.disk src dst → flags &&& moveIntegrate ≠ 0 → src ≠ [] → dst ≠ [] →
      ∀ entries w', entries = env.dread src (entriesOf w.disk src) →
        Stays src dst w w' [⟨.rename src dst eexist.1, w.disk, w.disk⟩,
          ⟨.dopen src (.ok entries), w.disk, w.disk⟩] → Ends E Q ((do
        let ret ← untilRefused (fun (dir : DirEntry) =>
          movePath env flags fuel (newPath srcPath dir.name.1) (newPath dstPath dir.name.1)) entries
        if ret ≤ 0 then pure ret
        else
          let _ ← sceIoRmdir env srcPath
          pure 1 : FileM ℤ) w')) :
    Ends E Q (movePath env flags (fuel + 1) srcPath dstPath w) := by
  unfold movePath
  cases hguard : guard srcPath dstPath with
  | some code => exact hrefused code w [] (guard_neg hguard) (stays_nil _ _ w)
  | none =>
    obtain ⟨ret, disk, hrename, hcases⟩ := sceIoRename_cases env srcPath dstPath w
    rw [hsrc, hdst] at hrename hcases
    refine ends_of_ok hrename ?_
    rcases hcases with ⟨hret, rfl⟩ | ⟨rfl, hexists, hmovable, hlook⟩
    · have hstays : Stays src dst w (w.did (.rename src dst ret) w.disk)
          [⟨.rename src dst ret, w.disk, w.disk⟩] := stays_singleton rfl rfl (.rename ret hret)
      refine ends_ite (fun hexist => ?_) fun hother => ?_
      · obtain ⟨rfl, -⟩ := hexist
        refine stats_ends env hsrc hdst hstays (fun ret w' hret => hrefused ret w' _ hret) ?_
        intro srcIsDir dstIsDir w' hdstNe hsrcIsDir hdstIsDir hw'
        rcases hsrcIsDir with ⟨rfl, hsrcDir⟩ | ⟨rfl, content, hsrcFile⟩
        · rcases hdstIsDir with ⟨rfl, hdstDir⟩ | ⟨rfl, content', hdstFile⟩
          · refine ends_ite (fun hne => absurd rfl hne) fun _ =>
              ends_ite (fun hfiles => absurd rfl hfiles.1) fun _ => ends_ite (fun hdirs => ?_) fun hdirs => ?_
            · refine listing_ends env hsrc hw' hrefused fun entries u hne hdread hlisted => ?_
              exact hintegrated ⟨hsrcDir, hdstDir⟩ hdirs.2.2 hne hdstNe entries u hdread hlisted
            · refine hpassed _ w' hret (fun h => ?_) hw'
              rcases h.2 with ⟨⟨content, -, hfile, -⟩, -⟩ | ⟨-, hintegrate⟩
              · rw [hsrcDir] at hfile
                cases hfile
              · exact hdirs ⟨rfl, rfl, hintegrate⟩
          · exact ends_ite (fun _ => hrefused _ w' _ (by decide) hw') fun h => absurd Bool.false_ne_true.symm h
        · rcases hdstIsDir with ⟨rfl, hdstDir⟩ | ⟨rfl, content', hdstFile⟩
          · exact ends_ite (fun _ => hrefused _ w' _ (by decide) hw') fun h => absurd Bool.false_ne_true h
          · refine ends_ite (fun hne => absurd rfl hne) fun _ => ends_ite (fun hfiles => ?_) fun hfiles => ?_
            · exact hreplaced ⟨content, content', hsrcFile, hdstFile⟩ hfiles.2.2 w' hw'
            · refine ends_ite (fun hdirs => absurd hdirs.1 Bool.false_ne_true) fun _ =>
                hpassed _ w' hret (fun h => ?_) hw'
              rcases h.2 with ⟨-, hreplace⟩ | ⟨⟨hdir, -⟩, -⟩
              · exact hfiles ⟨Bool.false_ne_true, Bool.false_ne_true, hreplace⟩
              · rw [hsrcFile] at hdir
                cases hdir
      · exact hpassed ret _ hret (fun h => hother ⟨h.1, merges_flags h.2⟩) hstays
    · have hne : ¬ ((0 : ℤ) = eexist.1 ∧ flags &&& (moveIntegrate ||| moveReplace) ≠ 0) := fun h =>
        absurd h.1 (by decide)
      exact ends_ite (fun h => absurd h hne) fun _ => hrenamed disk hexists hmovable hlook

end Level

/-! ## Steps -/

/-- A rename succeeds, or finds two entries that may be merged; a directory that is merged is removed. -/
def Step.Completes (flags : UInt32) (s : Step) : Prop :=
  match s.call with
  | .rename src dst ret => ret = 0 ∨ ret = eexist.1 ∧ Merges flags s.before src dst
  | .rmdir _ ret => ret = 0
  | _ => True

def AllComplete (flags : UInt32) (steps : List Step) : Prop := ∀ s ∈ steps, s.Completes flags

theorem allComplete_append {flags : UInt32} {s t : List Step} :
    AllComplete flags (s ++ t) ↔ AllComplete flags s ∧ AllComplete flags t := List.forall_mem_append

theorem allComplete_singleton {flags : UInt32} {s : Step} : AllComplete flags [s] ↔ s.Completes flags :=
  List.forall_mem_singleton

/-! ## Separate trees -/

section Run
variable (env : Env) {flags : UInt32} {d : Disk} {p q : Loc}

/-- When the answer is positive, the source has gone if and only if all steps complete. -/
def MoveRuns (flags : UInt32) (d : Disk) (p q : Loc) (w : World) (ret : ℤ) (w' : World) : Prop :=
  ∃ steps, w'.trace = w.trace ++ steps ∧ Shifts d.look p q w.disk.look w'.disk.look ∧
    (0 < ret → ret = 1 ∧ (w'.disk.look p = none ↔ AllComplete flags steps))

theorem Stays.shifts {w w' : World} {steps : List Step} (h : Stays p q w w' steps) (hintact : Intact d p w) :
    Shifts d.look p q w.disk.look w'.disk.look := by
  rw [h.disk]
  exact shifts_of_frame hintact fun _ _ => rfl

theorem look_of_moved {before after : Disk} (h : before.Movable p q) (hp : before.look p ≠ none)
    (hlook : after.look = before.look.move p q) : after.look p = none := by
  have hbelow := congrFun (Tree.below_move_src before.look (h.apart hp)) []
  rw [Tree.below_apply, List.append_nil] at hbelow
  rw [hlook, hbelow]
  rfl

/-- A file that is in the way is removed, and the rename is tried again. -/
theorem replace_ends {srcPath dstPath : CStr} {w w' : World} (hsrc : locate srcPath = p)
    (hdst : locate dstPath = q) (hsep : Separate d.look p q) (hexists : d.look p ≠ none)
    (hintact : Intact d p w) (hmerges : Merges flags w.disk p q)
    (hw' : Stays p q w w' [⟨.rename p q eexist.1, w.disk, w.disk⟩]) :
    Ends (fun _ => True) (MoveRuns flags d p q w) ((do
      let _ ← sceIoRemove env dstPath
      let res ← sceIoRename env srcPath dstPath
      if res < 0 then pure res else pure 1 : FileM ℤ) w') := by
  obtain ⟨ret, disk, hremove, hcases⟩ := sceIoRemove_cases env dstPath w'
  rw [hdst] at hremove hcases
  rw [hw'.disk] at hcases
  have hframe : ∀ l, ¬ Counterpart d.look p q l → disk.look l = w.disk.look l := by
    intro l hl
    rcases hcases with ⟨-, rfl⟩ | ⟨-, -, hlook⟩
    · rfl
    · have hne : l ≠ q := fun heq => hl (heq ▸ counterpart_self q hexists)
      rw [hlook, Function.update_of_ne hne]
  have hintact' : ∀ rel, disk.look (p ++ rel) = d.look (p ++ rel) := fun rel => by
    rw [hframe _ (hsep.not_counterpart rel), hintact]
  refine ends_of_ok hremove ?_
  obtain ⟨ret', disk', hrename, hcases'⟩ := sceIoRename_cases env srcPath dstPath (w'.did (.remove q ret) disk)
  rw [hsrc, hdst] at hrename hcases'
  have htrace : ((w'.did (.remove q ret) disk).did (.rename p q ret') disk').trace = w.trace ++
      [⟨.rename p q eexist.1, w.disk, w.disk⟩, ⟨.remove q ret, w'.disk, disk⟩,
        ⟨.rename p q ret', disk, disk'⟩] := by
    show w'.trace ++ [_] ++ [_] = _
    rw [hw'.trace, List.append_assoc, List.append_assoc]
    rfl
  refine ends_of_ok hrename (ends_ite (fun hret => ?_) fun hret => ?_)
  · rcases hcases' with ⟨-, rfl⟩ | ⟨rfl, -⟩
    · exact ⟨_, htrace, shifts_of_frame hintact' hframe, fun hpos => absurd hpos hret.not_gt⟩
    · exact absurd hret (lt_irrefl 0)
  · rcases hcases' with ⟨hfails, -⟩ | ⟨rfl, hsource, hmovable, hlook⟩
    · exact absurd hfails hret
    · have hshifts : Shifts d.look p q disk.look disk'.look := by
        rw [hlook]
        exact shifts_of_move hmovable hsource hintact'
      refine ⟨_, htrace, hshifts.of_frame hframe, fun _ => ⟨rfl, ?_⟩⟩
      refine iff_of_true (look_of_moved hmovable hsource hlook) fun s hs => ?_
      simp only [List.mem_cons, List.not_mem_nil, or_false] at hs
      rcases hs with rfl | rfl | rfl
      · exact Or.inr ⟨rfl, hmerges⟩
      · trivial
      · exact Or.inl rfl

/-! ## Rounds -/

/-- The named entries of the directory at `p` have been moved or merged. -/
def MovedEach (flags : UInt32) (d : Disk) (p q : Loc) (w : World) (names : List Name) (w' : World) : Prop :=
  ∃ steps, w'.trace = w.trace ++ steps ∧ ShiftsEach d.look p q names w.disk.look w'.disk.look ∧
    ((∀ n ∈ names, w'.disk.look (p ++ [n]) = none) ↔ AllComplete flags steps)

/-- The merging has come to an end in between. -/
def Interfered (d : Disk) (p q : Loc) (w w' : World) : Prop :=
  ∃ steps names, w'.trace = w.trace ++ steps ∧ ShiftsEach d.look p q names w.disk.look w'.disk.look

theorem movedEach_nil (w : World) : MovedEach flags d p q w [] w :=
  ⟨[], (List.append_nil _).symm, shiftsEach_nil _ _ _ _,
    iff_of_true (List.forall_mem_nil _) (List.forall_mem_nil _)⟩

theorem MovedEach.concat {w w' w'' : World} {names : List Name} {n : Name} {ret : ℤ}
    (h : MovedEach flags d p q w names w') (hsep : Separate d.look p q) (hn : n ∉ names)
    (hrun : MoveRuns flags d (p ++ [n]) (q ++ [n]) w' ret w'') (hret : 0 < ret) :
    MovedEach flags d p q w (names ++ [n]) w'' := by
  obtain ⟨steps, htrace, hshifts, hgone⟩ := h
  obtain ⟨steps', htrace', hshifts', hends⟩ := hrun
  refine ⟨steps ++ steps', by rw [htrace', htrace, List.append_assoc], hshifts.concat hsep hn hshifts', ?_⟩
  rw [allComplete_append, ← hgone, ← (hends hret).2, List.forall_mem_append, List.forall_mem_singleton]
  refine and_congr_left fun _ => forall₂_congr fun m hm => ?_
  have hne : n ≠ m := by
    rintro rfl
    exact hn hm
  have hsame : w''.disk.look (p ++ [m]) = w'.disk.look (p ++ [m]) := by
    refine hshifts'.frame _ (fun hsource => ?_) fun hcounterpart =>
      hsep.not_counterpart [m] hcounterpart.of_child
    have hsibling := not_counterpart_sibling (t := d.look) (p := p ++ [n]) (q := p) hne []
    rw [List.append_nil] at hsibling
    exact hsibling hsource
  rw [hsame]

theorem MovedEach.interfered {w w' w'' : World} {names : List Name} {n : Name} {ret : ℤ}
    (h : MovedEach flags d p q w names w') (hsep : Separate d.look p q) (hn : n ∉ names)
    (hrun : MoveRuns flags d (p ++ [n]) (q ++ [n]) w' ret w'') : Interfered d p q w w'' := by
  obtain ⟨steps, htrace, hshifts, -⟩ := h
  obtain ⟨steps', htrace', hshifts', -⟩ := hrun
  exact ⟨steps ++ steps', _, by rw [htrace', htrace, List.append_assoc], hshifts.concat hsep hn hshifts'⟩

theorem moveRounds_ends {entries : List DirEntry} {f : DirEntry → FileM ℤ} {w : World}
    (hsep : Separate d.look p q) (hnodup : (entries.map DirEntry.name).Nodup) (hintact : Intact d p w)
    (hround : ∀ entry ∈ entries, ∀ w', Intact d (p ++ [entry.name]) w' → Ends (fun _ => True)
      (MoveRuns flags d (p ++ [entry.name]) (q ++ [entry.name]) w') (f entry w')) :
    Ends (fun _ => True) (fun ret w' =>
        Continues (MovedEach flags d p q w (entries.map DirEntry.name)) (fun _ => Interfered d p q w)
          ret w' ∧ (0 < ret → ret = 1))
      (untilRefused f entries w) := by
  refine triple_untilRefused (P := fun done => MovedEach flags d p q w (done.map DirEntry.name))
    (Q := fun _ => Interfered d p q w) ?_ w (movedEach_nil w)
  intro done entry rest hentries w' hmoved
  obtain ⟨hmem, hn⟩ := round_item hnodup hentries
  have hintact' : Intact d (p ++ [entry.name]) w' := fun rel => by
    obtain ⟨-, -, hshifts, -⟩ := hmoved
    rw [hshifts.other hsep hn, List.append_assoc, hintact]
  refine ends_mono (hround entry hmem w' hintact') fun ret w'' hrun => ?_
  by_cases hret : 0 < ret
  · rw [continues_of_pos hret, List.map_append]
    exact hmoved.concat hsep hn hrun hret
  · rw [continues_of_not_pos hret]
    exact hmoved.interfered hsep hn hrun

/-! ## The run -/

/-- Behind the rounds the directory is removed if nothing is left in it. -/
theorem integrate_ends {srcPath : CStr} {entries : List DirEntry} {rounds : FileM ℤ} {w w' : World}
    (hsrc : locate srcPath = p) (hsep : Separate d.look p q) (hdirs : BothDirs w.disk p q)
    (hintact : Intact d p w) (hmerges : Merges flags w.disk p q)
    (hw' : Stays p q w w' [⟨.rename p q eexist.1, w.disk, w.disk⟩, ⟨.dopen p (.ok entries), w.disk, w.disk⟩])
    (hrounds : Ends (fun _ => True) (fun ret u =>
        Continues (MovedEach flags d p q w' (entries.map DirEntry.name)) (fun _ => Interfered d p q w')
          ret u ∧ (0 < ret → ret = 1)) (rounds w')) :
    Ends (fun _ => True) (MoveRuns flags d p q w) ((do
      let ret ← rounds
      if ret ≤ 0 then pure ret
      else
        let _ ← sceIoRmdir env srcPath
        pure 1 : FileM ℤ) w') := by
  have hintact' : Intact d p w' := hintact.of_disk hw'.disk
  have hroot : d.look p = some .dir := by
    rw [← hintact.root, hdirs.1]
  refine ends_bind hrounds fun ret u ⟨hends, hone⟩ => ends_ite (fun hret => ?_) fun hret => ?_
  · obtain ⟨steps, names, htrace, hshifts⟩ := (continues_of_not_pos (not_lt.mpr hret)).mp hends
    refine ⟨[⟨.rename p q eexist.1, w.disk, w.disk⟩, ⟨.dopen p (.ok entries), w.disk, w.disk⟩] ++ steps,
      by rw [htrace, hw'.trace, List.append_assoc], ?_, fun hpos => absurd hpos hret.not_gt⟩
    rw [← hw'.disk]
    exact hshifts.shifts hsep hintact'
  · obtain ⟨steps, htrace, hshifts, hgone⟩ := (continues_of_pos (not_le.mp hret)).mp hends
    have hmoved : Shifts d.look p q w.disk.look u.disk.look := by
      rw [← hw'.disk]
      exact hshifts.shifts hsep hintact'
    obtain ⟨ret', disk, hrmdir, hcases⟩ := sceIoRmdir_cases env srcPath u
    rw [hsrc] at hrmdir hcases
    refine ends_of_ok hrmdir ⟨[⟨.rename p q eexist.1, w.disk, w.disk⟩,
      ⟨.dopen p (.ok entries), w.disk, w.disk⟩] ++ steps ++ [⟨.rmdir p ret', u.disk, disk⟩], ?_, ?_,
      fun _ => ⟨rfl, ?_⟩⟩
    · show u.trace ++ [_] = _
      rw [htrace, hw'.trace, List.append_assoc, List.append_assoc, List.append_assoc]
    · show Shifts d.look p q w.disk.look disk.look
      rcases hcases with ⟨-, rfl⟩ | ⟨-, -, -, hlook⟩
      · exact hmoved
      · refine hmoved.update hsep (by rw [hroot]; exact Option.some_ne_none _) ?_ hlook
        rw [hshifts.counterpart hsep (by rw [hroot]; exact Option.some_ne_none _), hw'.disk, hdirs.2, hroot]
    · show disk.look p = none ↔ _
      rw [allComplete_append, allComplete_append, allComplete_singleton]
      rcases hcases with ⟨hfails, rfl⟩ | ⟨hret', -, hempty, hlook⟩
      · refine iff_of_false (fun hnone => ?_) fun h => hfails.ne h.2
        rw [hshifts.source hsep, hw'.disk, hdirs.1] at hnone
        cases hnone
      · have hleft : ∀ n ∈ entries.map DirEntry.name, u.disk.look (p ++ [n]) = none := fun n _ =>
          FileSystem.children_eq_nil_iff.mp hempty n
        refine iff_of_true ?_ ⟨⟨fun s hs => ?_, hgone.mp hleft⟩, hret'⟩
        · rw [hlook, Function.update_self]
        · simp only [List.mem_cons, List.not_mem_nil, or_false] at hs
          rcases hs with rfl | rfl
          · exact Or.inr ⟨rfl, hmerges⟩
          · trivial

theorem movePath_ends (fuel : ℕ) {srcPath dstPath : CStr} {w : World} (hsrc : locate srcPath = p)
    (hdst : locate dstPath = q) (hsep : Separate d.look p q) (hexists : d.look p ≠ none)
    (hintact : Intact d p w) (hfits : FitsAs d p srcPath) (hfits' : FitsAs d p dstPath) :
    Ends (fun _ => True) (MoveRuns flags d p q w) (movePath env flags fuel srcPath dstPath w) := by
  induction fuel generalizing srcPath dstPath p q w with
  | zero => trivial
  | succ fuel ih =>
    have hroot : w.disk.look p = d.look p := hintact.root
    refine movePath_level env hsrc hdst ?_ ?_ ?_ ?_ ?_
    · intro ret w' steps hret hw'
      exact ⟨steps, hw'.trace, hw'.shifts hintact, fun hpos => absurd hpos hret.not_gt⟩
    · intro disk hsource hmovable hlook
      refine ⟨_, rfl, ?_, fun _ => ⟨rfl, ?_⟩⟩
      · show Shifts d.look p q w.disk.look disk.look
        rw [hlook]
        exact shifts_of_move hmovable hsource hintact
      · exact iff_of_true (look_of_moved hmovable hsource hlook) (allComplete_singleton.mpr (Or.inl rfl))
    · intro ret w' hret hnot hw'
      refine ⟨_, hw'.trace, hw'.shifts hintact, fun _ => ⟨rfl, ?_⟩⟩
      refine iff_of_false ?_ fun h => ?_
      · rw [hw'.disk, hroot]
        exact hexists
      · rcases allComplete_singleton.mp h with hzero | hmerged
        · exact hret.ne hzero
        · exact hnot hmerged
    · intro hfiles hreplace w' hw'
      exact replace_ends env hsrc hdst hsep hexists hintact (Or.inl ⟨hfiles, hreplace⟩) hw'
    · intro hdirs hintegrate hsrcNe hdstNe entries w' hdread hw'
      have hintact' : Intact d p w' := hintact.of_disk hw'.disk
      have hnodup : (entries.map DirEntry.name).Nodup := by
        rw [hdread]
        exact nodup_names env _ _
      refine integrate_ends env hsrc hsep hdirs hintact (Or.inr ⟨hdirs, hintegrate⟩) hw'
        (moveRounds_ends hsep hnodup hintact' ?_)
      intro entry hmem u hu
      have hentry : d.look (p ++ [entry.name]) ≠ none := by
        have hmem' := mem_of_dread (hdread ▸ hmem)
        rwa [hintact] at hmem'
      rw [hfits.newPath hentry, hfits'.newPath hentry]
      refine ih ?_ ?_ (hsep.append [entry.name]) hentry hu (hfits.joined _) (hfits'.joined _)
      · rw [locate_joined (hsrc ▸ hsrcNe), hsrc]
      · rw [locate_joined (hdst ▸ hdstNe), hdst]

theorem movePath_absent (fuel : ℕ) {srcPath dstPath : CStr} {w : World}
    (habsent : w.disk.look (locate srcPath) = none) :
    Ends (fun _ => True) (fun _ w' => w'.disk = w.disk) (movePath env flags fuel srcPath dstPath w) := by
  cases fuel with
  | zero => trivial
  | succ fuel =>
    refine movePath_level env rfl rfl ?_ ?_ ?_ ?_ ?_
    · exact fun _ _ _ _ hw' => hw'.disk
    · exact fun _ hsource => absurd habsent hsource
    · exact fun _ _ _ _ hw' => hw'.disk
    · rintro ⟨content, -, hfile, -⟩
      rw [habsent] at hfile
      cases hfile
    · rintro ⟨hdir, -⟩
      rw [habsent] at hdir
      cases hdir

end Run

/-- The steps of a run from `w` to `w'`. -/
def stepsFrom (w w' : World) : List Step := w'.trace.drop w.trace.length

/-- **Moving a tree.** When `movePath` returns a positive value, the tree is at the destination and no more
at the source if and only if there was no source, or no entry of it has its counterpart at or below the
source, and every rename has succeeded or met two entries that it may merge, and every directory merged
has been removed. -/
theorem movePath_moved_iff (env : Env) (flags : UInt32) (fuel : ℕ) (srcPath dstPath : CStr) (w w' : World)
    (ret : ℤ) (hsrc : FitsAs w.disk (locate srcPath) srcPath) (hdst : FitsAs w.disk (locate srcPath) dstPath)
    (hrun : movePath env flags fuel srcPath dstPath w = .ok ret w') (hret : 0 < ret) :
    Moved w.disk.look (locate srcPath) (locate dstPath) w'.disk.look ↔
      w.disk.look (locate srcPath) = none ∨
        Separate w.disk.look (locate srcPath) (locate dstPath) ∧ AllComplete flags (stepsFrom w w') := by
  by_cases hexists : w.disk.look (locate srcPath) = none
  · have hends : Ends (fun _ => True) (fun _ u => u.disk = w.disk)
        (movePath env flags fuel srcPath dstPath w) := movePath_absent env fuel hexists
    rw [hrun] at hends
    have hdisk : w'.disk = w.disk := hends
    have hnone := w.disk.none_below hexists
    refine iff_of_true ⟨fun rel => ?_, mirrors_of_none hnone⟩ (Or.inl hexists)
    rw [hdisk, hnone]
  · rw [or_iff_right hexists]
    by_cases hsep : Separate w.disk.look (locate srcPath) (locate dstPath)
    · have hends : Ends (fun _ => True) (MoveRuns flags w.disk (locate srcPath) (locate dstPath) w)
          (movePath env flags fuel srcPath dstPath w) :=
        movePath_ends env fuel rfl rfl hsep hexists (fun _ => rfl) hsrc hdst
      rw [hrun] at hends
      obtain ⟨steps, htrace, hshifts, hgone⟩ := hends
      have hsteps : stepsFrom w w' = steps := by rw [stepsFrom, htrace, List.drop_left]
      rw [and_iff_right hsep, hshifts.moved_iff, hsteps, (hgone hret).2]
    · exact iff_of_false (fun hmoved => hsep hmoved.separate) fun h => hsep h.1

theorem movePath_moved_iff_small : ∃ w', movePath calmEnv 0 maxPathLength (bytes "ux0:a") (bytes "ux0:c")
      (World.start smallDisk) = .ok 1 w' ∧
    (Moved smallDisk.look (locate (bytes "ux0:a")) (locate (bytes "ux0:c")) w'.disk.look ↔
      smallDisk.look (locate (bytes "ux0:a")) = none ∨
        Separate smallDisk.look (locate (bytes "ux0:a")) (locate (bytes "ux0:c")) ∧
          AllComplete 0 (stepsFrom (World.start smallDisk) w')) :=
  ⟨_, rfl, movePath_moved_iff calmEnv 0 maxPathLength (bytes "ux0:a") (bytes "ux0:c")
    (World.start smallDisk) _ 1 (fitsAs_of_locs (by decide +kernel)) (fitsAs_of_locs (by decide +kernel))
    rfl (by decide)⟩

def refusingEnv : Env := { calmEnv with answer := fun _ => .error einval }

/-- The rename fails with a code that is not `SCE_ERROR_ERRNO_EEXIST`, and `movePath` answers 1. -/
theorem movePath_rename_fails : ∃ w', movePath refusingEnv (moveIntegrate ||| moveReplace) maxPathLength
      (bytes "ux0:a") (bytes "ux0:c") (World.start smallDisk) = .ok 1 w' ∧
    w'.disk.look (locate (bytes "ux0:a")) = some .dir ∧ w'.disk.look (locate (bytes "ux0:c")) = none := by
  refine ⟨_, rfl, ?_, ?_⟩
  · decide +kernel
  · decide +kernel

end VitaConnect.Files

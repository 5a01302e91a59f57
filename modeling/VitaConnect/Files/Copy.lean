import VitaConnect.Files.CopyFile
import VitaConnect.Storage.Mirror

/-! # Copying a tree

`copyPath` takes `SCE_ERROR_ERRNO_EEXIST` of `sceIoMkdir` for a directory that is there already. Nothing
but counterparts of the source is written, so the copies of the entries of one directory do not meet, and
the whole copy is right when every one of them is.
-/
namespace VitaConnect.Files
open CString Program Storage
set_option autoImplicit false

/-! ## Steps -/

/-- Where the entry `l` at or below `src` belongs. -/
def counterpart (src dst l : Loc) : Loc := dst ++ l.drop src.length

/-- A directory is made unless one is there, and the entries that a listing withholds are there already. -/
def Step.Carries (src dst : Loc) (s : Step) : Prop :=
  match s.call with
  | .mkdir loc ret => 0 ≤ ret ∨ s.before.look loc = some .dir
  | .dopen dir (.ok entries) => ∀ name ∈ s.before.children dir, name ∉ entries.map DirEntry.name →
    Mirrors s.before.look s.before.look (dir ++ [name]) (counterpart src dst dir ++ [name])
  | _ => True

def AllCarry (src dst : Loc) (steps : List Step) : Prop := ∀ s ∈ steps, s.Carries src dst

theorem allCarry_append {src dst : Loc} {s t : List Step} :
    AllCarry src dst (s ++ t) ↔ AllCarry src dst s ∧ AllCarry src dst t := List.forall_mem_append

theorem allCarry_singleton {src dst : Loc} {s : Step} : AllCarry src dst [s] ↔ s.Carries src dst :=
  List.forall_mem_singleton

theorem Step.OnFile.carries {s : Step} (h : s.OnFile) (src dst : Loc) : s.Carries src dst := by
  obtain ⟨call, before, after⟩ := s
  cases call with
  | dopen => exact h.elim
  | mkdir => exact h.elim
  | rmdir => exact h.elim
  | rename => exact h.elim
  | _ => trivial

/-! ## Runs -/

section Run
variable (env : Env) {S D : Loc} (hapart : Apart S D) {d : Disk}

/-- What a run does for the entry at `r`: it writes counterparts only, and when it answers 1 it has copied
if all its steps carry. -/
def TreeRuns (d : Disk) (S D r : Loc) (w : World) (ret : ℤ) (w' : World) : Prop :=
  ∃ steps, w'.trace = w.trace ++ steps ∧ Writes d.look (S ++ r) (D ++ r) w.disk.look w'.disk.look ∧
    (0 < ret → ret = 1 ∧ (WritesFull steps →
      (Mirrors d.look w'.disk.look (S ++ r) (D ++ r) ↔ AllCarry S D steps)))

theorem treeRuns_refused {r : Loc} {w w' : World} {ret : ℤ} {steps : List Step}
    (htrace : w'.trace = w.trace ++ steps)
    (hwrites : Writes d.look (S ++ r) (D ++ r) w.disk.look w'.disk.look) (hret : ret ≤ 0) :
    TreeRuns d S D r w ret w' := ⟨steps, htrace, hwrites, fun hpos => absurd hpos hret.not_gt⟩

include hapart in
theorem Intact.writes {r : Loc} {w w' : World} (h : Intact d S w)
    (hwrites : Writes d.look (S ++ r) (D ++ r) w.disk.look w'.disk.look) : Intact d S w' := fun rel => by
  rw [hwrites _ (not_counterpart_of_apart hapart r rel), h]

include hapart in
theorem copyFile_treeRuns (param : Option FileProcessParam) {srcPath dstPath : CStr} {r : Loc} {w : World}
    (hsrc : locate srcPath = S ++ r) (hdst : locate dstPath = D ++ r) (hsource : Intact d S w) :
    Ends (fun _ => False) (TreeRuns d S D r w) (copyFile env param srcPath dstPath w) := by
  refine ends_mono (copyFile_ends env param srcPath dstPath w) ?_
  rintro ret w' ⟨steps, hran, hends⟩
  rw [hsrc, hdst] at hends
  rw [hdst] at hran
  cases hends with
  | refused hret hclosed hdisk =>
    exact treeRuns_refused hran.trace (by rw [hdisk]; exact Writes.refl _ _ _ _) hret.le
  | same heq => exact absurd heq (hapart.append_ne r r)
  | copied hne content hfile hopened hends =>
    rw [hsource] at hfile
    have hwrites : Writes d.look (S ++ r) (D ++ r) w.disk.look w'.disk.look :=
      writes_of_update (by rw [hfile]; exact Option.some_ne_none _) hran.frame
    cases hends with
    | stopped hret => exact treeRuns_refused hran.trace hwrites hret
    | finished hret hcalm new hlook hfull hshort =>
      refine ⟨steps, hran.trace, hwrites, fun _ => ⟨hret, fun hwhole => ?_⟩⟩
      rw [mirrors_file_iff hfile, hlook, hfull hwhole, List.nil_append]
      exact iff_of_true rfl fun s hs => (hran.onFile s hs).carries S D

/-! ## Rounds -/

/-- The named entries of the directory at `r` have been written, and they are all mirrored if all steps
carry. -/
def CopiedAll (d : Disk) (S D r : Loc) (w : World) (names : List Name) (w' : World) : Prop :=
  ∃ steps, w'.trace = w.trace ++ steps ∧ WritesEach d.look (S ++ r) (D ++ r) names w.disk.look w'.disk.look ∧
    (WritesFull steps → ((∀ n ∈ names, Mirrors d.look w'.disk.look (S ++ r ++ [n]) (D ++ r ++ [n])) ↔
      AllCarry S D steps))

/-- The copying has come to an end in between. -/
def Refused (d : Disk) (S D r : Loc) (w w' : World) : Prop :=
  ∃ steps, w'.trace = w.trace ++ steps ∧ Writes d.look (S ++ r) (D ++ r) w.disk.look w'.disk.look

theorem copiedAll_nil (r : Loc) (w : World) : CopiedAll d S D r w [] w := by
  refine ⟨[], (List.append_nil _).symm, fun _ _ => rfl, fun _ => ?_⟩
  exact iff_of_true (List.forall_mem_nil _) (List.forall_mem_nil _)

/-- One more entry is copied; the mirrors of the others are not touched. -/
theorem CopiedAll.concat {r : Loc} {w w' w'' : World} {names : List Name} {n : Name} {ret : ℤ}
    (h : CopiedAll d S D r w names w') (hn : n ∉ names) (hrun : TreeRuns d S D (r ++ [n]) w' ret w'')
    (hret : 0 < ret) : CopiedAll d S D r w (names ++ [n]) w'' := by
  obtain ⟨steps, htrace, hwrites, hcopied⟩ := h
  obtain ⟨steps', htrace', hwrites', hends⟩ := hrun
  obtain ⟨-, hcopied'⟩ := hends hret
  rw [← List.append_assoc, ← List.append_assoc] at hwrites' hcopied'
  refine ⟨steps ++ steps', ?_, hwrites.concat hwrites', fun hwhole => ?_⟩
  · rw [htrace', htrace, List.append_assoc]
  obtain ⟨hwhole, hwhole'⟩ := writesFull_append.mp hwhole
  rw [allCarry_append, ← hcopied hwhole, ← hcopied' hwhole', List.forall_mem_append,
    List.forall_mem_singleton]
  refine and_congr_left fun _ => forall₂_congr fun m hm => mirrors_congr fun rel => ?_
  have hne : n ≠ m := by
    rintro rfl
    exact hn hm
  exact hwrites' _ (not_counterpart_sibling hne rel)

theorem CopiedAll.refused {r : Loc} {w w' w'' : World} {names : List Name} {n : Name} {ret : ℤ}
    (h : CopiedAll d S D r w names w') (hrun : TreeRuns d S D (r ++ [n]) w' ret w'') :
    Refused d S D r w w'' := by
  obtain ⟨steps, htrace, hwrites, -⟩ := h
  obtain ⟨steps', htrace', hwrites', -⟩ := hrun
  rw [← List.append_assoc, ← List.append_assoc] at hwrites'
  exact ⟨steps ++ steps', by rw [htrace', htrace, List.append_assoc], hwrites.writes.trans hwrites'.widen⟩

include hapart in
theorem Intact.copied {r : Loc} {w w' : World} {names : List Name} (h : Intact d S w)
    (hcopied : CopiedAll d S D r w names w') : Intact d S w' := by
  obtain ⟨-, -, hwrites, -⟩ := hcopied
  exact h.writes hapart hwrites.writes

include hapart in
theorem copyRounds_ends {r : Loc} {entries : List DirEntry} {f : DirEntry → FileM ℤ} {w : World}
    (hnodup : (entries.map DirEntry.name).Nodup) (hsource : Intact d S w)
    (hround : ∀ entry ∈ entries, ∀ w', Intact d S w' →
      Ends (fun _ => False) (TreeRuns d S D (r ++ [entry.name]) w') (f entry w')) :
    Ends (fun _ => False) (fun ret w' =>
        Continues (CopiedAll d S D r w (entries.map DirEntry.name)) (fun _ => Refused d S D r w) ret w' ∧
          (0 < ret → ret = 1))
      (untilRefused f entries w) := by
  refine triple_untilRefused (P := fun done => CopiedAll d S D r w (done.map DirEntry.name))
    (Q := fun _ => Refused d S D r w) ?_ w (copiedAll_nil r w)
  intro done entry rest hentries w' hcopied
  obtain ⟨hmem, hn⟩ := round_item hnodup hentries
  refine ends_mono (hround entry hmem w' (hsource.copied hapart hcopied)) fun ret w'' hrun => ?_
  by_cases hret : 0 < ret
  · rw [continues_of_pos hret, List.map_append]
    exact hcopied.concat hn hrun hret
  · rw [continues_of_not_pos hret]
    exact hcopied.refused hrun

/-! ## The run -/

/-- The directory at `r` has been listed and made, and nothing is copied into it yet. -/
structure Entered (d : Disk) (S D r : Loc) (entries : List DirEntry) (w w' : World) (steps : List Step) :
    Prop where
  trace : w'.trace = w.trace ++ steps
  full : WritesFull steps
  frame : ∀ l, l ≠ D ++ r → w'.disk.look l = w.disk.look l
  carries : AllCarry S D steps ↔ w'.disk.look (D ++ r) = some .dir ∧
    ∀ n ∈ w.disk.children (S ++ r), n ∉ entries.map DirEntry.name →
      Mirrors w.disk.look w.disk.look (S ++ r ++ [n]) (D ++ r ++ [n])

/-- The whole copy, from the directory itself, the entries listed and the entries withheld. -/
theorem Entered.copied {r : Loc} {entries : List DirEntry} {w w' w'' : World} {steps : List Step}
    (h : Entered d S D r entries w w' steps) (hdir : d.look (S ++ r) = some .dir)
    (hsource : Intact d S w)
    (hcopied : CopiedAll d S D r w' (entries.map DirEntry.name) w'') : TreeRuns d S D r w 1 w'' := by
  obtain ⟨rounds, htrace, hwrites, hrounds⟩ := hcopied
  have hwritten : Writes d.look (S ++ r) (D ++ r) w.disk.look w'.disk.look :=
    writes_of_update (by rw [hdir]; exact Option.some_ne_none _) h.frame
  refine ⟨steps ++ rounds, ?_, hwritten.trans hwrites.writes, fun _ => ⟨rfl, fun hwhole => ?_⟩⟩
  · rw [htrace, h.trace, List.append_assoc]
  have hchildren : ∀ n, n ∈ w.disk.children (S ++ r) ↔ n ∈ d.children (S ++ r) := fun n => by
    rw [FileSystem.mem_children, FileSystem.mem_children, List.append_assoc, hsource]
  have hwithheld (n : Name) (hn : n ∉ entries.map DirEntry.name) :
      Mirrors w.disk.look w.disk.look (S ++ r ++ [n]) (D ++ r ++ [n]) ↔
        Mirrors d.look w''.disk.look (S ++ r ++ [n]) (D ++ r ++ [n]) := by
    rw [mirrors_congr_left fun rel => ?_, mirrors_congr fun rel => ?_]
    · rw [hwrites.other hn]
      refine (h.frame _ fun heq => ?_).symm
      rw [List.append_assoc, List.append_right_eq_self] at heq
      exact List.append_ne_nil_of_left_ne_nil (List.cons_ne_nil n []) rel heq
    · rw [List.append_assoc, List.append_assoc, hsource]
  rw [allCarry_append, h.carries, ← hrounds (writesFull_append.mp hwhole).2,
    mirrors_dir_iff hdir (entries.map DirEntry.name), hwrites.above, and_assoc]
  refine and_congr_right fun _ => ?_
  rw [and_comm]
  refine and_congr_left fun _ => ?_
  exact ⟨fun hall n hn hnot => (hwithheld n hnot).mpr (hall n ((hchildren n).mp hn) hnot),
    fun hall n hn hnot => (hwithheld n hnot).mp (hall n ((hchildren n).mpr hn) hnot)⟩

theorem progress_carries (param : Option FileProcessParam) (amount : ℕ) (w : World) :
    ∃ cancelled w' steps, progress env param amount w = .ok cancelled w' ∧ w'.disk = w.disk ∧
      w'.trace = w.trace ++ steps ∧ WritesFull steps ∧ AllCarry S D steps := by
  obtain ⟨cancelled, w', hrun, hdisk, -, ⟨-, htrace⟩ | htrace⟩ := progress_cases env param amount w
  · refine ⟨cancelled, w', [], hrun, hdisk, ?_, List.forall_mem_nil _, List.forall_mem_nil _⟩
    rw [htrace, List.append_nil]
  · exact ⟨cancelled, w', _, hrun, hdisk, htrace, writesFull_singleton.mpr trivial,
      allCarry_singleton.mpr trivial⟩

theorem mkdir_carries {l : Loc} {ret : ℤ} {before after : Disk}
    (h : ret < 0 ∧ after = before ∨ ret = 0 ∧ before.look l = none ∧
      after.look = Function.update before.look l (some .dir)) :
    Step.Carries S D ⟨.mkdir l ret, before, after⟩ ↔ after.look l = some .dir := by
  rcases h with ⟨hret, rfl⟩ | ⟨hret, -, hlook⟩
  · exact or_iff_right hret.not_ge
  · rw [hlook, Function.update_self]
    exact iff_of_true (Or.inl hret.ge) rfl

theorem dopen_carries {r : Loc} {entries : List DirEntry} {before after : Disk} :
    Step.Carries S D ⟨.dopen (S ++ r) (.ok entries), before, after⟩ ↔
      ∀ n ∈ before.children (S ++ r), n ∉ entries.map DirEntry.name →
        Mirrors before.look before.look (S ++ r ++ [n]) (D ++ r ++ [n]) := by
  show (∀ n ∈ before.children (S ++ r), n ∉ entries.map DirEntry.name →
    Mirrors before.look before.look (S ++ r ++ [n]) (D ++ (S ++ r).drop S.length ++ [n])) ↔ _
  rw [List.drop_left]

/-- The making of the directory at the destination. -/
theorem enter_ends (param : Option FileProcessParam) {dstPath : CStr} {r : Loc} {w : World}
    {entries : List DirEntry} {next : FileM ℤ} (hdst : locate dstPath = D ++ r)
    (hdir : d.look (S ++ r) = some .dir)
    (hnext : ∀ w' steps, Entered d S D r entries w w' steps →
      Ends (fun _ => False) (TreeRuns d S D r w) (next w')) :
    Ends (fun _ => False) (TreeRuns d S D r w)
      ((do
        let ret ← sceIoMkdir env dstPath
        if ret < 0 ∧ ret ≠ eexist.1 then pure ret
        else if ← progress env param directorySize then pure 0
        else next : FileM ℤ) (w.did (.dopen (S ++ r) (.ok entries)) w.disk)) := by
  obtain ⟨ret, disk, hmkdir, hcases⟩ :=
    sceIoMkdir_cases env dstPath (w.did (.dopen (S ++ r) (.ok entries)) w.disk)
  rw [hdst] at hmkdir hcases
  have hframe : ∀ l, l ≠ D ++ r → disk.look l = w.disk.look l := by
    rcases hcases with ⟨-, rfl⟩ | ⟨-, -, hlook⟩
    · exact fun _ _ => rfl
    · exact fun l hl => (congrFun hlook l).trans (Function.update_of_ne hl _ _)
  have hne : d.look (S ++ r) ≠ none := by
    rw [hdir]
    exact Option.some_ne_none _
  have hmade : Step.Carries S D ⟨.mkdir (D ++ r) ret, w.disk, disk⟩ ↔ disk.look (D ++ r) = some .dir :=
    mkdir_carries hcases
  have hentered : ((w.did (.dopen (S ++ r) (.ok entries)) w.disk).did (.mkdir (D ++ r) ret) disk).trace =
      w.trace ++ [⟨.dopen (S ++ r) (.ok entries), w.disk, w.disk⟩, ⟨.mkdir (D ++ r) ret, w.disk, disk⟩] :=
    List.append_assoc _ _ _
  refine ends_of_ok hmkdir (ends_ite (fun hret => ?_) fun hret => ?_)
  · exact treeRuns_refused hentered (writes_of_update hne hframe) hret.1.le
  obtain ⟨cancelled, w', tail, hrun, hdisk, htrace, hfull, htail⟩ := progress_carries env param directorySize
    ((w.did (.dopen (S ++ r) (.ok entries)) w.disk).did (.mkdir (D ++ r) ret) disk)
  have hframe' : ∀ l, l ≠ D ++ r → w'.disk.look l = w.disk.look l := by
    rw [hdisk]
    exact hframe
  have htrace' : w'.trace = w.trace ++
      ([⟨.dopen (S ++ r) (.ok entries), w.disk, w.disk⟩, ⟨.mkdir (D ++ r) ret, w.disk, disk⟩] ++ tail) := by
    rw [htrace, hentered, List.append_assoc]
  refine ends_of_ok hrun (ends_ite (fun _ => ?_) fun _ => ?_)
  · exact treeRuns_refused htrace' (writes_of_update hne hframe') (le_refl 0)
  · refine hnext w' _ ⟨htrace', ?_, hframe', ?_⟩
    · refine writesFull_append.mpr ⟨?_, hfull⟩
      intro s hs
      rcases List.mem_cons.mp hs with rfl | hs
      · trivial
      · rw [List.mem_singleton.mp hs]
        trivial
    · rw [allCarry_append, and_iff_left htail, ← List.singleton_append, allCarry_append, allCarry_singleton,
        allCarry_singleton, dopen_carries, hmade, hdisk]
      exact and_comm

include hapart in
/-- A round of `copyPath` copies one entry of the directory. -/
theorem copyRound_ends (param : Option FileProcessParam) (fuel : ℕ) {srcPath dstPath : CStr} {r : Loc}
    {entry : DirEntry} {w : World} (hsrc : locate srcPath = S ++ r) (hdst : locate dstPath = D ++ r)
    (hpath : S ++ r ≠ []) (hentry : d.look (S ++ r ++ [entry.name]) ≠ none)
    (hfits : FitsAs d (S ++ r) srcPath) (hfits' : FitsAs d (S ++ r) dstPath) (hsource : Intact d S w)
    (hrec : locate (joined srcPath entry.name.1) = S ++ (r ++ [entry.name]) →
      locate (joined dstPath entry.name.1) = D ++ (r ++ [entry.name]) →
      Ends (fun _ => False) (TreeRuns d S D (r ++ [entry.name]) w)
        (copyPath env param fuel (joined srcPath entry.name.1) (joined dstPath entry.name.1) w)) :
    Ends (fun _ => False) (TreeRuns d S D (r ++ [entry.name]) w)
      ((if entry.isDir then
          copyPath env param fuel (newPath srcPath entry.name.1) (newPath dstPath entry.name.1)
        else copyFile env param (newPath srcPath entry.name.1) (newPath dstPath entry.name.1)) w) := by
  have hpath' : D ++ r ≠ [] := by
    intro hnil
    exact hapart.2 ((List.append_eq_nil_iff.mp hnil).1 ▸ List.nil_prefix)
  have hsrc' : locate (joined srcPath entry.name.1) = S ++ (r ++ [entry.name]) := by
    rw [locate_joined (hsrc ▸ hpath), hsrc, List.append_assoc]
  have hdst' : locate (joined dstPath entry.name.1) = D ++ (r ++ [entry.name]) := by
    rw [locate_joined (hdst ▸ hpath'), hdst, List.append_assoc]
  rw [hfits.newPath hentry, hfits'.newPath hentry]
  exact ends_ite (fun _ => hrec hsrc' hdst') fun _ =>
    copyFile_treeRuns env hapart param hsrc' hdst' hsource

include hapart in
theorem copyPath_ends (param : Option FileProcessParam) (fuel : ℕ) {srcPath dstPath : CStr} {r : Loc}
    {w : World} (hsrc : locate srcPath = S ++ r) (hdst : locate dstPath = D ++ r)
    (hsource : Intact d S w) (hfits : FitsAs d (S ++ r) srcPath) (hfits' : FitsAs d (S ++ r) dstPath)
    (hfuel : maxPathLength ≤ srcPath.length + fuel) (hpos : 0 < fuel) :
    Ends (fun _ => False) (TreeRuns d S D r w) (copyPath env param fuel srcPath dstPath w) := by
  induction fuel generalizing srcPath dstPath r w with
  | zero => exact absurd hpos (lt_irrefl 0)
  | succ fuel ih =>
    unfold copyPath
    cases hguard : guard srcPath dstPath with
    | some code =>
      exact treeRuns_refused (List.append_nil _).symm (Writes.refl _ _ _ _) (guard_neg hguard).le
    | none =>
      obtain ⟨res, hopen, hentries⟩ := sceIoDopen_cases env srcPath w
      rw [hsrc] at hopen hentries
      refine ends_of_ok hopen ?_
      cases res with
      | error code =>
        refine ends_mono (copyFile_treeRuns env hapart param hsrc hdst hsource) ?_
        rintro ret w' ⟨steps, htrace, hwrites, hends⟩
        refine ⟨⟨.dopen (S ++ r) (.error code), w.disk, w.disk⟩ :: steps, ?_, hwrites, fun hret => ?_⟩
        · rw [htrace]
          exact List.append_assoc _ _ _
        · obtain ⟨hone, hcopied⟩ := hends hret
          refine ⟨hone, fun hwhole => ?_⟩
          rw [hcopied (List.forall_mem_cons.mp hwhole).2, AllCarry, AllCarry, List.forall_mem_cons]
          exact (and_iff_right trivial).symm
      | ok entries =>
        obtain ⟨hpath, hdir, hdread⟩ := hentries entries rfl
        have hdir' : d.look (S ++ r) = some .dir := by rw [← hsource, hdir]
        refine enter_ends env param hdst hdir' fun w' steps hentered => ?_
        have hsource' : Intact d S w' := fun rel => by
          rw [hentered.frame _ (hapart.append_ne rel r), hsource]
        have hnodup : (entries.map DirEntry.name).Nodup := by
          rw [hdread]
          exact nodup_names env _ _
        refine ends_mono (copyRounds_ends hapart (r := r) hnodup hsource' ?_) ?_
        · intro entry hmem u hu
          have hentry : d.look (S ++ r ++ [entry.name]) ≠ none := by
            have hmem' := mem_of_dread (hdread ▸ hmem)
            rwa [List.append_assoc, hsource, ← List.append_assoc] at hmem'
          obtain ⟨hfuel', hpos'⟩ := fuel_joined hfuel (hfits [entry.name] hentry)
          refine copyRound_ends env hapart param fuel hsrc hdst (hsrc ▸ hpath) hentry hfits hfits' hu
            fun hsrc' hdst' => ih hsrc' hdst' hu ?_ ?_ hfuel' hpos'
          · rw [← List.append_assoc]
            exact hfits.joined entry.name
          · rw [← List.append_assoc]
            exact hfits'.joined entry.name
        · rintro ret w'' ⟨hends, hone⟩
          by_cases hret : 0 < ret
          · obtain rfl := hone hret
            exact hentered.copied hdir' hsource ((continues_of_pos hret).mp hends)
          · obtain ⟨rounds, htrace, hwrites⟩ := (continues_of_not_pos hret).mp hends
            refine treeRuns_refused (by rw [htrace, hentered.trace, List.append_assoc]) ?_ (not_lt.mp hret)
            exact (writes_of_update (by rw [hdir']; exact Option.some_ne_none _) hentered.frame).trans hwrites

end Run

/-! ## Whole copies -/

/-- What is at and below `src` is at the same place below `dst`, the source is as it was, and so is what
`dst` has of its own. -/
structure CopiesTree (src dst : Loc) (d d' : Disk) : Prop where
  copied : ∀ rel, d.look (src ++ rel) ≠ none → d'.look (dst ++ rel) = d.look (src ++ rel)
  source : ∀ rel, d'.look (src ++ rel) = d.look (src ++ rel)
  others : ∀ rel, d.look (src ++ rel) = none → d'.look (dst ++ rel) = d.look (dst ++ rel)

/-- **Copying a tree.** `copyPath` ends. When it returns 1 and all its writes are full, the tree is copied
if and only if every directory has been made or was there already, and what `sceIoDread` did not deliver
was at the destination already. -/
theorem copyPath_copies_iff (env : Env) (param : Option FileProcessParam) (srcPath dstPath : CStr)
    (w : World) (hapart : Apart (locate srcPath) (locate dstPath))
    (hsrc : FitsAs w.disk (locate srcPath) srcPath) (hdst : FitsAs w.disk (locate srcPath) dstPath) :
    ∃ ret w' steps, copyPath env param maxPathLength srcPath dstPath w = .ok ret w' ∧
      w'.trace = w.trace ++ steps ∧
      (ret = 1 → WritesFull steps →
        (CopiesTree (locate srcPath) (locate dstPath) w.disk w'.disk ↔
          AllCarry (locate srcPath) (locate dstPath) steps)) := by
  have hends := copyPath_ends env hapart (d := w.disk) (r := []) (w := w) param maxPathLength
    (List.append_nil _).symm (List.append_nil _).symm (fun _ => rfl) (by rwa [List.append_nil])
    (by rwa [List.append_nil]) (Nat.le_add_left _ _) (by decide)
  obtain ⟨ret, w', hrun, steps, htrace, hwrites, hcopied⟩ := hends.exists_ok
  rw [List.append_nil, List.append_nil] at hwrites hcopied
  refine ⟨ret, w', steps, hrun, htrace, fun hret hwhole => ?_⟩
  rw [← (hcopied (by omega)).2 hwhole]
  refine ⟨fun h => h.copied, fun h => ⟨h, fun rel => ?_, fun rel hrel => ?_⟩⟩
  · have hkept := not_counterpart_of_apart (t := w.disk.look) (p := locate srcPath) hapart [] rel
    rw [List.append_nil] at hkept
    exact hwrites _ hkept
  · refine hwrites _ fun ⟨rel', hrel', heq⟩ => hrel' ?_
    rwa [← List.append_cancel_left heq]

theorem copyPath_copies_iff_small :
    ∃ ret w' steps, copyPath calmEnv none maxPathLength (bytes "ux0:a") (bytes "ux0:b")
        (World.start smallDisk) = .ok ret w' ∧ w'.trace = [] ++ steps ∧
      (ret = 1 → WritesFull steps →
        (CopiesTree (locate (bytes "ux0:a")) (locate (bytes "ux0:b")) smallDisk w'.disk ↔
          AllCarry (locate (bytes "ux0:a")) (locate (bytes "ux0:b")) steps)) :=
  copyPath_copies_iff calmEnv none (bytes "ux0:a") (bytes "ux0:b") (World.start smallDisk)
    ⟨by decide +kernel, by decide +kernel⟩ (fitsAs_of_locs (by decide +kernel))
    (fitsAs_of_locs (by decide +kernel))

/-- An empty directory `a` and a file `b`. -/
def collidingDisk : Disk := ((FileSystem.empty.put [device] .dir).put [device, nameA] .dir).put
  [device, nameB] (.file [1, 2])

/-- `sceIoMkdir` answers `SCE_ERROR_ERRNO_EEXIST` for the file, and `copyPath` answers 1. -/
theorem copyPath_onto_file :
    Apart (locate (bytes "ux0:a")) (locate (bytes "ux0:b")) ∧
    FitsAs collidingDisk (locate (bytes "ux0:a")) (bytes "ux0:a") ∧
    FitsAs collidingDisk (locate (bytes "ux0:a")) (bytes "ux0:b") ∧
    ∃ w', copyPath calmEnv none maxPathLength (bytes "ux0:a") (bytes "ux0:b")
        (World.start collidingDisk) = .ok 1 w' ∧
      collidingDisk.look (locate (bytes "ux0:a")) = some .dir ∧
      w'.disk.look (locate (bytes "ux0:b")) = some (.file [1, 2]) := by
  refine ⟨⟨by decide +kernel, by decide +kernel⟩, fitsAs_of_locs (by decide +kernel),
    fitsAs_of_locs (by decide +kernel), _, rfl, ?_, ?_⟩
  · decide +kernel
  · decide +kernel

end VitaConnect.Files

import VitaConnect.Files.Outcomes

/-! # Removing a tree

`removePath` ends for every pattern of failures. It takes entries at and below its path away and changes
nothing else, and a directory is removed only when nothing is left in it.
-/
namespace VitaConnect.Files
open CString Program Storage
set_option autoImplicit false

/-! ## Paths that fit -/

/-- The paths of the entries at and below `p`, as they are from `path` on, are shorter than
`MAX_PATH_LENGTH`. -/
def FitsAs (d : Disk) (p : Loc) (path : CStr) : Prop :=
  ∀ rel, d.look (p ++ rel) ≠ none → (under path rel).length < maxPathLength

def Fits (d : Disk) (path : CStr) : Prop := FitsAs d (locate path) path

theorem FitsAs.newPath {d : Disk} {p : Loc} {path : CStr} (h : FitsAs d p path) {name : Name}
    (hname : d.look (p ++ [name]) ≠ none) : newPath path name.1 = joined path name.1 :=
  newPath_of_fits (h [name] hname)

theorem FitsAs.joined {d : Disk} {p : Loc} {path : CStr} (h : FitsAs d p path) (name : Name) :
    FitsAs d (p ++ [name]) (joined path name.1) := by
  intro rel hrel
  rw [List.append_assoc] at hrel
  exact h (name :: rel) hrel

theorem FitsAs.mono {d d' : Disk} {p : Loc} {path : CStr} (h : FitsAs d p path)
    (hmono : ∀ rel, d'.look (p ++ rel) ≠ none → d.look (p ++ rel) ≠ none) :
    FitsAs d' p path := fun rel hrel => h rel (hmono rel hrel)

theorem Fits.joined {d : Disk} {path : CStr} (h : Fits d path) (hpath : locate path ≠ []) (name : Name) :
    Fits d (joined path name.1) := by
  unfold Fits
  rw [locate_joined hpath]
  exact FitsAs.joined h name

theorem mem_entriesOf {d : Disk} {l : Loc} {entry : DirEntry} (h : entry ∈ entriesOf d l) :
    d.look (l ++ [entry.name]) ≠ none := by
  obtain ⟨name, hname, rfl⟩ := List.mem_map.mp h
  have hlook := FileSystem.mem_children.mp hname
  split <;> exact hlook

theorem mem_of_dread {env : Env} {d : Disk} {l : Loc} {entry : DirEntry}
    (h : entry ∈ env.dread l (entriesOf d l)) : d.look (l ++ [entry.name]) ≠ none :=
  mem_entriesOf ((env.dread_subperm l _).subset h)

theorem map_name_entriesOf (d : Disk) (l : Loc) : (entriesOf d l).map DirEntry.name = d.children l := by
  rw [entriesOf, List.map_map]
  refine (List.map_congr_left fun name _ => ?_).trans (List.map_id _)
  rw [Function.comp_apply]
  split <;> rfl

theorem nodup_names (env : Env) (d : Disk) (l : Loc) :
    ((env.dread l (entriesOf d l)).map DirEntry.name).Nodup := by
  obtain ⟨kept, hperm, hsublist⟩ := env.dread_subperm l (entriesOf d l)
  rw [← (hperm.map DirEntry.name).nodup_iff]
  have hnodup := FileSystem.nodup_children d l
  rw [← map_name_entriesOf] at hnodup
  exact hnodup.sublist (hsublist.map DirEntry.name)

/-! ## What is removed -/

/-- Entries at and below `p` may have gone, and nothing else has changed. -/
structure Removed (p : Loc) (d d' : Disk) : Prop where
  outside : ∀ l, ¬ p <+: l → d'.look l = d.look l
  below : ∀ l, d'.look l = none ∨ d'.look l = d.look l

theorem Removed.refl (p : Loc) (d : Disk) : Removed p d d := ⟨fun _ _ => rfl, fun _ => Or.inr rfl⟩

theorem Removed.trans {p : Loc} {d d' d'' : Disk} (h : Removed p d d') (h' : Removed p d' d'') :
    Removed p d d'' where
  outside l hl := (h'.outside l hl).trans (h.outside l hl)
  below l := by
    rcases h'.below l with hnone | hsame
    · exact Or.inl hnone
    · rw [hsame]
      exact h.below l

theorem Removed.widen {p rel : Loc} {d d' : Disk} (h : Removed (p ++ rel) d d') : Removed p d d' where
  outside l hl := h.outside l fun hbegins => hl ((List.prefix_append p rel).trans hbegins)
  below := h.below

theorem removed_update {p : Loc} {d d' : Disk} (h : d'.look = Function.update d.look p none) :
    Removed p d d' where
  outside l hl := by
    have hne : l ≠ p := fun heq => hl (heq ▸ List.prefix_refl p)
    rw [h, Function.update_of_ne hne]
  below l := by
    rw [h]
    by_cases hl : l = p
    · exact Or.inl (by rw [hl, Function.update_self])
    · exact Or.inr (Function.update_of_ne hl _ _)

theorem Removed.mono {p : Loc} {d d' : Disk} (h : Removed p d d') {l : Loc} (hl : d'.look l ≠ none) :
    d.look l ≠ none := by
  rcases h.below l with hnone | hsame
  · exact absurd hnone hl
  · rwa [hsame] at hl

/-- What is still there is as it was, and so are the directories above it. -/
theorem Removed.intact {p : Loc} {d d' : Disk} (h : Removed p d d') {l rel : Loc}
    (hl : d'.look (l ++ rel) ≠ none) :
    d'.look l = d.look l ∧ (rel ≠ [] → d'.look l = some .dir) := by
  refine ⟨?_, fun hrel => d'.dir_above hl hrel⟩
  rcases h.below l with hnone | hsame
  · exact absurd hnone (d'.exists_above hl)
  · exact hsame

/-! ## The run -/

def Gone (p : Loc) (d : Disk) : Prop := ∀ rel, d.look (p ++ rel) = none

theorem gone_of_none {p : Loc} {d : Disk} (h : d.look p = none) : Gone p d := d.none_below h

/-- What `removePath` may do at `p` from the disk `d` on. -/
def RemovesAt (p : Loc) (d : Disk) (ret : ℤ) (w : World) : Prop :=
  Removed p d w.disk ∧ (0 < ret → Gone p w.disk)

section Run
variable (env : Env) (param : Option FileProcessParam)

/-- The report of the progress behind a removal. -/
theorem removed_progress {p : Loc} {d : Disk} {w : World} (hremoved : Removed p d w.disk)
    (hgone : Gone p w.disk) : Ends (fun _ => False) (RemovesAt p d)
      ((do if ← progress env param 1 then pure 0 else pure 1 : FileM ℤ) w) := by
  obtain ⟨cancelled, w', hrun, hdisk, -⟩ := progress_cases env param 1 w
  have hends (ret : ℤ) : RemovesAt p d ret w' := by
    rw [RemovesAt, hdisk]
    exact ⟨hremoved, fun _ => hgone⟩
  exact ends_of_ok hrun (ends_ite (fun _ => hends 0) fun _ => hends 1)

theorem removeFileAt_ends (path : CStr) (w : World) :
    Ends (fun _ => False) (RemovesAt (locate path) w.disk) (removeFileAt env param path w) := by
  obtain ⟨ret, disk, hrun, hcases⟩ := sceIoRemove_cases env path w
  refine ends_of_ok hrun (ends_ite (fun hret => ?_) fun hret => ?_)
  · rcases hcases with ⟨-, rfl⟩ | ⟨rfl, -, -⟩
    · exact ⟨Removed.refl _ _, fun hpos => absurd hpos hret.not_gt⟩
    · exact absurd hret (lt_irrefl 0)
  · rcases hcases with ⟨hfails, -⟩ | ⟨-, -, hlook⟩
    · exact absurd hfails hret
    · refine removed_progress env param (removed_update hlook) (gone_of_none ?_)
      show disk.look _ = none
      rw [hlook, Function.update_self]

/-- A round of `removePath` removes at one entry of the directory. -/
theorem removeRound_ends {fuel : ℕ} {path : CStr} {d : Disk} {entry : DirEntry} (hpath : locate path ≠ [])
    (hentry : d.look (locate path ++ [entry.name]) ≠ none) (hfits : Fits d path)
    (hrec : ∀ w, Fits w.disk (joined path entry.name.1) → Ends (fun _ => False)
      (RemovesAt (locate path ++ [entry.name]) w.disk)
      (removePath env param fuel (joined path entry.name.1) w)) (w : World)
    (hw : Removed (locate path) d w.disk) :
    Ends (fun _ => False) (fun _ w' => Removed (locate path) d w'.disk)
      ((if entry.isDir then removePath env param fuel (newPath path entry.name.1)
        else removeFileAt env param (newPath path entry.name.1)) w) := by
  have hlocate : locate (joined path entry.name.1) = locate path ++ [entry.name] :=
    locate_joined hpath entry.name
  rw [FitsAs.newPath hfits hentry]
  refine ends_ite (fun _ => ?_) fun _ => ?_
  · have hfits' : Fits w.disk (joined path entry.name.1) :=
      FitsAs.mono (hfits.joined hpath entry.name) fun rel hrel => hw.mono hrel
    exact ends_mono (hrec w hfits') fun _ _ h => hw.trans h.1.widen
  · have hround := removeFileAt_ends env param (joined path entry.name.1) w
    rw [hlocate] at hround
    exact ends_mono hround fun _ _ h => hw.trans h.1.widen

/-- The levels that the recursion can still go down are enough for the entries of the directory. -/
theorem fuel_joined {fuel : ℕ} {path : CStr} {name : Name} (hfuel : maxPathLength ≤ path.length + (fuel + 1))
    (hlength : (joined path name.1).length < maxPathLength) :
    maxPathLength ≤ (joined path name.1).length + fuel ∧ 0 < fuel := by
  have hlonger := joined_length_gt path name
  omega

theorem removePath_ends (fuel : ℕ) (path : CStr) (w : World) (hfits : Fits w.disk path)
    (hfuel : maxPathLength ≤ path.length + fuel) (hpos : 0 < fuel) :
    Ends (fun _ => False) (RemovesAt (locate path) w.disk) (removePath env param fuel path w) := by
  induction fuel generalizing path w with
  | zero => exact absurd hpos (lt_irrefl 0)
  | succ fuel ih =>
    obtain ⟨res, hopen, hentries⟩ := sceIoDopen_cases env path w
    refine ends_of_ok hopen ?_
    cases res with
    | error code => exact removeFileAt_ends env param path _
    | ok entries =>
      obtain ⟨hpath, -, rfl⟩ := hentries entries rfl
      refine ends_bind (Q := fun _ w' => Removed (locate path) w.disk w'.disk)
        (ends_untilRefused (P := fun (w' : World) => Removed (locate path) w.disk w'.disk)
          ?_ ?_) fun ret w' hremoved => ?_
      · intro entry hmem w' hw'
        have hentry := mem_of_dread hmem
        obtain ⟨hfuel', hpos'⟩ := fuel_joined hfuel (hfits [entry.name] hentry)
        refine removeRound_ends env param hpath hentry hfits (fun u hu => ?_) w' hw'
        rw [← locate_joined hpath]
        exact ih _ u hu hfuel' hpos'
      · exact Removed.refl _ _
      refine ends_ite (fun hret => ⟨hremoved, fun hpos => absurd hpos hret.not_gt⟩) fun _ => ?_
      obtain ⟨ret', disk, hrun, hcases⟩ := sceIoRmdir_cases env path w'
      refine ends_of_ok hrun (ends_ite (fun hret => ?_) fun hret => ?_)
      · rcases hcases with ⟨-, rfl⟩ | ⟨rfl, -, -, -⟩
        · exact ⟨hremoved, fun hpos => absurd hpos hret.not_gt⟩
        · exact absurd hret (lt_irrefl 0)
      · rcases hcases with ⟨hfails, -⟩ | ⟨-, -, hempty, hlook⟩
        · exact absurd hfails hret
        · refine removed_progress env param (hremoved.trans (removed_update hlook)) (gone_of_none ?_)
          show disk.look _ = none
          rw [hlook, Function.update_self]

end Run

/-- **Removing.** `removePath(path, NULL)` ends. When it returns 1, nothing is left at or below the path;
nothing outside has changed, and what is left below is as it was, together with the directories above it. -/
theorem removePath_total (env : Env) (w : World) (path : CStr) (hfits : Fits w.disk path) :
    ∃ ret w', removePath env none maxPathLength path w = .ok ret w' ∧
      (ret = 1 → ∀ rel, w'.disk.look (locate path ++ rel) = none) ∧
      (∀ l, ¬ locate path <+: l → w'.disk.look l = w.disk.look l) ∧
      ∀ dir rel, w'.disk.look (locate path ++ dir ++ rel) ≠ none →
        w'.disk.look (locate path ++ dir) = w.disk.look (locate path ++ dir) ∧
          (rel ≠ [] → w'.disk.look (locate path ++ dir) = some .dir) := by
  have hends := removePath_ends env none maxPathLength path w hfits (Nat.le_add_left _ _) (by decide)
  obtain ⟨ret, w', hrun, hremoved, hgone⟩ := hends.exists_ok
  exact ⟨ret, w', hrun, fun hret => hgone (by omega), hremoved.outside, fun _ _ => hremoved.intact⟩

/-! ## Small trees -/

theorem fitsAs_of_locs {d : Disk} {p : Loc} {path : CStr} (h : ∀ l ∈ d.locs, p <+: l →
    (under path (l.drop p.length)).length < maxPathLength) : FitsAs d p path := by
  intro rel hrel
  have hpath := h _ (d.mem_locs _ hrel) (List.prefix_append _ _)
  rwa [List.drop_left] at hpath

def device : Name := ⟨bytes "ux0", by decide⟩

def nameA : Name := ⟨bytes "a", by decide⟩

def nameB : Name := ⟨bytes "b", by decide⟩

/-- `ux0:` with a directory `a` that holds a file `b`. -/
def smallDisk : Disk := ((FileSystem.empty.put [device] .dir).put [device, nameA] .dir).put
  [device, nameA, nameB] (.file [1, 2])

def World.start (d : Disk) : World where
  disk := d
  tick := 0
  trace := []
  value := 0
  shown := []
  cancels := 0
  info := ⟨0, 0, 0⟩

def calmEnv : Env where
  answer := fun _ => .full
  dread := fun _ entries => entries
  dread_subperm := fun _ entries => List.Subperm.refl entries
  cancel := fun _ => false

theorem removePath_total_small :
    ∃ ret w', removePath calmEnv none maxPathLength (bytes "ux0:a") (World.start smallDisk) = .ok ret w' ∧
      (ret = 1 → ∀ rel, w'.disk.look (locate (bytes "ux0:a") ++ rel) = none) := by
  have hfits : Fits smallDisk (bytes "ux0:a") := fitsAs_of_locs (by decide +kernel)
  obtain ⟨ret, w', hrun, hgone, -⟩ :=
    removePath_total calmEnv (World.start smallDisk) (bytes "ux0:a") hfits
  exact ⟨ret, w', hrun, hgone⟩

end VitaConnect.Files

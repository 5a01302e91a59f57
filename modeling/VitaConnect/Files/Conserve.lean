import VitaConnect.Files.Move

/-! # What a move keeps

`movePath` renames entries of the source to their counterparts, removes files that are in the way and
removes directories that are empty. A file of the source is lost when the destination is a directory above
it: what is removed, or taken further, can then be a part of the source.
-/
namespace VitaConnect.Files
open CString Program Storage
set_option autoImplicit false

/-! ## Steps -/

/-- The disk behind each step is the disk before the next. -/
def Chained : Disk → List Step → Disk → Prop
  | d, [], d' => d' = d
  | d, s :: steps, d' => s.before = d ∧ Chained s.after steps d'

theorem Chained.append {d d' d'' : Disk} {s t : List Step} (h : Chained d s d') (h' : Chained d' t d'') :
    Chained d (s ++ t) d'' := by
  induction s generalizing d with
  | nil => exact h ▸ h'
  | cons step s ih => exact ⟨h.1, ih h.2⟩

theorem chained_singleton (s : Step) : Chained s.before [s] s.after := ⟨rfl, rfl⟩

/-- What a step of `movePath` does. -/
def Step.Moves (src dst : Loc) (s : Step) : Prop :=
  match s.call with
  | .rename loc loc' ret => (∃ rel, loc = src ++ rel ∧ loc' = dst ++ rel) ∧
      (ret < 0 ∧ s.after = s.before ∨ ret = 0 ∧ s.before.Movable loc loc' ∧
        s.after.look = s.before.look.move loc loc')
  | .remove loc ret => ret < 0 ∧ s.after = s.before ∨ ret = 0 ∧
      s.after.look = Function.update s.before.look loc none
  | .rmdir loc ret => ret < 0 ∧ s.after = s.before ∨ ret = 0 ∧ s.before.look loc = some .dir ∧
      s.after.look = Function.update s.before.look loc none
  | .dopen _ _ => s.after = s.before
  | _ => False

/-- The entry that a rename has brought to `l`. -/
def Step.Brings (l : Loc) (s : Step) : Prop := ∃ src, s.call = .rename src l 0

/-- The entry at `l` is renamed or removed. -/
def Step.Takes (l : Loc) (s : Step) : Prop := (∃ dst, s.call = .rename l dst 0) ∨ s.call = .remove l 0

/-- No file is removed at or below the source, and nothing is taken where an earlier step has brought
something. -/
structure Undisturbed (src : Loc) (steps : List Step) : Prop where
  outside : ∀ s ∈ steps, ∀ l, s.call = .remove l 0 → ¬ src <+: l
  apart : steps.Pairwise fun s s' => ∀ l l', s.Brings l → s'.Takes l' → Apart l l'

/-! ## Files -/

/-- Every file of the source is at its place or at its counterpart. -/
def Conserved (src dst : Loc) (d d' : Disk) : Prop := ∀ rel content,
  d.look (src ++ rel) = some (.file content) →
    d'.look (src ++ rel) = some (.file content) ∨ d'.look (dst ++ rel) = some (.file content)

/-- A file that is at its counterpart has been brought there by one of the steps done. -/
def Kept (src dst : Loc) (d : Disk) (done : List Step) (d' : Disk) : Prop := ∀ rel content,
  d.look (src ++ rel) = some (.file content) →
    d'.look (src ++ rel) = some (.file content) ∨
      d'.look (dst ++ rel) = some (.file content) ∧ ∃ s ∈ done, ∃ l, s.Brings l ∧ l <+: dst ++ rel

section Keep
variable {src dst : Loc} {d : Disk} {done : List Step}

theorem Kept.conserved {d' : Disk} (h : Kept src dst d done d') : Conserved src dst d d' :=
  fun rel content hfile => (h rel content hfile).imp id And.left

/-- A step that leaves every file which it may not take. -/
theorem Kept.same {d' d'' : Disk} {s : Step} (h : Kept src dst d done d')
    (hsource : ∀ rel content, d'.look (src ++ rel) = some (.file content) →
      d''.look (src ++ rel) = some (.file content))
    (hbrought : ∀ rel content t l, d'.look (dst ++ rel) = some (.file content) → t ∈ done → t.Brings l →
      l <+: dst ++ rel → d''.look (dst ++ rel) = some (.file content)) :
    Kept src dst d (done ++ [s]) d'' := by
  intro rel content hfile
  rcases h rel content hfile with hstays | ⟨hmoved, t, ht, l, hbrings, hbegins⟩
  · exact Or.inl (hsource rel content hstays)
  · exact Or.inr ⟨hbrought rel content t l hmoved ht hbrings hbegins, t, List.mem_append_left _ ht, l,
      hbrings, hbegins⟩

/-- What is neither moved nor at the new place stays. -/
theorem look_move_other {before after : Disk} {p q l : Loc} (h : before.Movable p q)
    (hlook : after.look = before.look.move p q) (hp : ¬ p <+: l) {e : Entry (List Byte)}
    (hl : before.look l = some e) : after.look l = some e := by
  have hq : ¬ q <+: l := by
    rintro ⟨rel, rfl⟩
    rw [before.none_below h.absent] at hl
    cases hl
  rw [hlook, FileSystem.move_apply, if_neg hq, if_neg hp, hl]

theorem Kept.rename {before after : Disk} {q : Loc} (h : Kept src dst d done before)
    (hmovable : before.Movable (src ++ q) (dst ++ q))
    (hlook : after.look = before.look.move (src ++ q) (dst ++ q))
    (hapart : ∀ t ∈ done, ∀ l, t.Brings l → Apart l (src ++ q)) :
    Kept src dst d (done ++ [⟨.rename (src ++ q) (dst ++ q) 0, before, after⟩]) after := by
  intro rel content hfile
  rcases h rel content hfile with hstays | ⟨hmoved, t, ht, l, hbrings, hbegins⟩
  · by_cases hq : q <+: rel
    · obtain ⟨x, rfl⟩ := hq
      refine Or.inr ⟨?_, _, List.mem_append_right _ (List.mem_singleton_self _), dst ++ q, ⟨_, rfl⟩, ?_⟩
      · have hbelow := congrFun (Tree.below_move_dst before.look (src ++ q) (dst ++ q)) x
        rw [Tree.below_apply, Tree.below_apply, List.append_assoc, List.append_assoc, hstays] at hbelow
        rw [hlook, hbelow]
      · rw [← List.append_assoc]
        exact List.prefix_append _ _
    · refine Or.inl (look_move_other hmovable hlook (fun hbegins => hq ?_) hstays)
      rwa [List.prefix_append_right_inj] at hbegins
  · refine Or.inr ⟨look_move_other hmovable hlook (fun htaken => ?_) hmoved, t, List.mem_append_left _ ht, l,
      hbrings, hbegins⟩
    obtain ⟨hl, hsrc⟩ := hapart t ht l hbrings
    rcases List.prefix_or_prefix_of_prefix hbegins htaken with hle | hge
    · exact hl hle
    · exact hsrc hge

/-- One step. -/
theorem Kept.step {s : Step} (h : Kept src dst d done s.before) (hmoves : s.Moves src dst)
    (houtside : ∀ l, s.call = .remove l 0 → ¬ src <+: l)
    (hapart : ∀ t ∈ done, ∀ l l', t.Brings l → s.Takes l' → Apart l l') :
    Kept src dst d (done ++ [s]) s.after := by
  obtain ⟨call, before, after⟩ := s
  have hstill (heq : after = before) : Kept src dst d (done ++ [⟨call, before, after⟩]) after := by
    rw [heq]
    exact h.same (fun _ _ hfile => hfile) fun _ _ _ _ hfile _ _ _ => hfile
  cases call with
  | rename loc loc' ret =>
    obtain ⟨⟨q, rfl, rfl⟩, ⟨-, heq⟩ | ⟨rfl, hmovable, hlook⟩⟩ := hmoves
    · exact hstill heq
    · exact h.rename hmovable hlook fun t ht l hbrings => hapart t ht l _ hbrings (Or.inl ⟨_, rfl⟩)
  | remove loc ret =>
    obtain ⟨-, heq⟩ | ⟨rfl, hlook⟩ := hmoves
    · exact hstill heq
    · have hother {l : Loc} {e : Entry (List Byte)} (hne : l ≠ loc) (hl : before.look l = some e) :
          after.look l = some e := (congrFun hlook l).trans ((Function.update_of_ne hne _ _).trans hl)
      refine h.same (fun rel content hfile => hother ?_ hfile) fun rel content t l hfile ht hbrings hbegins =>
        hother ?_ hfile
      · rintro rfl
        exact houtside _ rfl (List.prefix_append _ _)
      · rintro rfl
        exact (hapart t ht l _ hbrings (Or.inr rfl)).1 hbegins
  | rmdir loc ret =>
    obtain ⟨-, heq⟩ | ⟨rfl, hdir, hlook⟩ := hmoves
    · exact hstill heq
    · have hother {l : Loc} {content : List Byte} (hl : before.look l = some (.file content)) :
          after.look l = some (.file content) := by
        have hne : l ≠ loc := by
          rintro rfl
          rw [show before.look l = some .dir from hdir] at hl
          cases hl
        exact (congrFun hlook l).trans ((Function.update_of_ne hne _ _).trans hl)
      exact h.same (fun _ _ hfile => hother hfile) fun _ _ _ _ hfile _ _ _ => hother hfile
  | dopen dir answer => exact hstill hmoves
  | _ => exact hmoves.elim

/-- All steps: `done` are those behind. -/
theorem Kept.steps {steps : List Step} {d' d'' : Disk} (h : Kept src dst d done d')
    (hchained : Chained d' steps d'') (hmoves : ∀ s ∈ steps, s.Moves src dst)
    (hundisturbed : Undisturbed src (done ++ steps)) :
    (∀ s ∈ steps, Conserved src dst d s.after) ∧ Conserved src dst d d'' := by
  induction steps generalizing done d' with
  | nil => exact ⟨List.forall_mem_nil _, hchained ▸ h.conserved⟩
  | cons s steps ih =>
    obtain ⟨rfl, hrest⟩ := hchained
    obtain ⟨hmove, hmoves'⟩ := List.forall_mem_cons.mp hmoves
    have hstep : Kept src dst d (done ++ [s]) s.after := by
      refine h.step hmove (hundisturbed.outside s (List.mem_append_right _ List.mem_cons_self)) ?_
      exact fun t ht => (List.pairwise_append.mp hundisturbed.apart).2.2 t ht s List.mem_cons_self
    rw [List.append_cons] at hundisturbed
    obtain ⟨hafter, hend⟩ := ih hstep hrest hmoves' hundisturbed
    exact ⟨List.forall_mem_cons.mpr ⟨hstep.conserved, hafter⟩, hend⟩

end Keep
/-! ## The run -/

section Run
variable (env : Env) {flags : UInt32} {src dst : Loc} {srcPath dstPath : CStr}

/-- The run from `w` to `w'` is a chain of moving steps. -/
def Traced (src dst : Loc) (w w' : World) : Prop :=
  ∃ steps, w'.trace = w.trace ++ steps ∧ Chained w.disk steps w'.disk ∧ ∀ s ∈ steps, s.Moves src dst

theorem Traced.trans {w w' w'' : World} (h : Traced src dst w w') (h' : Traced src dst w' w'') :
    Traced src dst w w'' := by
  obtain ⟨steps, htrace, hchained, hmoves⟩ := h
  obtain ⟨steps', htrace', hchained', hmoves'⟩ := h'
  exact ⟨steps ++ steps', by rw [htrace', htrace, List.append_assoc], hchained.append hchained',
    List.forall_mem_append.mpr ⟨hmoves, hmoves'⟩⟩

theorem traced_did {w : World} {call : Call} {disk : Disk} (h : Step.Moves src dst ⟨call, w.disk, disk⟩) :
    Traced src dst w (w.did call disk) :=
  ⟨_, rfl, chained_singleton _, List.forall_mem_singleton.mpr h⟩

theorem Stays.traced {r : Loc} {w w' : World} {steps : List Step}
    (h : Stays (src ++ r) (dst ++ r) w w' steps) : Traced src dst w w' := by
  refine ⟨steps, h.trace, ?_, fun s hs => ?_⟩
  · rw [h.disk]
    have hquiet := h.quiet
    clear h
    induction steps with
    | nil => rfl
    | cons s steps ih =>
      obtain ⟨hs, hsteps⟩ := List.forall_mem_cons.mp hquiet
      have hdisk : s.before = w.disk ∧ s.after = w.disk := by cases hs <;> exact ⟨rfl, rfl⟩
      exact ⟨hdisk.1, hdisk.2 ▸ ih hsteps⟩
  · cases h.quiet s hs with
    | rename ret hret => exact ⟨⟨r, rfl, rfl⟩, Or.inl ⟨hret, rfl⟩⟩
    | dopen answer => exact rfl

/-- The paths still fit: what comes to a new place below the source had a longer path before. -/
theorem fits_step {s : Step} {path : CStr} (hout : ¬ src <+: dst) (hmoves : s.Moves src dst)
    (hfits : FitsAs s.before src path) : FitsAs s.after src path := by
  obtain ⟨call, before, after⟩ := s
  have hupdate {l : Loc} (hlook : after.look = Function.update before.look l none) :
      FitsAs after src path := hfits.mono fun rel hrel => by
    rw [hlook] at hrel
    by_cases hl : src ++ rel = l
    · rw [hl, Function.update_self] at hrel
      exact absurd rfl hrel
    · rwa [Function.update_of_ne hl] at hrel
  cases call with
  | rename loc loc' ret =>
    obtain ⟨⟨q, rfl, rfl⟩, ⟨-, heq⟩ | ⟨-, -, hlook⟩⟩ := hmoves
    · exact (congrArg (FitsAs · src path) heq).mpr hfits
    · intro rel hrel
      rw [show after.look = _ from hlook, FileSystem.move_apply] at hrel
      split at hrel
      · next hbegins =>
        rcases List.prefix_or_prefix_of_prefix ((List.prefix_append dst q).trans hbegins)
          (List.prefix_append src rel) with ⟨y, rfl⟩ | hbelow
        · obtain ⟨x, hx⟩ := hbegins
          rw [← hx, List.drop_left, List.append_assoc (dst ++ y)] at hrel
          rw [List.append_assoc, List.append_assoc, List.append_cancel_left_eq] at hx
          have hlonger := length_under_suffix path y rel
          rw [← hx] at hlonger
          exact hlonger.trans_lt (hfits _ hrel)
        · exact absurd hbelow hout
      · split at hrel
        · exact absurd rfl hrel
        · exact hfits rel hrel
  | remove loc ret =>
    obtain ⟨-, heq⟩ | ⟨-, hlook⟩ := hmoves
    · exact (congrArg (FitsAs · src path) heq).mpr hfits
    · exact hupdate hlook
  | rmdir loc ret =>
    obtain ⟨-, heq⟩ | ⟨-, -, hlook⟩ := hmoves
    · exact (congrArg (FitsAs · src path) heq).mpr hfits
    · exact hupdate hlook
  | dopen dir answer => exact (congrArg (FitsAs · src path) hmoves).mpr hfits
  | _ => exact hmoves.elim

theorem Traced.fits {w w' : World} {path : CStr} (h : Traced src dst w w') (hout : ¬ src <+: dst)
    (hfits : FitsAs w.disk src path) : FitsAs w'.disk src path := by
  obtain ⟨steps, -, hchained, hmoves⟩ := h
  generalize w.disk = d at hchained hfits
  induction steps generalizing d with
  | nil => exact (show w'.disk = d from hchained) ▸ hfits
  | cons s steps ih =>
    obtain ⟨rfl, hrest⟩ := hchained
    obtain ⟨hs, hsteps⟩ := List.forall_mem_cons.mp hmoves
    exact ih hsteps _ hrest (fits_step hout hs hfits)

theorem replace_traced {r : Loc} {w w' : World} (hsrc : locate srcPath = src ++ r)
    (hdst : locate dstPath = dst ++ r) (hw' : Traced src dst w w') :
    Ends (fun _ => False) (fun _ => Traced src dst w) ((do
      let _ ← sceIoRemove env dstPath
      let res ← sceIoRename env srcPath dstPath
      if res < 0 then pure res else pure 1 : FileM ℤ) w') := by
  obtain ⟨ret, disk, hremove, hcases⟩ := sceIoRemove_cases env dstPath w'
  have hremoved : Traced src dst w' (w'.did (.remove (locate dstPath) ret) disk) :=
    traced_did (hcases.imp id fun h => ⟨h.1, h.2.2⟩)
  refine ends_of_ok hremove ?_
  obtain ⟨ret', disk', hrename, hcases'⟩ := sceIoRename_cases env srcPath dstPath
    (w'.did (.remove (locate dstPath) ret) disk)
  have hrenamed : Traced src dst (w'.did (.remove (locate dstPath) ret) disk)
      ((w'.did (.remove (locate dstPath) ret) disk).did
        (.rename (locate srcPath) (locate dstPath) ret') disk') :=
    traced_did ⟨⟨r, hsrc, hdst⟩, hcases'.imp id fun h => ⟨h.1, h.2.2⟩⟩
  have htraced := hw'.trans (hremoved.trans hrenamed)
  exact ends_of_ok hrename (ends_ite (fun _ => htraced) fun _ => htraced)

theorem movePath_traced (fuel : ℕ) {r : Loc} {w : World} (hout : ¬ src <+: dst)
    (hsrc : locate (under srcPath r) = src ++ r) (hdst : locate (under dstPath r) = dst ++ r)
    (hfits : FitsAs w.disk src srcPath) (hfits' : FitsAs w.disk src dstPath)
    (hfuel : maxPathLength ≤ (under srcPath r).length + fuel) (hpos : 0 < fuel) :
    Ends (fun _ => False) (fun _ => Traced src dst w)
      (movePath env flags fuel (under srcPath r) (under dstPath r) w) := by
  induction fuel generalizing r w with
  | zero => exact absurd hpos (lt_irrefl 0)
  | succ fuel ih =>
    refine movePath_level env hsrc hdst ?_ ?_ ?_ ?_ ?_
    · exact fun _ _ _ _ hw' => hw'.traced
    · exact fun disk _ hmovable hlook => traced_did ⟨⟨r, rfl, rfl⟩, Or.inr ⟨rfl, hmovable, hlook⟩⟩
    · exact fun _ _ _ _ hw' => hw'.traced
    · exact fun _ _ w' hw' => replace_traced env hsrc hdst hw'.traced
    · intro hdirs hintegrate hsrcNe hdstNe entries w' hdread hw'
      refine ends_bind (Q := fun _ (u : World) => Traced src dst w u)
        (ends_untilRefused (P := fun (u : World) => Traced src dst w u) ?_ hw'.traced) fun ret u hu => ?_
      · intro entry hmem u hu
        have hentry : w.disk.look (src ++ (r ++ [entry.name])) ≠ none := by
          rw [← List.append_assoc]
          exact mem_of_dread (hdread ▸ hmem)
        have hlength := hfits _ hentry
        have hlength' := hfits' _ hentry
        rw [under_concat] at hlength hlength'
        obtain ⟨hfuel', hpos'⟩ := fuel_joined hfuel hlength
        rw [newPath_of_fits hlength, newPath_of_fits hlength', ← under_concat, ← under_concat]
        rw [← under_concat] at hfuel'
        refine ends_mono (ih ?_ ?_ (hu.fits hout hfits) (hu.fits hout hfits') hfuel' hpos')
          fun _ _ h => hu.trans h
        · rw [under_concat, locate_joined (hsrc ▸ hsrcNe), hsrc, List.append_assoc]
        · rw [under_concat, locate_joined (hdst ▸ hdstNe), hdst, List.append_assoc]
      · refine ends_ite (fun _ => hu) fun _ => ?_
        obtain ⟨ret', disk, hrmdir, hcases⟩ := sceIoRmdir_cases env (under srcPath r) u
        exact ends_of_ok hrmdir (hu.trans (traced_did (hcases.imp id fun h => ⟨h.1, h.2.1, h.2.2.2⟩)))

end Run

/-- **Keeping files.** `movePath` to a place that is not at or below the source ends. If no file is removed
at or below the source and nothing is taken where an earlier step has brought something, every file of the
source is at its place or at its counterpart, at the end and behind every step. -/
theorem movePath_conserves (env : Env) (flags : UInt32) (srcPath dstPath : CStr) (w : World)
    (hout : ¬ locate srcPath <+: locate dstPath) (hsrc : FitsAs w.disk (locate srcPath) srcPath)
    (hdst : FitsAs w.disk (locate srcPath) dstPath) :
    ∃ ret w' steps, movePath env flags maxPathLength srcPath dstPath w = .ok ret w' ∧
      w'.trace = w.trace ++ steps ∧
      (Undisturbed (locate srcPath) steps →
        (∀ s ∈ steps, Conserved (locate srcPath) (locate dstPath) w.disk s.after) ∧
          Conserved (locate srcPath) (locate dstPath) w.disk w'.disk) := by
  have hends : Ends (fun _ => False) (fun _ => Traced (locate srcPath) (locate dstPath) w)
      (movePath env flags maxPathLength (under srcPath []) (under dstPath []) w) :=
    movePath_traced env maxPathLength hout (List.append_nil _).symm (List.append_nil _).symm hsrc hdst
      (Nat.le_add_left _ _) (by decide)
  obtain ⟨ret, w', hrun, steps, htrace, hchained, hmoves⟩ := hends.exists_ok
  have hstart : Kept (locate srcPath) (locate dstPath) w.disk [] w.disk := fun _ _ hfile => Or.inl hfile
  exact ⟨ret, w', steps, hrun, htrace, hstart.steps hchained hmoves⟩

theorem movePath_conserves_small :
    ∃ ret w' steps, movePath calmEnv 0 maxPathLength (bytes "ux0:a") (bytes "ux0:c") (World.start smallDisk) =
        .ok ret w' ∧ w'.trace = [] ++ steps ∧
      (Undisturbed (locate (bytes "ux0:a")) steps →
        (∀ s ∈ steps, Conserved (locate (bytes "ux0:a")) (locate (bytes "ux0:c")) smallDisk s.after) ∧
          Conserved (locate (bytes "ux0:a")) (locate (bytes "ux0:c")) smallDisk w'.disk) :=
  movePath_conserves calmEnv 0 (bytes "ux0:a") (bytes "ux0:c") (World.start smallDisk) (by decide +kernel)
    (fitsAs_of_locs (by decide +kernel)) (fitsAs_of_locs (by decide +kernel))

/-- Where no entry of the source has its counterpart at or below the source, no condition on the steps is
needed. -/
theorem movePath_conserves_of_separate (env : Env) (flags : UInt32) (fuel : ℕ) (srcPath dstPath : CStr)
    (w w' : World) (ret : ℤ) (hsep : Separate w.disk.look (locate srcPath) (locate dstPath))
    (hsrc : FitsAs w.disk (locate srcPath) srcPath) (hdst : FitsAs w.disk (locate srcPath) dstPath)
    (hrun : movePath env flags fuel srcPath dstPath w = .ok ret w') :
    Conserved (locate srcPath) (locate dstPath) w.disk w'.disk := by
  intro rel content hfile
  by_cases hexists : w.disk.look (locate srcPath) = none
  · rw [w.disk.none_below hexists] at hfile
    cases hfile
  · have hends : Ends (fun _ => True) (MoveRuns flags w.disk (locate srcPath) (locate dstPath) w)
        (movePath env flags fuel srcPath dstPath w) :=
      movePath_ends env fuel rfl rfl hsep hexists (fun _ => rfl) hsrc hdst
    rw [hrun] at hends
    obtain ⟨-, -, hshifts, -⟩ := hends
    exact (hshifts.each rel _ hfile).imp id And.right

/-- Directories `a`, `a/b` and `a/b/b`, with files `a/b/a` and `a/b/b/a`. -/
def nestedDisk : Disk := (((((FileSystem.empty.put [device] .dir).put [device, nameA] .dir).put
  [device, nameA, nameB] .dir).put [device, nameA, nameB, nameA] (.file [1])).put
  [device, nameA, nameB, nameB] .dir).put [device, nameA, nameB, nameB, nameA] (.file [2])

/-- The file `a/b/a` is in the way of `a/b/b/a` and is removed before it is moved itself. -/
theorem movePath_loses_file : guard (bytes "ux0:a/b") (bytes "ux0:a") = none ∧
    nestedDisk.look (locate (bytes "ux0:a/b/a")) = some (.file [1]) ∧
    ∃ ret w', movePath calmEnv (moveIntegrate ||| moveReplace) maxPathLength (bytes "ux0:a/b")
        (bytes "ux0:a") (World.start nestedDisk) = .ok ret w' ∧ ret = 1 ∧
      w'.disk.look (locate (bytes "ux0:a/b/a")) = none ∧
      w'.disk.look (locate (bytes "ux0:a/a")) = some (.file [2]) := by
  refine ⟨by decide +kernel, by decide +kernel, Ends.exists_ok ?_⟩
  decide +kernel

end VitaConnect.Files

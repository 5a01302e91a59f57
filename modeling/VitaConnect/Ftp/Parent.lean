import VitaConnect.Files.Location
import VitaConnect.Ftp.CurPath

/-! # The parent of the current path (CDUP and CWD ..)

`dir_up` takes a slash at the end of the path for the root of a device. CWD stores paths as they are
typed, and a path that ends in a slash need not be one.
-/
namespace VitaConnect.Ftp
open CString Program VitaConnect.Files
set_option autoImplicit false

/-- `q` names the directory that holds what `p` names. -/
structure IsParent (p q : CStr) : Prop where
  location : components q = (components p).dropLast
  root : p = [slash] → q = [slash]
  deviceRoot : ∀ dev : CStr, slash ∉ dev → p = slash :: dev ++ [slash] → q = [slash]

/-- The two commands that go up. -/
def NavCmd.GoesUp : NavCmd → Prop
  | .cwd args _ => scanSet argStops args = some dotDot
  | .cdup => True

def ReachesParent (c : NavCmd) (s : Session) : Prop :=
  ∃ t, runNav c s = .ok ⟨⟩ t ∧ IsParent s.client.curPath t.client.curPath

/-! ## The parent as a path -/

theorem components_addSlash (p : CStr) : components (addSlash p) = components p := by
  unfold addSlash
  split
  · exact components_concat_slash p
  · rfl

theorem parentPath_of_root {p : CStr} (h : pathIsAtRoot p = true) : parentPath p = [slash] :=
  if_pos (Or.inr h)

theorem isParent_of_root_iff {p : CStr} (h : pathIsAtRoot p = true) :
    IsParent p (parentPath p) ↔ (components p).length ≤ 1 := by
  rw [parentPath_of_root h]
  constructor
  · intro hparent
    have hlen := congrArg List.length hparent.location
    rw [List.length_dropLast] at hlen
    change 0 = _ at hlen
    omega
  · intro hlen
    refine ⟨?_, fun _ => rfl, fun _ _ _ => rfl⟩
    show [] = _
    symm
    apply List.eq_nil_of_length_eq_zero
    rw [List.length_dropLast]
    omega

theorem parentPath_location {p : CStr} (hp : CurPathInv p) (h : pathIsAtRoot p = false) :
    components (parentPath p) = (components p).dropLast := by
  have hlast := fun hl => Bool.false_ne_true (h.symm.trans ((pathIsAtRoot_iff p).mpr hl))
  have hlen : p.length ≠ 1 := by
    intro hlen
    obtain ⟨a, rfl⟩ := List.length_eq_one_iff.mp hlen
    exact hlast hp.absolute
  obtain ⟨i, hi⟩ := strrchr_isSome (List.mem_of_mem_head? hp.absolute)
  obtain ⟨a, b, rfl, rfl, hb⟩ := strrchr_eq_some hi
  have hne : b ≠ [] := by
    rintro rfl
    exact hlast List.getLast?_concat
  have hnot : ¬ ((a ++ slash :: b).length = 1 ∨ pathIsAtRoot (a ++ slash :: b) = true) := by
    rintro (h1 | hroot)
    · exact hlen h1
    · exact absurd (h.symm.trans hroot) (by decide)
  rw [parentPath, if_neg hnot, hi, Option.getD_some, List.take_left,
    components_addSlash, components_append_slash_cons, components_singleton hne hb,
    List.dropLast_concat]

theorem isParent_iff {p : CStr} (hp : CurPathInv p) :
    IsParent p (parentPath p) ↔ (pathIsAtRoot p = true → (components p).length ≤ 1) := by
  cases h : pathIsAtRoot p with
  | true =>
    rw [isParent_of_root_iff h]
    simp
  | false =>
    refine iff_of_true ⟨parentPath_location hp h, ?_, ?_⟩ (by simp)
    · rintro rfl
      exact absurd h (by decide)
    · rintro dev - rfl
      have hroot := (pathIsAtRoot_iff (slash :: dev ++ [slash])).mpr List.getLast?_concat
      exact absurd (h.symm.trans hroot) (by decide)

/-! ## The commands -/

theorem reachesParent_iff {c : NavCmd} {s : Session} (hp : CurPathInv s.client.curPath)
    (hc : c.Short) (hup : c.GoesUp) :
    ReachesParent c s ↔ IsParent s.client.curPath (parentPath s.client.curPath) := by
  have hrun : ∃ t, runNav c s = .ok ⟨⟩ t ∧ t.client.curPath = parentPath s.client.curPath := by
    cases c with
    | cdup => exact ⟨_, cmdCdupFunc_apply hp, rfl⟩
    | cwd args env =>
      obtain ⟨t, es, hrun, -, hcur, -⟩ := runNav_cwd env hp hc
      refine ⟨t, hrun, ?_⟩
      have hscan : scanSet argStops args = some dotDot := hup
      rw [hcur, cwdTarget, hscan]
      rfl
  obtain ⟨t, hrun, hcur⟩ := hrun
  constructor
  · rintro ⟨u, hu, hparent⟩
    obtain ⟨-, rfl⟩ := EStateM.Result.ok.inj (hrun.symm.trans hu)
    rwa [hcur] at hparent
  · intro hparent
    exact ⟨t, hrun, hcur ▸ hparent⟩

/-- **When going up reaches the parent.** In every state of every session of CWD and CDUP, the next
step up goes to the parent of the current path unless that path ends in a slash and has more than one
component. -/
theorem nav_parent_iff (cmds : List NavCmd) (s : Session) (hcmds : ∀ c ∈ cmds, c.Short)
    (hs : s.client.curPath = [slash]) :
    ∃ t, runAll runNav cmds s = .ok ⟨⟩ t ∧
      ∀ c : NavCmd, c.Short → c.GoesUp →
        (ReachesParent c t ↔
          (pathIsAtRoot t.client.curPath = true → (components t.client.curPath).length ≤ 1)) := by
  have hroot : CurPathInv s.client.curPath := hs ▸ curPathInv_root
  obtain ⟨t, ht, hp⟩ :=
    runAll_ok (I := fun s : Session => CurPathInv s.client.curPath) runNav_step hcmds hroot
  refine ⟨t, ht, fun c hc hup => ?_⟩
  rw [reachesParent_iff hp hc hup, isParent_iff hp]

def enterData : List NavCmd := [.cwd (bytes "/ux0:/data\r\n") calmEnv]

def enterDataSlash : List NavCmd := [.cwd (bytes "/ux0:/data/\r\n") calmEnv]

theorem nav_parent_data :
    (∀ c ∈ enterData, c.Short) ∧ newSession.client.curPath = [slash] ∧
      ∃ t, runAll runNav enterData newSession = .ok ⟨⟩ t ∧ ReachesParent .cdup t := by
  have hshort : ∀ c ∈ enterData, c.Short := by
    intro c hc
    obtain rfl := List.mem_singleton.mp hc
    exact (by decide : (bytes "/ux0:/data\r\n").length ≤ 511)
  obtain ⟨t, hrun, hup⟩ := nav_parent_iff enterData newSession hshort rfl
  refine ⟨hshort, rfl, t, hrun, (hup .cdup trivial trivial).mpr ?_⟩
  have hcur : (finalState (runAll runNav enterData newSession)).client.curPath =
      bytes "/ux0:/data" := by decide +kernel
  rw [hrun] at hcur
  change t.client.curPath = _ at hcur
  rw [hcur]
  decide

/-- `CWD /ux0:/data/` and then CDUP end at `/`. -/
theorem nav_parent_slash :
    (∃ t u, runAll runNav enterDataSlash newSession = .ok ⟨⟩ t ∧
      t.client.curPath = bytes "/ux0:/data/" ∧ runNav .cdup t = .ok ⟨⟩ u ∧
      u.client.curPath = bytes "/" ∧ ¬ IsParent t.client.curPath u.client.curPath) ∧
    ¬ ∀ (cmds : List NavCmd) (s t : Session) (c : NavCmd), (∀ c ∈ cmds, c.Short) →
      s.client.curPath = [slash] → runAll runNav cmds s = .ok ⟨⟩ t → c.Short → c.GoesUp →
        ReachesParent c t := by
  have hrun : runAll runNav enterDataSlash newSession =
      .ok ⟨⟩ (finalState (runAll runNav enterDataSlash newSession)) :=
    eq_ok_of_returned (by decide +kernel)
  have hcur : (finalState (runAll runNav enterDataSlash newSession)).client.curPath =
      bytes "/ux0:/data/" := by decide +kernel
  generalize finalState (runAll runNav enterDataSlash newSession) = t at hrun hcur
  have hp : CurPathInv t.client.curPath := by
    rw [hcur]
    exact ⟨by decide, rfl, Or.inr (by decide), by decide +kernel⟩
  have hnot : ¬ IsParent t.client.curPath (parentPath t.client.curPath) := by
    rw [isParent_iff hp, hcur]
    decide
  refine ⟨⟨t, _, hrun, hcur, cmdCdupFunc_apply hp, ?_, hnot⟩, fun hall => hnot ?_⟩
  · show parentPath t.client.curPath = _
    rw [hcur]
    decide
  · have hshort : ∀ c ∈ enterDataSlash, c.Short := by
      intro c hc
      obtain rfl := List.mem_singleton.mp hc
      exact (by decide : (bytes "/ux0:/data/\r\n").length ≤ 511)
    have hup : NavCmd.cdup.Short ∧ NavCmd.cdup.GoesUp := ⟨trivial, trivial⟩
    exact (reachesParent_iff hp hup.1 hup.2).mp
      (hall enterDataSlash newSession t .cdup hshort rfl hrun trivial trivial)

end VitaConnect.Ftp

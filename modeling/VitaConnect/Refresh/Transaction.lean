import VitaConnect.Refresh.Places

/-! # No directory is lost while the restoring renames succeed

A callback that gets its directory neither promoted nor moved back leaves it in the temp path, and
the next callback with the same temp path starts with `removePath`. `refreshPass_safe` is about the
passes in which that does not happen.
-/
namespace VitaConnect.Refresh
open CString Program Storage
set_option autoImplicit false

/-! ## What a callback can do, read off its answers -/

def Promoter.Accepts (p : Promoter) : Prop :=
  0 ≤ p.loadScePaf ∧ 0 ≤ p.sceSysmoduleLoadModuleInternal ∧ 0 ≤ p.scePromoterUtilityInit ∧
    0 ≤ p.scePromoterUtilityPromote

instance (p : Promoter) : Decidable p.Accepts := inferInstanceAs (Decidable (_ ∧ _))

def Listed.temp (r : Listed) : Option Path :=
  match r.content with
  | .app => some appTemp
  | .patch => some patchTemp
  | .psm => r.answers.cidFile.map fun cidFile => psmTemp ++ names (titleId cidFile)

def Listed.Strands (r : Listed) : Prop :=
  r.answers.refreshNeeded = true ∧ r.answers.renameToTemp = true ∧ ¬ r.answers.promoter.Accepts ∧
    r.answers.renameBack = false

def Listed.Clears (r : Listed) (p : Path) : Prop :=
  r.answers.refreshNeeded = true ∧ r.temp = some p ∧ ∃ rel, r.answers.removePath rel = false

def IsName (name : CStr) : Prop :=
  name ≠ [] ∧ slash ∉ name ∧ name ≠ bytes "." ∧ name ≠ bytes ".."

def Listed.PlainTitle (r : Listed) : Prop :=
  r.content = .psm → ∀ cidFile, r.answers.cidFile = some cidFile → IsName (titleId cidFile)

theorem names_of_isName {name : CStr} (h : IsName name) : names name = [name] := by
  have hsplit : name.splitOn slash = [name] := by
    apply List.splitOnP_eq_singleton
    intro b hb
    rw [beq_eq_false_iff_ne]
    rintro rfl
    exact h.2.1 hb
  rw [names, hsplit, List.filter_cons_of_pos (by simpa using h.1), List.filter_nil]

theorem Listed.isTemp {r : Listed} (htitle : r.PlainTitle) {p : Path} (hp : r.temp = some p) :
    IsTemp p := by
  unfold Listed.temp at hp
  cases hcontent : r.content with
  | app =>
    rw [hcontent] at hp
    exact Or.inl (Option.some.inj hp).symm
  | patch =>
    rw [hcontent] at hp
    exact Or.inr (Or.inl (Option.some.inj hp).symm)
  | psm =>
    rw [hcontent] at hp
    obtain ⟨cidFile, hcid, rfl⟩ := Option.map_eq_some_iff.mp hp
    rw [names_of_isName (htitle hcontent cidFile hcid)]
    exact Or.inr (Or.inr ⟨_, rfl⟩)

/-! ## Tracking the places along a program -/

/-- No directory has been lost so far, and `place` says where each of them is. -/
structure Tracked (dirs : List Path) (place : Path → Place) (s : Pass) : Prop where
  safe : AtEveryPoint (Safe s.start.fs dirs) World.step s.start s.steps
  located : Located s.start.fs dirs place s.world

theorem Pass.world_push (s : Pass) (e : Step) : (s.push e).world = s.world.step e := replay_snoc _ _

section Calls
variable {dirs : List Path} {place : Path → Place} {s : Pass} {p : Path}

theorem Tracked.push {place' : Path → Place} {e : Step} (h : Tracked dirs place s)
    (he : Located s.start.fs dirs place' (s.world.step e)) : Tracked dirs place' (s.push e) := by
  have hworld : Located s.start.fs dirs place' (s.push e).world := by
    rw [Pass.world_push]
    exact he
  exact ⟨h.safe.snoc hworld.safe, hworld⟩

theorem removePath_apply (a : Answers) (p : Path) (s : Pass) :
    removePath a p s = .ok ⟨⟩ (s.push (.removePath p a.removePath)) := rfl

theorem sceIoRename_apply (answer : Bool) (src dst : Path) (s : Pass) :
    sceIoRename answer src dst s =
      .ok ⟨⟩ (if answer ∧ s.world.fs src ≠ none ∧ s.world.fs dst = none then
        s.push (.sceIoRename src dst) else s) := by
  simp only [sceIoRename, bind_apply, get_apply, ite_run]
  split <;> rfl

theorem prepareWorkBin_apply (a : Answers) (p : Path) (s : Pass) :
    ∃ t, prepareWorkBin a p s = .ok ⟨⟩ t ∧
      (t = s ∨ ∃ entry, t = s.push (.setFile (p ++ workBin) entry)) := by
  simp only [prepareWorkBin, bind_apply, get_apply]
  by_cases hcustom : isCustomHomebrew a s.world.fs (p ++ workBin) = true
  · rw [if_pos hcustom]
    by_cases hremove : 0 ≤ a.sceIoRemove
    · exact ⟨_, by rw [if_pos hremove]; rfl, Or.inr ⟨none, rfl⟩⟩
    · exact ⟨s, by rw [if_neg hremove]; rfl, Or.inl rfl⟩
  · rw [if_neg hcustom]
    by_cases hmissing : s.world.fs (p ++ workBin) = none
    · rw [if_pos hmissing]
      cases a.queryRif with
      | none => exact ⟨s, rfl, Or.inl rfl⟩
      | some rif =>
        dsimp only
        by_cases hopen : 0 < a.sceIoOpen
        · exact ⟨_, by rw [if_pos hopen]; rfl, Or.inr ⟨_, rfl⟩⟩
        · exact ⟨s, by rw [if_neg hopen]; rfl, Or.inl rfl⟩
    · exact ⟨s, by rw [if_neg hmissing]; rfl, Or.inl rfl⟩

theorem promoteWith_refused {pr : Promoter} (h : ¬ pr.Accepts) (p : Path) (s : Pass) :
    ∃ res < 0, promoteWith pr p s = .ok res s := by
  unfold promoteWith
  by_cases h1 : pr.loadScePaf < 0
  · exact ⟨_, h1, by rw [if_pos h1]; rfl⟩
  rw [if_neg h1]
  by_cases h2 : pr.sceSysmoduleLoadModuleInternal < 0
  · exact ⟨_, h2, by rw [if_pos h2]; rfl⟩
  rw [if_neg h2]
  by_cases h3 : pr.scePromoterUtilityInit < 0
  · exact ⟨_, h3, by rw [if_pos h3]; rfl⟩
  rw [if_neg h3]
  by_cases h4 : pr.scePromoterUtilityPromote < 0
  · exact ⟨_, h4, by rw [if_pos h4]; rfl⟩
  exact absurd ⟨by omega, by omega, by omega, by omega⟩ h

theorem promoteWith_accepted {pr : Promoter} (h : pr.Accepts) (p : Path) (s : Pass) :
    ∃ res, promoteWith pr p s = .ok res (s.push (.promote p pr.leftover)) := by
  obtain ⟨h1, h2, h3, h4⟩ := h
  have hlt : ∀ x : ℤ, 0 ≤ x → ¬ x < 0 := fun x hx => by omega
  rw [promoteWith, if_neg (hlt _ h1), if_neg (hlt _ h2), if_neg (hlt _ h3), if_neg (hlt _ h4)]
  simp only [bind_apply]
  split_ifs
  · exact ⟨_, rfl⟩
  · exact ⟨_, rfl⟩
  · exact ⟨_, rfl⟩

theorem Tracked.setWorkBin (h : Tracked dirs place s) (hdirs : ∀ d ∈ dirs, IsContent d)
    (hp : IsTemp p) (entry : Option (Entry (List Byte))) :
    Tracked dirs place (s.push (.setFile (p ++ workBin) entry)) :=
  h.push (h.located.setWorkBin hdirs hp entry)

theorem Tracked.promote (h : Tracked dirs place s) (hdirs : ∀ d ∈ dirs, IsContent d)
    (hp : IsTemp p) (leftover : FileSystem) :
    Tracked dirs (promoted place p) (s.push (.promote p leftover)) :=
  h.push (h.located.promote hdirs hp leftover)

/-- `x` hands the temp path `p` to the promoter, and reports success only when it is accepted. -/
structure Promotes (dirs : List Path) (p : Path) (pr : Promoter) (x : RefreshM Bool) : Prop where
  accepted : pr.Accepts → ∀ s, ∃ ok t, x s = .ok ok t ∧ t.start = s.start ∧
    ∀ place, Tracked dirs place s → Tracked dirs (promoted place p) t
  refused : ¬ pr.Accepts → ∀ s, ∃ t, x s = .ok false t ∧ t.start = s.start ∧
    (∀ place, Tracked dirs place s → Tracked dirs place t) ∧
    ∀ d, IsContent d → t.world.fs d = s.world.fs d

theorem promotes_psm (hdirs : ∀ d ∈ dirs, IsContent d) {titleid : CStr}
    (hp : IsTemp (psmTemp ++ names titleid)) (pr : Promoter) :
    Promotes dirs (psmTemp ++ names titleid) pr
      (do let res ← promoteCma pr psmTemp titleid; pure (res == 0)) := by
  constructor
  · intro haccepts s
    obtain ⟨res, hres⟩ := promoteWith_accepted haccepts (psmTemp ++ names titleid) s
    refine ⟨res == 0, s.push (.promote (psmTemp ++ names titleid) pr.leftover), ?_, rfl, ?_⟩
    · rw [bind_apply, promoteCma, hres]
      rfl
    · exact fun place h => h.promote hdirs hp pr.leftover
  · intro hrefused s
    obtain ⟨res, hneg, hres⟩ := promoteWith_refused hrefused (psmTemp ++ names titleid) s
    refine ⟨s, ?_, rfl, fun _ h => h, fun _ _ => rfl⟩
    have hzero : (res == 0) = false := by
      rw [beq_eq_false_iff_ne]
      omega
    rw [bind_apply, promoteCma, hres]
    simp only [hzero, pure_apply]

theorem promotes_app (hdirs : ∀ d ∈ dirs, IsContent d) (hp : IsTemp p) (a : Answers) :
    Promotes dirs p a.promoter (do let res ← refreshApp a p; pure (res == 1)) := by
  have hrun : ∀ {s t u : Pass} {res : ℤ}, prepareWorkBin a p s = .ok ⟨⟩ t →
      promoteWith a.promoter p t = .ok res u →
      (do let res ← refreshApp a p; pure (res == 1) : RefreshM Bool) s
        = .ok ((if res < 0 then res else 1) == 1) u := by
    intro s t u res hprepare hpromote
    simp only [refreshApp, promoteApp, bind_apply, hprepare, hpromote, pure_apply]
  have hprepared : ∀ s, ∃ t, prepareWorkBin a p s = .ok ⟨⟩ t ∧ t.start = s.start ∧
      (∀ place, Tracked dirs place s → Tracked dirs place t) ∧
      ∀ d, IsContent d → t.world.fs d = s.world.fs d := by
    intro s
    obtain ⟨t, ht, rfl | ⟨entry, rfl⟩⟩ := prepareWorkBin_apply a p s
    · exact ⟨_, ht, rfl, fun _ h => h, fun _ _ => rfl⟩
    · refine ⟨_, ht, rfl, fun place h => h.setWorkBin hdirs hp entry, fun d hd => ?_⟩
      rw [Pass.world_push]
      apply Function.update_of_ne
      rintro rfl
      exact (apart_content_temp hd hp).2 (List.prefix_append p workBin)
  constructor
  · intro haccepts s
    obtain ⟨t, ht, hstart, htracked, -⟩ := hprepared s
    obtain ⟨res, hres⟩ := promoteWith_accepted haccepts p t
    exact ⟨_, _, hrun ht hres, hstart, fun place h => (htracked place h).promote hdirs hp _⟩
  · intro hrefused s
    obtain ⟨t, ht, hstart, htracked, hfs⟩ := hprepared s
    obtain ⟨res, hneg, hres⟩ := promoteWith_refused hrefused p t
    have hfalse : ((if res < 0 then res else 1) == 1) = false := by
      rw [if_pos hneg, beq_eq_false_iff_ne]
      omega
    refine ⟨t, ?_, hstart, htracked, hfs⟩
    rw [hrun ht hres, hfalse]

end Calls

/-! ## One callback -/

/-- Where the callback of `d` leaves the directories: `d` is in the temp path only when it was moved
there, not accepted, and not moved back; another directory stays where it is, or it was not at home
and is accepted. -/
structure Leaves (dirs : List Path) (a : Answers) (d p : Path) (place place' : Path → Place) : Prop where
  others : ∀ e ∈ dirs, e ≠ d → place' e = place e ∨ (place e ≠ .home ∧ place' e = .accepted)
  own : ∀ q, place' d = .temp q → q = p ∧ a.renameToTemp = true ∧ ¬ a.promoter.Accepts ∧
    a.renameBack = false

section Callback
variable {dirs : List Path} {place : Path → Place} {s : Pass} {p d : Path} {a : Answers}
  {x : RefreshM Bool}

/-- The part of `reinstall` behind the two calls that fill the temp path. -/
def finish (a : Answers) (path temp : Path) (promoted : RefreshM Bool) : RefreshM PUnit := do
  let ok ← promoted
  if ok then addRefreshed else sceIoRename a.renameBack temp path

theorem finish_ok {t : Pass} (hx : x s = .ok true t) :
    finish a d p x s = .ok ⟨⟩ { t with refreshed := t.refreshed + 1 } := by
  rw [finish, bind_apply, hx]
  rfl

theorem finish_failed {t : Pass} (hx : x s = .ok false t) :
    finish a d p x s = .ok ⟨⟩ (if a.renameBack ∧ t.world.fs p ≠ none ∧ t.world.fs d = none then
      t.push (.sceIoRename p d) else t) := by
  rw [finish, bind_apply, hx]
  exact sceIoRename_apply a.renameBack p d t

theorem Tracked.addRefreshed (h : Tracked dirs place s) :
    Tracked dirs place { s with refreshed := s.refreshed + 1 } := ⟨h.safe, h.located⟩

/-- The directory has not reached the temp path: it stays at home. -/
theorem finish_home (h : Tracked dirs place s) (hexists : ∀ e ∈ dirs, s.start.fs e ≠ none)
    (hd : d ∈ dirs) (hhome : place d = .home) (hx : Promotes dirs p a.promoter x) :
    ∃ t place', finish a d p x s = .ok ⟨⟩ t ∧ t.start = s.start ∧ Tracked dirs place' t ∧
      Leaves dirs a d p place place' := by
  have hstays : ∀ {t : Pass} {place' : Path → Place}, Tracked dirs place' t → t.start = s.start →
      place' d = .home →
      ¬ (a.renameBack = true ∧ t.world.fs p ≠ none ∧ t.world.fs d = none) := by
    rintro t place' ht hstart hplace ⟨-, -, hnone⟩
    rw [← hstart] at hexists
    exact ht.located.home_exists hexists hd hplace hnone
  by_cases haccepts : a.promoter.Accepts
  · obtain ⟨ok, t, hrun, hstart, htracked⟩ := hx.accepted haccepts s
    have hplace : promoted place p d = .home := by simp [promoted, hhome]
    have hleaves : Leaves dirs a d p place (promoted place p) := by
      constructor
      · intro e _ _
        unfold promoted
        split
        · next htemp => exact Or.inr ⟨by rw [htemp]; exact nofun, rfl⟩
        · exact Or.inl rfl
      · intro q hq
        rw [hplace] at hq
        cases hq
    cases ok with
    | true => exact ⟨_, _, finish_ok hrun, hstart, (htracked place h).addRefreshed, hleaves⟩
    | false =>
      refine ⟨t, _, ?_, hstart, htracked place h, hleaves⟩
      rw [finish_failed hrun, if_neg (hstays (htracked place h) hstart hplace)]
  · obtain ⟨t, hrun, hstart, htracked, -⟩ := hx.refused haccepts s
    refine ⟨t, place, ?_, hstart, htracked place h, fun _ _ _ => Or.inl rfl, fun q hq => ?_⟩
    · rw [finish_failed hrun, if_neg (hstays (htracked place h) hstart hhome)]
    · rw [hhome] at hq
      cases hq

/-- The directory is alone in the temp path, and its own path is free. -/
theorem finish_temp (h : Tracked dirs place s) (hdirs : ∀ e ∈ dirs, IsContent e)
    (hexists : ∀ e ∈ dirs, s.start.fs e ≠ none) (hp : IsTemp p) (hd : d ∈ dirs)
    (htemp : place d = .temp p) (hothers : ∀ e ∈ dirs, e ≠ d → place e ≠ .temp p)
    (hfree : s.world.fs d = none) (hmoved : a.renameToTemp = true)
    (hx : Promotes dirs p a.promoter x) :
    ∃ t place', finish a d p x s = .ok ⟨⟩ t ∧ t.start = s.start ∧ Tracked dirs place' t ∧
      Leaves dirs a d p place place' := by
  by_cases haccepts : a.promoter.Accepts
  · obtain ⟨ok, t, hrun, hstart, htracked⟩ := hx.accepted haccepts s
    have hplace : promoted place p d = .accepted := by simp [promoted, htemp]
    have hempty : ∀ e ∈ dirs, promoted place p e ≠ .temp p := by
      intro e _
      unfold promoted
      split
      · exact nofun
      · next hne => exact hne
    have hleaves : Leaves dirs a d p place (promoted place p) := by
      constructor
      · intro e he hne
        exact Or.inl (if_neg (hothers e he hne))
      · intro q hq
        rw [hplace] at hq
        cases hq
    have ht := htracked place h
    cases ok with
    | true => exact ⟨_, _, finish_ok hrun, hstart, ht.addRefreshed, hleaves⟩
    | false =>
      refine ⟨_, _, finish_failed hrun, ?_, ?_, hleaves⟩
      · split
        · exact hstart
        · exact hstart
      · split
        · exact ht.push (ht.located.leftover hdirs hp hd hplace hempty)
        · exact ht
  · obtain ⟨t, hrun, hstart, htracked, hfs⟩ := hx.refused haccepts s
    have ht := htracked place h
    have hthere : t.world.fs p ≠ none := by
      intro hnone
      rw [← hstart] at hexists
      exact ht.located.ne_temp hexists hnone hd htemp
    have hback : t.world.fs d = none := (hfs d (hdirs d hd)).trans hfree
    by_cases hrename : a.renameBack = true
    · refine ⟨t.push (.sceIoRename p d), Function.update place d .home, ?_, hstart,
        ht.push (ht.located.back hdirs hp hd htemp hothers), fun e _ hne => ?_, fun q hq => ?_⟩
      · rw [finish_failed hrun, if_pos ⟨hrename, hthere, hback⟩]
      · exact Or.inl (Function.update_of_ne hne _ _)
      · rw [Function.update_self] at hq
        cases hq
    · refine ⟨t, place, ?_, hstart, ht, fun _ _ _ => Or.inl rfl, fun q hq => ?_⟩
      · rw [finish_failed hrun, if_neg fun hc => hrename hc.1]
      · rw [htemp] at hq
        obtain rfl := Place.temp.inj hq
        exact ⟨rfl, hmoved, haccepts, by simpa using hrename⟩

theorem reinstall_tracked (h : Tracked dirs place s) (hdirs : ∀ e ∈ dirs, IsContent e)
    (hexists : ∀ e ∈ dirs, s.start.fs e ≠ none) (hp : IsTemp p) (hd : d ∈ dirs)
    (hhome : place d = .home) (hx : Promotes dirs p a.promoter x)
    (hclear : (∀ rel, a.removePath rel = true) ∨ ∀ e ∈ dirs, place e ≠ .temp p) :
    ∃ t place', reinstall a d p x s = .ok ⟨⟩ t ∧ t.start = s.start ∧ Tracked dirs place' t ∧
      Leaves dirs a d p place place' := by
  set s₁ := s.push (.removePath p a.removePath) with hs₁
  have h₁ : Tracked dirs place s₁ := h.push (h.located.removePath hdirs hp hclear)
  have hrun : reinstall a d p x s = finish a d p x
      (if a.renameToTemp ∧ s₁.world.fs d ≠ none ∧ s₁.world.fs p = none then
        s₁.push (.sceIoRename d p) else s₁) := by
    simp only [reinstall, finish, bind_apply, removePath_apply, sceIoRename_apply, ← hs₁]
  rw [hrun]
  split
  · next hmove =>
    have hnone : ∀ e ∈ dirs, place e ≠ .temp p := fun e he => h₁.located.ne_temp hexists hmove.2.2 he
    have hupdate : ∀ e, e ≠ d → Function.update place d (.temp p) e = place e := fun e he =>
      Function.update_of_ne he _ _
    have hfree : (s₁.push (.sceIoRename d p)).world.fs d = none := by
      rw [Pass.world_push]
      have hempty := congrFun (Tree.below_move_src s₁.world.fs (apart_content_temp (hdirs d hd) hp)) []
      rw [Tree.below_apply, List.append_nil] at hempty
      exact hempty
    obtain ⟨t, place', ht, hstart, htracked, hleaves⟩ := finish_temp (a := a) (x := x)
      (h₁.push (h₁.located.toTemp hdirs hp hd hhome hnone)) hdirs hexists hp hd
      (Function.update_self ..) (fun e he hne => by rw [hupdate e hne]; exact hnone e he) hfree
      hmove.1 hx
    refine ⟨t, place', ht, hstart, htracked, fun e he hne => ?_, hleaves.own⟩
    rw [← hupdate e hne]
    exact hleaves.others e he hne
  · exact finish_home h₁ hexists hd hhome hx

end Callback

/-- What a callback can do: nothing to the files, or one `reinstall`. -/
theorem callback_cases {dirs : List Path} (hdirs : ∀ e ∈ dirs, IsContent e) (r : Listed) (s : Pass) :
    ((finalState (callback r s)).start = s.start ∧ (finalState (callback r s)).steps = s.steps) ∨
    ∃ p x, r.answers.refreshNeeded = true ∧ r.temp = some p ∧
      callback r s = reinstall r.answers r.path p x s ∧
      (IsTemp p → Promotes dirs p r.answers.promoter x) := by
  by_cases hpass : s.refreshPass = true
  · by_cases hneeded : r.answers.refreshNeeded = true
    · cases hcontent : r.content with
      | app =>
        refine Or.inr ⟨appTemp, _, hneeded, by rw [Listed.temp, hcontent], ?_, fun hp =>
          promotes_app hdirs hp r.answers⟩
        simp only [callback, appCallback, contentCallback, bind_apply, get_apply, ite_run, hcontent,
          hpass, hneeded, if_true, Listed.path]
      | patch =>
        refine Or.inr ⟨patchTemp, _, hneeded, by rw [Listed.temp, hcontent], ?_, fun hp =>
          promotes_app hdirs hp r.answers⟩
        simp only [callback, patchCallback, contentCallback, bind_apply, get_apply, ite_run, hcontent,
          hpass, hneeded, if_true, Listed.path]
      | psm =>
        cases hcid : r.answers.cidFile with
        | none =>
          left
          simp only [callback, psmCallback, bind_apply, get_apply, ite_run, hcontent, hpass, hneeded,
            if_true, hcid, throw_apply, finalState_error, and_self]
        | some cidFile =>
          refine Or.inr ⟨psmTemp ++ names (titleId cidFile), _, hneeded, ?_, ?_, fun hp =>
            promotes_psm hdirs hp r.answers.promoter⟩
          · rw [Listed.temp, hcontent]
            simp only [hcid, Option.map_some]
          · simp only [callback, psmCallback, bind_apply, get_apply, ite_run, hcontent, hpass, hneeded,
              if_true, hcid, Listed.path]
    · left
      cases hcontent : r.content with
      | app => simp [callback, appCallback, contentCallback, bind_apply, get_apply, hcontent, hpass,
          hneeded, pure_apply]
      | patch => simp [callback, patchCallback, contentCallback, bind_apply, get_apply, hcontent, hpass,
          hneeded, pure_apply]
      | psm => simp [callback, psmCallback, bind_apply, get_apply, hcontent, hpass, hneeded, pure_apply]
  · left
    cases hcontent : r.content with
    | app => simp [callback, appCallback, contentCallback, bind_apply, get_apply, hcontent, hpass,
        addCount, modify_apply]
    | patch => simp [callback, patchCallback, contentCallback, bind_apply, get_apply, hcontent, hpass,
        addCount, modify_apply]
    | psm => simp [callback, psmCallback, bind_apply, get_apply, hcontent, hpass, addCount, modify_apply]

theorem Tracked.congr {dirs : List Path} {place : Path → Place} {s t : Pass}
    (h : Tracked dirs place s) (hstart : t.start = s.start) (hsteps : t.steps = s.steps) :
    Tracked dirs place t := by
  have hworld : t.world = s.world := by rw [Pass.world, hstart, hsteps, Pass.world]
  constructor
  · rw [hstart, hsteps]
    exact h.safe
  · rw [hstart, hworld]
    exact h.located

theorem Listed.isContent (r : Listed) : IsContent r.path := ⟨r.content, r.subdir, rfl⟩

theorem callback_tracked {dirs : List Path} {place : Path → Place} {s : Pass} {r : Listed}
    (h : Tracked dirs place s) (hdirs : ∀ e ∈ dirs, IsContent e)
    (hexists : ∀ e ∈ dirs, s.start.fs e ≠ none) (hr : r.path ∈ dirs) (htitle : r.PlainTitle)
    (hhome : place r.path = .home)
    (hclear : ∀ e ∈ dirs, ∀ p, place e = .temp p → ¬ r.Clears p) :
    ∃ place', (finalState (callback r s)).start = s.start ∧
      Tracked dirs place' (finalState (callback r s)) ∧
      (∀ e ∈ dirs, e ≠ r.path → place' e = place e ∨ (place e ≠ .home ∧ place' e = .accepted)) ∧
      ∀ p, place' r.path = .temp p → r.temp = some p ∧ r.Strands := by
  rcases callback_cases hdirs r s with ⟨hstart, hsteps⟩ | ⟨p, x, hneeded, htemp, hrun, hx⟩
  · refine ⟨place, hstart, h.congr hstart hsteps, fun _ _ _ => Or.inl rfl, fun p hp => ?_⟩
    rw [hhome] at hp
    cases hp
  · have hp : IsTemp p := r.isTemp htitle htemp
    have hkept : (∀ rel, r.answers.removePath rel = true) ∨ ∀ e ∈ dirs, place e ≠ .temp p := by
      by_cases hall : ∀ rel, r.answers.removePath rel = true
      · exact Or.inl hall
      · obtain ⟨rel, hrel⟩ := not_forall.mp hall
        exact Or.inr fun e he hplace =>
          hclear e he p hplace ⟨hneeded, htemp, rel, by simpa using hrel⟩
    obtain ⟨t, place', ht, hstart, htracked, hleaves⟩ :=
      reinstall_tracked h hdirs hexists hp hr hhome (hx hp) hkept
    rw [hrun, ht]
    refine ⟨place', hstart, htracked, hleaves.others, fun q hq => ?_⟩
    obtain ⟨rfl, hmoved, hrefused, hback⟩ := hleaves.own q hq
    exact ⟨htemp, hneeded, hmoved, hrefused, hback⟩

/-! ## The pass -/

theorem run_tracked {dirs : List Path} (hdirs : ∀ e ∈ dirs, IsContent e) (rounds : List Listed)
    (place : Path → Place) (s : Pass) (h : Tracked dirs place s)
    (hexists : ∀ e ∈ dirs, s.start.fs e ≠ none) (hmem : ∀ r ∈ rounds, r.path ∈ dirs)
    (hnodup : (rounds.map Listed.path).Nodup) (htitle : ∀ r ∈ rounds, r.PlainTitle)
    (hhome : ∀ r ∈ rounds, place r.path = .home)
    (hclear : ∀ e ∈ dirs, ∀ p, place e = .temp p → ∀ r ∈ rounds, ¬ r.Clears p)
    (hrestored : rounds.Pairwise fun r r' => r.Strands → ∀ p, r.temp = some p → ¬ r'.Clears p) :
    (finalState (refreshPass rounds s)).start = s.start ∧
      ∃ place', Tracked dirs place' (finalState (refreshPass rounds s)) := by
  induction rounds generalizing place s with
  | nil => exact ⟨rfl, place, h⟩
  | cons r rest ih =>
    rw [List.map_cons, List.nodup_cons] at hnodup
    rw [List.pairwise_cons] at hrestored
    rw [List.forall_mem_cons] at hmem htitle hhome
    obtain ⟨place', hstart, htracked, hothers, hown⟩ := callback_tracked h hdirs hexists hmem.1
      htitle.1 hhome.1 fun e he p hp => hclear e he p hp r List.mem_cons_self
    rw [refreshPass, runAll_cons]
    cases hrun : callback r s with
    | error e t =>
      rw [hrun] at hstart htracked
      exact ⟨hstart, place', htracked⟩
    | ok _ t =>
      rw [hrun, finalState_ok] at hstart htracked
      rw [← hstart] at hexists ⊢
      apply ih place' t htracked hexists hmem.2 hnodup.2 htitle.2
      · intro r' hr'
        have hne : r'.path ≠ r.path := by
          intro heq
          exact hnodup.1 (heq ▸ List.mem_map_of_mem hr')
        rcases hothers _ (hmem.2 r' hr') hne with hsame | ⟨haway, -⟩
        · rw [hsame]
          exact hhome.2 r' hr'
        · exact absurd (hhome.2 r' hr') haway
      · intro e he p hp r' hr'
        by_cases her : e = r.path
        · subst her
          obtain ⟨htemp, hstrands⟩ := hown p hp
          exact hrestored.1 r' hr' hstrands p htemp
        · rcases hothers e he her with hsame | ⟨-, hacc⟩
          · rw [hsame] at hp
            exact hclear e he p hp r' (List.mem_cons_of_mem _ hr')
          · rw [hacc] at hp
            cases hp
      · exact hrestored.2

/-- **No directory is lost**: when every listed directory is there once, the title ids are names, and
no callback clears a temp path in which an earlier one has left its directory, then at every point of
the pass each directory is at home, in a temp path, or accepted. -/
theorem refreshPass_safe (rounds : List Listed) (s : Pass) (hs : s.steps = [])
    (hexists : ∀ r ∈ rounds, s.start.fs r.path ≠ none) (hnodup : (rounds.map Listed.path).Nodup)
    (htitle : ∀ r ∈ rounds, r.PlainTitle)
    (hrestored : rounds.Pairwise fun r r' => r.Strands → ∀ p, r.temp = some p → ¬ r'.Clears p) :
    AtEveryPoint (Safe s.start.fs (rounds.map Listed.path)) World.step s.start
      (finalState (refreshPass rounds s)).steps := by
  have hworld : s.world = s.start := by rw [Pass.world, hs, replay_nil]
  have hlocated : Located s.start.fs (rounds.map Listed.path) (fun _ => .home) s.world := by
    intro d _
    rw [hworld]
    exact fun _ _ => rfl
  have htracked : Tracked (rounds.map Listed.path) (fun _ => .home) s := by
    constructor
    · have hsafe := hlocated.safe
      rw [hworld] at hsafe
      rw [hs]
      exact atEveryPoint_nil hsafe
    · exact hlocated
  obtain ⟨hstart, place, hfinal⟩ := run_tracked
    (List.forall_mem_map.mpr fun r _ => r.isContent) rounds _ s htracked
    (List.forall_mem_map.mpr hexists) (fun r hr => List.mem_map_of_mem hr) hnodup htitle
    (fun _ _ => rfl) (fun _ _ _ hp => nomatch hp) hrestored
  have hsafe := hfinal.safe
  rwa [hstart] at hsafe

/-! ## Two apps -/

def twoApps : World where
  fs := fun q =>
    if q = [ux0, bytes "app", bytes "A"] then some .dir
    else if q = [ux0, bytes "app", bytes "A", bytes "a"] then some (.file [])
    else if q = [ux0, bytes "app", bytes "B"] then some .dir
    else none
  accepted := []

def calmAnswers : Answers where
  refreshNeeded := true
  removePath := fun _ => false
  renameToTemp := true
  renameBack := true
  cidFile := none
  readWorkBin := true
  sceIoRemove := 0
  queryRif := none
  sceIoOpen := 1
  sceIoWrite := rifSize
  promoter :=
    { loadScePaf := 0, sceSysmoduleLoadModuleInternal := 0, scePromoterUtilityInit := 0
      scePromoterUtilityPromote := 0, leftover := Tree.empty, scePromoterUtilityExit := 0
      sceSysmoduleUnloadModuleInternal := 0, unloadScePaf := 0 }

def startPass : Pass where
  start := twoApps
  steps := []
  refreshPass := true
  count := 0
  refreshed := 0

/-- The promoter refuses the first app, and the rename back answers `back`. -/
def listedApps (back : Bool) : List Listed :=
  [⟨.app, bytes "A", { calmAnswers with
      promoter := { calmAnswers.promoter with scePromoterUtilityPromote := -1 }
      renameBack := back }⟩,
    ⟨.app, bytes "B", calmAnswers⟩]

theorem refreshPass_safe_twoApps :
    AtEveryPoint (Safe twoApps.fs ((listedApps true).map Listed.path)) World.step twoApps
      (finalState (refreshPass (listedApps true) startPass)).steps := by
  refine refreshPass_safe (listedApps true) startPass rfl (by decide) (by decide) ?_ ?_
  · intro r hr hpsm
    have happ : r.content = .app := by
      simp only [listedApps, List.mem_cons, List.not_mem_nil, or_false] at hr
      rcases hr with rfl | rfl
      · rfl
      · rfl
    rw [happ] at hpsm
    cases hpsm
  · refine List.pairwise_pair.mpr fun hstrands => ?_
    exact absurd hstrands.2.2.2 (by decide)

/-- The rename back fails for the first app, and the second one clears the temp path. -/
theorem refreshPass_loses_app :
    (∀ r ∈ listedApps false, twoApps.fs r.path ≠ none) ∧
      ((listedApps false).map Listed.path).Nodup ∧
      ¬ AtEveryPoint (Safe twoApps.fs ((listedApps false).map Listed.path)) World.step twoApps
        (finalState (refreshPass (listedApps false) startPass)).steps := by
  refine ⟨by decide, by decide, fun h => ?_⟩
  obtain ⟨place, hat⟩ := h 5 [ux0, bytes "app", bytes "A"] List.mem_cons_self
  cases place with
  | home => exact absurd (hat [] (by decide)) (by decide)
  | temp p =>
    obtain ⟨hp, hwhole⟩ := hat
    have hroot := hwhole [] (by decide)
    rcases hp with rfl | rfl | ⟨titleid, rfl⟩
    · exact absurd hroot (by decide)
    · exact absurd hroot (by decide)
    · cases hroot
  | accepted =>
    obtain ⟨t, ht, hwhole⟩ := hat
    obtain rfl := List.mem_singleton.mp ht
    exact absurd (hwhole [bytes "a"] (by decide)) (by decide)

end VitaConnect.Refresh

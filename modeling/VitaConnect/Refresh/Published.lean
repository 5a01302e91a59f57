import VitaConnect.Refresh.Transaction

/-! # What `refresh_thread` publishes

The thread counts the directories of three trees and then refreshes them. `parse_dir_with_callback` answers 0
whatever it has met, so that both passes are always made. What is published is the number of promotions that
`promoteApp` and `promoteCma` have reported as successes, and the calls that these make behind an accepted
promotion can fail.
-/
namespace VitaConnect.Refresh
open CString Program Storage
set_option autoImplicit false

/-! ## The thread -/

/-- `refresh_data_t refresh_data = { 0, 0, 0, 0 }` -/
def Pass.begin (w : World) : Pass where
  start := w
  steps := []
  refreshPass := false
  count := 0
  refreshed := 0

/-- `refresh_thread` over the directories that the two passes list: it answers `nbrRefreshItem`. -/
def refreshThread (counted listed : List Listed) : RefreshM ℕ := do
  refreshPass counted
  modify fun s => { s with refreshPass := true }
  refreshPass listed
  let s ← get
  pure s.refreshed

/-! ## One promotion -/

def Pass.accepted (s : Pass) : ℕ := s.world.accepted.length

/-- What a program leaves: it has counted so many successes, and the promoter has accepted so many. -/
structure Advances (s t : Pass) (refreshed accepted : ℕ) : Prop where
  refreshPass : t.refreshPass = s.refreshPass
  refreshed : t.refreshed = s.refreshed + refreshed
  accepted : t.accepted = s.accepted + accepted

/-- The calls behind an accepted promotion succeed. -/
def Promoter.Closes (p : Promoter) (content : Content) : Prop :=
  0 ≤ p.scePromoterUtilityExit ∧ 0 ≤ p.sceSysmoduleUnloadModuleInternal ∧
    if content = .psm then p.unloadScePaf = 0 else 0 ≤ p.unloadScePaf

instance (p : Promoter) (content : Content) : Decidable (p.Closes content) :=
  inferInstanceAs (Decidable (_ ∧ _ ∧ _))

def Promoter.reported (p : Promoter) (content : Content) : Bool := p.Accepts ∧ p.Closes content

def Promoter.accepts (p : Promoter) : ℕ := if p.Accepts then 1 else 0

section Steps
variable {s t u : Pass} {m n k l : ℕ}

theorem Advances.refl (s : Pass) : Advances s s 0 0 := ⟨rfl, rfl, rfl⟩

theorem Advances.trans (h : Advances s t m n) (h' : Advances t u k l) : Advances s u (m + k) (n + l) := by
  refine ⟨h'.refreshPass.trans h.refreshPass, ?_, ?_⟩
  · rw [h'.refreshed, h.refreshed, Nat.add_assoc]
  · rw [h'.accepted, h.accepted, Nat.add_assoc]

theorem Advances.after (h : Advances s t 0 0) (h' : Advances t u k l) : Advances s u k l := by
  have hboth := h.trans h'
  rwa [Nat.zero_add, Nat.zero_add] at hboth

theorem advances_push (s : Pass) {e : Step} (he : ∀ w : World, (w.step e).accepted = w.accepted) :
    Advances s (s.push e) 0 0 := by
  refine ⟨rfl, rfl, ?_⟩
  rw [Pass.accepted, Pass.world_push, he]
  rfl

theorem advances_promote (s : Pass) (p : Path) (leftover : FileSystem) :
    Advances s (s.push (.promote p leftover)) 0 1 := by
  refine ⟨rfl, rfl, ?_⟩
  rw [Pass.accepted, Pass.world_push, World.step, List.length_append]
  rfl

theorem promoteWith_advances (p : Promoter) (path : Path) (s : Pass) :
    ∃ res t, promoteWith p path s = .ok res t ∧ Advances s t 0 p.accepts ∧
      (p.Accepts ∧ p.Closes .app ↔ 0 ≤ res) ∧ (p.Accepts ∧ p.Closes .psm ↔ res = 0) := by
  by_cases haccepts : p.Accepts
  · have hadvances : Advances s (s.push (.promote path p.leftover)) 0 p.accepts := by
      rw [Promoter.accepts, if_pos haccepts]
      exact advances_promote s path p.leftover
    obtain ⟨h1, h2, h3, h4⟩ := haccepts
    simp only [promoteWith, not_lt.mpr h1, not_lt.mpr h2, not_lt.mpr h3, not_lt.mpr h4, if_false, bind_apply]
    have haccepts : p.Accepts := ⟨h1, h2, h3, h4⟩
    simp only [haccepts, true_and, Promoter.Closes, reduceCtorEq, if_false, if_true]
    split_ifs with hexit hunload
    · exact ⟨_, _, rfl, hadvances, by omega, by omega⟩
    · exact ⟨_, _, rfl, hadvances, by omega, by omega⟩
    · exact ⟨_, _, rfl, hadvances, by omega, by omega⟩
  · obtain ⟨res, hneg, hrun⟩ := promoteWith_refused haccepts path s
    refine ⟨res, s, hrun, ?_, ?_, ?_⟩
    · rw [Promoter.accepts, if_neg haccepts]
      exact Advances.refl s
    · exact iff_of_false (fun h => haccepts h.1) (not_le.mpr hneg)
    · exact iff_of_false (fun h => haccepts h.1) (ne_of_lt hneg)

theorem prepareWorkBin_advances (a : Answers) (p : Path) (s : Pass) :
    ∃ t, prepareWorkBin a p s = .ok ⟨⟩ t ∧ Advances s t 0 0 := by
  obtain ⟨t, ht, rfl | ⟨entry, rfl⟩⟩ := prepareWorkBin_apply a p s
  · exact ⟨t, ht, Advances.refl t⟩
  · exact ⟨_, ht, advances_push s fun _ => rfl⟩

/-- `x` hands one directory to the promoter, and reports `ok`. -/
def Reports (p : Promoter) (content : Content) (x : RefreshM Bool) : Prop :=
  ∀ s, ∃ t, x s = .ok (p.reported content) t ∧ Advances s t 0 p.accepts

theorem refreshApp_reports {content : Content} (hcontent : content ≠ .psm) (a : Answers) (path : Path) :
    Reports a.promoter content (do let res ← refreshApp a path; pure (res == 1)) := by
  intro s
  obtain ⟨t, ht, hprepared⟩ := prepareWorkBin_advances a path s
  obtain ⟨res, u, hu, hpromoted, happ, -⟩ := promoteWith_advances a.promoter path t
  refine ⟨u, ?_, hprepared.after hpromoted⟩
  have hcloses : a.promoter.Closes content ↔ a.promoter.Closes .app := by
    simp [Promoter.Closes, hcontent]
  have hok : ((if res < 0 then res else 1) == 1) = a.promoter.reported content := by
    rw [Bool.eq_iff_iff, Promoter.reported, decide_eq_true_iff, hcloses, happ, beq_iff_eq]
    split_ifs with hres <;> omega
  simp only [refreshApp, promoteApp, bind_apply, ht, hu, pure_apply, hok]

theorem promoteCma_reports (p : Promoter) (path : Path) (titleid : CStr) :
    Reports p .psm (do let res ← promoteCma p path titleid; pure (res == 0)) := by
  intro s
  obtain ⟨res, u, hu, hpromoted, -, hpsm⟩ := promoteWith_advances p (path ++ names titleid) s
  refine ⟨u, ?_, hpromoted⟩
  have hok : (res == 0) = p.reported .psm := by
    rw [Bool.eq_iff_iff, Promoter.reported, decide_eq_true_iff, hpsm, beq_iff_eq]
  simp only [promoteCma, bind_apply, hu, pure_apply, hok]

theorem sceIoRename_advances (answer : Bool) (src dst : Path) (s : Pass) :
    ∃ t, sceIoRename answer src dst s = .ok ⟨⟩ t ∧ Advances s t 0 0 := by
  refine ⟨_, sceIoRename_apply answer src dst s, ?_⟩
  split
  · exact advances_push s fun _ => rfl
  · exact Advances.refl s

theorem reinstall_advances {p : Promoter} {content : Content} {x : RefreshM Bool} (hx : Reports p content x)
    (a : Answers) (path temp : Path) (s : Pass) :
    ∃ t, reinstall a path temp x s = .ok ⟨⟩ t ∧ Advances s t (p.reported content).toNat p.accepts := by
  have hremoved := advances_push s (e := .removePath temp a.removePath) fun _ => rfl
  obtain ⟨t, ht, hmoved⟩ := sceIoRename_advances a.renameToTemp path temp
    (s.push (.removePath temp a.removePath))
  obtain ⟨u, hu, hpromoted⟩ := hx t
  have hsofar := (hremoved.after hmoved).after hpromoted
  simp only [reinstall, bind_apply, removePath_apply, ht, hu]
  cases p.reported content with
  | true => exact ⟨_, rfl, hsofar.refreshPass, congrArg (· + 1) hsofar.refreshed, hsofar.accepted⟩
  | false =>
    obtain ⟨v, hv, hback⟩ := sceIoRename_advances a.renameBack temp path u
    exact ⟨v, hv, hsofar.trans hback⟩

end Steps

/-! ## One callback -/

/-- `psm_callback` reads the title id from a buffer that it has not got. -/
def Listed.Faults (r : Listed) : Prop :=
  r.answers.refreshNeeded = true ∧ r.content = .psm ∧ r.answers.cidFile = none

/-- A directory that needs a refresh: its title id can be read, and when the promoter accepts it, the calls behind
it succeed. -/
def Listed.Settles (r : Listed) : Prop :=
  r.answers.refreshNeeded = true → (r.content = .psm → r.answers.cidFile ≠ none) ∧
    (r.answers.promoter.Accepts → r.answers.promoter.Closes r.content)

def Listed.refreshed (r : Listed) : ℕ :=
  if r.answers.refreshNeeded then (r.answers.promoter.reported r.content).toNat else 0

def Listed.accepted (r : Listed) : ℕ := if r.answers.refreshNeeded then r.answers.promoter.accepts else 0

theorem Listed.refreshed_le (r : Listed) : r.refreshed ≤ r.accepted := by
  unfold Listed.refreshed Listed.accepted Promoter.reported Promoter.accepts
  by_cases hneeded : r.answers.refreshNeeded = true
  · by_cases haccepts : r.answers.promoter.Accepts
    · simp only [hneeded, haccepts, if_true, true_and]
      exact Bool.toNat_le _
    · simp [hneeded, haccepts]
  · simp [hneeded]

theorem Listed.settles_iff (r : Listed) : r.Settles ↔ ¬ r.Faults ∧ r.refreshed = r.accepted := by
  unfold Listed.Settles Listed.Faults Listed.refreshed Listed.accepted Promoter.reported Promoter.accepts
  by_cases hneeded : r.answers.refreshNeeded = true
  · by_cases haccepts : r.answers.promoter.Accepts
    · by_cases hcloses : r.answers.promoter.Closes r.content <;> simp [hneeded, haccepts, hcloses]
    · simp [hneeded, haccepts]
  · simp [hneeded]

theorem callback_advances (r : Listed) {s : Pass} (hs : s.refreshPass = true) :
    (r.Faults ∧ ∃ t, callback r s = .error .nullPointer t) ∨
      (¬ r.Faults ∧ ∃ t, callback r s = .ok ⟨⟩ t ∧ Advances s t r.refreshed r.accepted) := by
  unfold Listed.Faults Listed.refreshed Listed.accepted
  by_cases hneeded : r.answers.refreshNeeded = true
  · simp only [hneeded, if_true, true_and]
    cases hcontent : r.content with
    | app =>
      have hreports := @refreshApp_reports .app (by simp) r.answers appTemp
      obtain ⟨t, ht, hadvances⟩ := reinstall_advances hreports r.answers r.path appTemp s
      refine Or.inr ⟨by simp, t, ?_, hadvances⟩
      simpa only [callback, appCallback, contentCallback, bind_apply, get_apply, ite_run, hcontent, hs, hneeded,
        if_true, Listed.path] using ht
    | patch =>
      have hreports := @refreshApp_reports .patch (by simp) r.answers patchTemp
      obtain ⟨t, ht, hadvances⟩ := reinstall_advances hreports r.answers r.path patchTemp s
      refine Or.inr ⟨by simp, t, ?_, hadvances⟩
      simpa only [callback, patchCallback, contentCallback, bind_apply, get_apply, ite_run, hcontent, hs, hneeded,
        if_true, Listed.path] using ht
    | psm =>
      cases hcid : r.answers.cidFile with
      | none =>
        refine Or.inl ⟨⟨rfl, rfl⟩, s, ?_⟩
        simp only [callback, psmCallback, bind_apply, get_apply, ite_run, hcontent, hs, hneeded, if_true, hcid,
          throw_apply]
      | some cidFile =>
        have hreports := promoteCma_reports r.answers.promoter psmTemp (titleId cidFile)
        obtain ⟨t, ht, hadvances⟩ := reinstall_advances hreports r.answers r.path
          (psmTemp ++ names (titleId cidFile)) s
        refine Or.inr ⟨by simp, t, ?_, hadvances⟩
        simpa only [callback, psmCallback, bind_apply, get_apply, ite_run, hcontent, hs, hneeded, if_true, hcid,
          Listed.path] using ht
  · have hrun : callback r s = .ok ⟨⟩ s := by
      cases hcontent : r.content with
      | app => simp [callback, appCallback, contentCallback, bind_apply, get_apply, hcontent, hs, hneeded, pure_apply]
      | patch =>
        simp [callback, patchCallback, contentCallback, bind_apply, get_apply, hcontent, hs, hneeded, pure_apply]
      | psm => simp [callback, psmCallback, bind_apply, get_apply, hcontent, hs, hneeded, pure_apply]
    refine Or.inr ⟨fun h => hneeded h.1, s, hrun, ?_⟩
    simp only [hneeded, Bool.false_eq_true, if_false]
    exact Advances.refl s

/-! ## The passes -/

theorem callback_counts (r : Listed) {s : Pass} (hs : s.refreshPass = false) :
    callback r s = .ok ⟨⟩ { s with count := s.count + 1 } := by
  cases hcontent : r.content with
  | app => simp [callback, appCallback, contentCallback, bind_apply, get_apply, hcontent, hs, addCount, modify_apply]
  | patch =>
    simp [callback, patchCallback, contentCallback, bind_apply, get_apply, hcontent, hs, addCount, modify_apply]
  | psm => simp [callback, psmCallback, bind_apply, get_apply, hcontent, hs, addCount, modify_apply]

theorem refreshPass_counting (counted : List Listed) {s : Pass} (hs : s.refreshPass = false) :
    refreshPass counted s = .ok ⟨⟩ { s with count := s.count + counted.length } := by
  unfold refreshPass
  induction counted generalizing s with
  | nil => rfl
  | cons r rest ih =>
    rw [runAll_cons, callback_counts r hs]
    dsimp only
    have hrest := ih (s := { s with count := s.count + 1 }) hs
    rw [Nat.add_assoc, Nat.add_comm 1] at hrest
    exact hrest

/-- Up to a callback that faults, the successes and the acceptances add up. -/
theorem refreshPass_advances (listed : List Listed) {s : Pass} (hs : s.refreshPass = true) :
    ((∃ r ∈ listed, r.Faults) ∧ ∃ t, refreshPass listed s = .error .nullPointer t) ∨
      ((∀ r ∈ listed, ¬ r.Faults) ∧ ∃ t, refreshPass listed s = .ok ⟨⟩ t ∧
        Advances s t (listed.map Listed.refreshed).sum (listed.map Listed.accepted).sum) := by
  unfold refreshPass
  induction listed generalizing s with
  | nil => exact Or.inr ⟨List.forall_mem_nil _, s, rfl, Advances.refl s⟩
  | cons r rest ih =>
    rw [runAll_cons]
    rcases callback_advances r hs with ⟨hfaults, t, ht⟩ | ⟨hfine, t, ht, hfirst⟩
    · rw [ht]
      exact Or.inl ⟨⟨r, List.mem_cons_self, hfaults⟩, t, rfl⟩
    · rw [ht]
      dsimp only
      rcases ih (hfirst.refreshPass.trans hs) with ⟨⟨r', hr', hfaults⟩, u, hu⟩ | ⟨hrest, u, hu, hadvances⟩
      · exact Or.inl ⟨⟨r', List.mem_cons_of_mem r hr', hfaults⟩, u, hu⟩
      · refine Or.inr ⟨List.forall_mem_cons.mpr ⟨hfine, hrest⟩, u, hu, ?_⟩
        rw [List.map_cons, List.map_cons, List.sum_cons, List.sum_cons]
        exact hfirst.trans hadvances

theorem sum_refreshed_iff (listed : List Listed) :
    (listed.map Listed.refreshed).sum = (listed.map Listed.accepted).sum ↔
      ∀ r ∈ listed, r.refreshed = r.accepted := by
  have hle : ∀ rest : List Listed, (rest.map Listed.refreshed).sum ≤ (rest.map Listed.accepted).sum := fun rest =>
    List.sum_le_sum fun r _ => r.refreshed_le
  induction listed with
  | nil => simp
  | cons r rest ih =>
    have hr := r.refreshed_le
    have hrest := hle rest
    rw [List.map_cons, List.map_cons, List.sum_cons, List.sum_cons, List.forall_mem_cons]
    refine ⟨fun hsum => ⟨by omega, ih.mp (by omega)⟩, fun hall => ?_⟩
    rw [hall.1, ih.mpr hall.2]

/-- **The published number.** `refresh_thread` comes to its end and publishes how many promotions the promoter has
accepted exactly when every directory that needs a refresh has a readable title id and, once accepted, has the calls
behind its promotion succeed. -/
theorem refreshThread_published_iff (counted listed : List Listed) (w : World) :
    (∃ nbrRefreshItem t, refreshThread counted listed (Pass.begin w) = .ok nbrRefreshItem t ∧
      t.world.accepted.length = w.accepted.length + nbrRefreshItem) ↔ ∀ r ∈ listed, r.Settles := by
  set s : Pass := { Pass.begin w with count := counted.length, refreshPass := true } with hs
  have haccepted : s.accepted = w.accepted.length := rfl
  have hcounted := refreshPass_counting counted (s := Pass.begin w) rfl
  rw [show (Pass.begin w).count = 0 from rfl, Nat.zero_add] at hcounted
  have hrun : refreshThread counted listed (Pass.begin w) =
      (do refreshPass listed; let s ← get; pure s.refreshed) s := by
    rw [refreshThread, bind_of_ok hcounted, bind_apply, modify_apply]
  rw [hrun]
  rcases refreshPass_advances listed (s := s) rfl with ⟨⟨r, hr, hfaults⟩, t, ht⟩ | ⟨hfine, t, ht, hadvances⟩
  · rw [bind_apply, ht]
    refine iff_of_false ?_ fun hsettles => ((r.settles_iff).mp (hsettles r hr)).1 hfaults
    rintro ⟨n, u, hu, -⟩
    cases hu
  · rw [bind_of_ok ht, bind_apply, get_apply]
    have hnumber : t.refreshed = (listed.map Listed.refreshed).sum := by
      rw [hadvances.refreshed]
      exact Nat.zero_add _
    have hlength : t.world.accepted.length = w.accepted.length + (listed.map Listed.accepted).sum := by
      rw [← haccepted]
      exact hadvances.accepted
    have hall : (∀ r ∈ listed, r.Settles) ↔ ∀ r ∈ listed, r.refreshed = r.accepted :=
      forall₂_congr fun r hr => (r.settles_iff).trans (and_iff_right (hfine r hr))
    rw [hall, ← sum_refreshed_iff]
    constructor
    · rintro ⟨n, u, hu, heq⟩
      obtain ⟨rfl, rfl⟩ : t.refreshed = n ∧ t = u := by
        cases hu
        exact ⟨rfl, rfl⟩
      omega
    · intro hsum
      exact ⟨t.refreshed, t, rfl, by rw [hlength, hnumber, hsum]⟩

end VitaConnect.Refresh

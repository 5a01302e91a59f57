import VitaConnect.CString.Basic
import VitaConnect.Program.EarlyReturn

/-! # Promotion and the existence check (`package_installer.c`)

Each of the three functions loads PAF and the promoter utility, initialises it, uses it once and takes
all this back, and returns at the first negative answer. Its outcome is the calls it has made and the
value it returns.
-/
namespace VitaConnect.Promoter
open CString Program
set_option autoImplicit false

/-! ## The functions -/

structure ImportParams where
  path : CStr
  titleid : CStr
  type : ℤ
  /-- `attribute` -/
  attr : ℤ
  deriving DecidableEq

/-- A system call with the value that `res` has behind it. -/
inductive SysCall
  | loadScePaf (res : ℤ)
  | sceSysmoduleLoadModuleInternal (res : ℤ)
  | scePromoterUtilityInit (res : ℤ)
  | scePromoterUtilityPromoteImport (promoteArgs : ImportParams) (res : ℤ)
  | scePromoterUtilityPromotePkgWithRif (path : CStr) (res : ℤ)
  | scePromoterUtilityCheckExist (titleid : CStr) (ret res : ℤ)
  | scePromoterUtilityExit (res : ℤ)
  | sceSysmoduleUnloadModuleInternal (res : ℤ)
  | unloadScePaf (res : ℤ)
  deriving DecidableEq

def SysCall.res : SysCall → ℤ
  | .loadScePaf res | .sceSysmoduleLoadModuleInternal res | .scePromoterUtilityInit res
  | .scePromoterUtilityPromoteImport _ res | .scePromoterUtilityPromotePkgWithRif _ res
  | .scePromoterUtilityCheckExist _ _ res | .scePromoterUtilityExit res
  | .sceSysmoduleUnloadModuleInternal res | .unloadScePaf res => res

def SysCall.failed (call : SysCall) : Bool := call.res < 0

theorem failed_eq_true_iff (call : SysCall) : call.failed = true ↔ call.res < 0 := decide_eq_true_iff

theorem failed_eq_false_iff (call : SysCall) : call.failed = false ↔ 0 ≤ call.res := by
  rw [← not_lt, ← failed_eq_true_iff, Bool.not_eq_true]

structure Answers where
  loadScePaf : ℤ
  sceSysmoduleLoadModuleInternal : ℤ
  scePromoterUtilityInit : ℤ
  scePromoterUtilityExit : ℤ
  sceSysmoduleUnloadModuleInternal : ℤ
  unloadScePaf : ℤ

structure Outcome where
  made : List SysCall
  ret : ℤ
  deriving DecidableEq

def steps (a : Answers) (use : SysCall) : List SysCall :=
  [.loadScePaf a.loadScePaf,
    .sceSysmoduleLoadModuleInternal a.sceSysmoduleLoadModuleInternal,
    .scePromoterUtilityInit a.scePromoterUtilityInit,
    use,
    .scePromoterUtilityExit a.scePromoterUtilityExit,
    .sceSysmoduleUnloadModuleInternal a.sceSysmoduleUnloadModuleInternal,
    .unloadScePaf a.unloadScePaf]

/-- `final` is returned when no call has failed. -/
def runSteps (calls : List SysCall) (final : ℤ) : Outcome where
  made := untilFailure SysCall.failed calls
  ret := ((calls.find? SysCall.failed).map SysCall.res).getD final

def promoteCma (path titleid : CStr) (type : ℤ) (a : Answers) (res : ℤ) : Outcome :=
  let promoteArgs :=
    { path := path.take 0x7F, titleid := titleid.take 0xB, type := type, attr := 1 }
  runSteps (steps a (.scePromoterUtilityPromoteImport promoteArgs res)) a.unloadScePaf

def promoteApp (path : CStr) (a : Answers) (res : ℤ) : Outcome :=
  runSteps (steps a (.scePromoterUtilityPromotePkgWithRif path res)) a.unloadScePaf

/-- `exist` is what the check stores in `res`, when it stores anything. -/
def checkAppExist (titleid : CStr) (a : Answers) (ret : ℤ) (exist : Option ℤ) : Outcome :=
  let res := exist.getD a.scePromoterUtilityInit
  runSteps (steps a (.scePromoterUtilityCheckExist titleid ret res)) (if 0 ≤ ret then 1 else 0)

/-! ## What is held -/

inductive Resource
  | paf | promoterModule | promoterUtility
  deriving DecidableEq

/-- A call that fails takes nothing and gives nothing back. -/
def resources : Ledger SysCall Resource where
  acquires
    | .loadScePaf res => if 0 ≤ res then some .paf else none
    | .sceSysmoduleLoadModuleInternal res => if 0 ≤ res then some .promoterModule else none
    | .scePromoterUtilityInit res => if 0 ≤ res then some .promoterUtility else none
    | _ => none
  releases
    | .unloadScePaf res => if 0 ≤ res then some .paf else none
    | .sceSysmoduleUnloadModuleInternal res => if 0 ≤ res then some .promoterModule else none
    | .scePromoterUtilityExit res => if 0 ≤ res then some .promoterUtility else none
    | _ => none
  uses
    | .scePromoterUtilityPromoteImport .. => some .promoterUtility
    | .scePromoterUtilityPromotePkgWithRif .. => some .promoterUtility
    | .scePromoterUtilityCheckExist .. => some .promoterUtility
    | _ => none
  apart e k h := by
    cases e <;> simp at h ⊢

/-- The call takes nothing and gives nothing back. -/
def SysCall.Neutral (call : SysCall) : Prop :=
  resources.acquires call = none ∧ resources.releases call = none

theorem SysCall.Neutral.change_eq {call : SysCall} (h : call.Neutral) (k : Resource) :
    resources.change k call = 0 := by
  simp [Ledger.change, h.1, h.2]

theorem change_loadScePaf (res : ℤ) : resources.change .paf (.loadScePaf res) =
    if (SysCall.loadScePaf res).failed then 0 else 1 := by
  rcases lt_or_ge res 0 with h | h
  · simp [Ledger.change, resources, SysCall.failed, SysCall.res, h, not_le.mpr h]
  · simp [Ledger.change, resources, SysCall.failed, SysCall.res, h, not_lt.mpr h]

theorem change_unloadScePaf (res : ℤ) : resources.change .paf (.unloadScePaf res) =
    if (SysCall.unloadScePaf res).failed then 0 else -1 := by
  rcases lt_or_ge res 0 with h | h
  · simp [Ledger.change, resources, SysCall.failed, SysCall.res, h, not_le.mpr h]
  · simp [Ledger.change, resources, SysCall.failed, SysCall.res, h, not_lt.mpr h]

/-! ## One function -/

/-- No call of the function fails. -/
structure Succeeds (a : Answers) (res : ℤ) : Prop where
  loadScePaf : 0 ≤ a.loadScePaf
  loadModule : 0 ≤ a.sceSysmoduleLoadModuleInternal
  init : 0 ≤ a.scePromoterUtilityInit
  use : 0 ≤ res
  exit : 0 ≤ a.scePromoterUtilityExit
  unloadModule : 0 ≤ a.sceSysmoduleUnloadModuleInternal
  unloadScePaf : 0 ≤ a.unloadScePaf

section Steps
variable {a : Answers} {use : SysCall}

theorem succeeds_iff : (∀ call ∈ steps a use, call.failed = false) ↔ Succeeds a use.res := by
  simp only [steps, List.forall_mem_cons, failed_eq_false_iff]
  constructor
  · rintro ⟨h1, h2, h3, h4, h5, h6, h7, -⟩
    exact ⟨h1, h2, h3, h4, h5, h6, h7⟩
  · intro h
    exact ⟨h.loadScePaf, h.loadModule, h.init, h.use, h.exit, h.unloadModule, h.unloadScePaf,
      List.forall_mem_nil _⟩

theorem runSteps_of_succeeds (h : Succeeds a use.res) (final : ℤ) :
    runSteps (steps a use) final = { made := steps a use, ret := final } := by
  have hok := succeeds_iff.mpr h
  have hfind : (steps a use).find? SysCall.failed = none :=
    List.find?_eq_none.mpr fun call hcall => by simp [hok call hcall]
  rw [runSteps, untilFailure_of_ok hok, hfind]
  rfl

theorem runSteps_of_load_failed (h : a.loadScePaf < 0) (final : ℤ) :
    runSteps (steps a use) final = { made := [.loadScePaf a.loadScePaf], ret := a.loadScePaf } := by
  have hfail : (SysCall.loadScePaf a.loadScePaf).failed = true := (failed_eq_true_iff _).mpr h
  rw [runSteps, steps, untilFailure_cons_of_failed hfail, List.find?_cons_of_pos hfail]
  rfl

theorem net_steps (huse : use.Neutral) (h : Succeeds a use.res) (k : Resource) :
    resources.net k (steps a use) = 0 := by
  simp only [steps, Ledger.net_cons, Ledger.net_nil, huse.change_eq]
  cases k <;>
    simp [Ledger.change, resources, h.loadScePaf, h.loadModule, h.init, h.exit, h.unloadModule,
      h.unloadScePaf]

/-- Everything is given back when nothing was loaded, and otherwise only when nothing fails. -/
theorem runSteps_balanced_iff (huse : use.Neutral) (final : ℤ) :
    (∀ k, resources.net k (runSteps (steps a use) final).made = 0) ↔
      a.loadScePaf < 0 ∨ Succeeds a use.res := by
  constructor
  · intro h
    have hmid : ∀ call ∈ ((steps a use).drop 1).dropLast, resources.change .paf call = 0 := by
      simp only [steps, List.drop_succ_cons, List.drop_zero, List.dropLast_cons_cons,
        List.dropLast_singleton, List.forall_mem_cons, huse.change_eq]
      simp [Ledger.change, resources]
    have hpaf := (Ledger.net_untilFailure_bracket (change_loadScePaf _) hmid
      (change_unloadScePaf _)).mp (h .paf)
    exact hpaf.imp (failed_eq_true_iff _).mp succeeds_iff.mp
  · rintro (h | h) k
    · rw [runSteps_of_load_failed h, Ledger.net_cons, Ledger.net_nil]
      cases k <;> simp [Ledger.change, resources]
      omega
    · rw [runSteps_of_succeeds h]
      exact net_steps huse h k

end Steps

/-! ## The existence check -/

section Check
variable {titleid : CStr} {a : Answers} {ret : ℤ} {exist : Option ℤ}

/-- The callers take every value but 0 for true. -/
def Truthful (titleid : CStr) (outcome : Outcome) : Prop :=
  outcome.ret ≠ 0 →
    ∃ ret res, .scePromoterUtilityCheckExist titleid ret res ∈ outcome.made ∧ 0 ≤ ret

theorem checkAppExist_clean_iff :
    ((∀ k, resources.net k (checkAppExist titleid a ret exist).made = 0) ∧
        Truthful titleid (checkAppExist titleid a ret exist)) ↔
      Succeeds a (exist.getD a.scePromoterUtilityInit) := by
  rw [checkAppExist, runSteps_balanced_iff ⟨rfl, rfl⟩]
  constructor
  · rintro ⟨hload | h, htrue⟩
    · rw [runSteps_of_load_failed hload] at htrue
      obtain ⟨ret', res', hmem, -⟩ := htrue (ne_of_lt hload)
      simp at hmem
    · exact h
  · intro h
    refine ⟨Or.inr h, ?_⟩
    rw [runSteps_of_succeeds h]
    intro htrue
    have hret : 0 ≤ ret := by
      by_contra hneg
      exact htrue (if_neg hneg)
    exact ⟨ret, exist.getD a.scePromoterUtilityInit, by simp [steps], hret⟩

end Check

/-! ## Sequences of calls -/

inductive Call
  | promoteCma (path titleid : CStr) (type : ℤ) (a : Answers) (res : ℤ)
  | promoteApp (path : CStr) (a : Answers) (res : ℤ)
  | checkAppExist (titleid : CStr) (a : Answers) (ret : ℤ) (exist : Option ℤ)

def Call.outcome : Call → Outcome
  | .promoteCma path titleid type a res => Promoter.promoteCma path titleid type a res
  | .promoteApp path a res => Promoter.promoteApp path a res
  | .checkAppExist titleid a ret exist => Promoter.checkAppExist titleid a ret exist

def history (calls : List Call) : List SysCall := calls.flatMap fun call => call.outcome.made

structure Clean (calls : List Call) : Prop where
  balanced : ∀ p, p <+: calls → ∀ k, resources.net k (history p) = 0
  truthful : ∀ titleid a ret exist, .checkAppExist titleid a ret exist ∈ calls →
    Truthful titleid (checkAppExist titleid a ret exist)

/-- The condition under which one call leaves nothing behind and is taken for what it says. -/
def Call.Unhindered : Call → Prop
  | .promoteCma _ _ _ a res | .promoteApp _ a res => a.loadScePaf < 0 ∨ Succeeds a res
  | .checkAppExist _ a _ exist => Succeeds a (exist.getD a.scePromoterUtilityInit)

theorem unhindered_iff (call : Call) :
    ((∀ k, resources.net k call.outcome.made = 0) ∧
      ∀ titleid a ret exist, call = .checkAppExist titleid a ret exist →
        Truthful titleid (checkAppExist titleid a ret exist)) ↔ call.Unhindered := by
  cases call with
  | promoteCma path titleid type a res =>
    rw [Call.outcome, promoteCma, runSteps_balanced_iff ⟨rfl, rfl⟩]
    simp [Call.Unhindered, SysCall.res]
  | promoteApp path a res =>
    rw [Call.outcome, promoteApp, runSteps_balanced_iff ⟨rfl, rfl⟩]
    simp [Call.Unhindered, SysCall.res]
  | checkAppExist titleid a ret exist =>
    refine Iff.trans (and_congr_right fun _ => ?_) checkAppExist_clean_iff
    constructor
    · exact fun h => h titleid a ret exist rfl
    · rintro h _ _ _ _ ⟨⟩
      exact h

/-- A run of the three functions is clean exactly when every promotion loads nothing or meets no
failure, and every existence check meets no failure. -/
theorem promotions_clean_iff (calls : List Call) :
    Clean calls ↔ ∀ call ∈ calls, call.Unhindered := by
  have hbalance : (∀ p, p <+: calls → ∀ k, resources.net k (history p) = 0) ↔
      ∀ call ∈ calls, ∀ k, resources.net k call.outcome.made = 0 := by
    have hparts := fun k => resources.net_flatMap_prefix_iff (k := k) (·.outcome.made) calls
    constructor
    · exact fun h call hcall k => (hparts k).mp (fun p hp => h p hp k) call hcall
    · exact fun h p hp k => (hparts k).mpr (fun call hcall => h call hcall k) p hp
  simp only [← unhindered_iff]
  constructor
  · intro h call hcall
    exact ⟨hbalance.mp h.balanced call hcall, fun titleid a ret exist heq =>
      h.truthful titleid a ret exist (heq ▸ hcall)⟩
  · intro h
    exact ⟨hbalance.mpr fun call hcall => (h call hcall).1, fun titleid a ret exist hmem =>
      (h _ hmem).2 titleid a ret exist rfl⟩

/-- A promotion that fails leaves all three behind, and an existence check that cannot load PAF
says that the title is there. -/
theorem not_clean_failed_promotion :
    (∀ k, resources.net k (promoteApp [] ⟨0, 0, 0, 0, 0, 0⟩ (-1)).made = 1) ∧
      ¬ Clean [.promoteApp [] ⟨0, 0, 0, 0, 0, 0⟩ (-1)] ∧
      ¬ Clean [.checkAppExist [] ⟨-1, 0, 0, 0, 0, 0⟩ (-1) none] := by
  refine ⟨?_, ?_, ?_⟩
  · intro k
    cases k <;> decide
  · intro h
    have hnet := h.balanced _ (List.prefix_refl _) .paf
    revert hnet
    decide
  · intro h
    obtain ⟨ret, res, hmem, -⟩ := h.truthful [] ⟨-1, 0, 0, 0, 0, 0⟩ (-1) none
      List.mem_cons_self (by decide)
    have hmade : (checkAppExist [] ⟨-1, 0, 0, 0, 0, 0⟩ (-1) none).made = [.loadScePaf (-1)] := by
      decide
    rw [hmade] at hmem
    simp at hmem

end VitaConnect.Promoter

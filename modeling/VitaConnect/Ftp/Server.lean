import VitaConnect.CString.Basic
import VitaConnect.Ftp.ClientList
import VitaConnect.Ftp.DataConnection
import VitaConnect.Program.Ledger

/-! # Starting and stopping the server (`ftpvita_init`, `ftpvita_fini`)

`ftpvita_init` initialises what of the network library is not initialised yet, and its exits undo that
in a ladder of labels, which are functions here. `net_init`, `netctl_init` and `net_memory` remember
from one call to the next what the server owns. A call that fails answers a negative code, and one that
succeeds answers 0.
-/
namespace VitaConnect.Ftp
open CString Program
set_option autoImplicit false

/-! ## Data -/

abbrev Status := {ret : ℤ // ret ≤ 0}

structure DeviceSlot where
  name : CStr
  valid : Bool

structure CommandSlot where
  /-- `none` is NULL. -/
  cmd : Option CStr
  func : ℕ
  valid : Bool

inductive NetCall
  | malloc (ptr : Option ℕ)
  | free (ptr : ℕ)
  | sceNetInit (ret : ℤ)
  | sceNetTerm
  | sceNetCtlInit (ret : ℤ)
  | sceNetCtlTerm

def maxDevices : ℕ := 16

def maxCustomCommands : ℕ := 16

/-- The static variables of `ftpvita.c`, and the two that `ftpvita_init` is given to write to. -/
structure Server where
  deviceList : Fin maxDevices → DeviceSlot
  customCommandDispatchers : Fin maxCustomCommands → CommandSlot
  netMemory : Option ℕ
  ftpInitialized : Bool
  vitaAddr : Option UInt32
  clients : ClientList ℕ
  netctlInit : ℤ
  netInit : ℤ
  vitaIp : CStr
  vitaPort : ℕ
  calls : List NetCall

structure InitAnswers where
  sceNetShowNetstat : Status
  malloc : Option ℕ
  sceNetInit : Status
  sceNetCtlInit : Status
  sceNetCtlInetGetInfo : Status
  /-- `info.ip_address` -/
  ipAddress : CStr

def ftpPort : ℕ := 1337

/-- `SCE_NET_ERROR_ENOTINIT`, 0x804101C8. -/
def errorEnotinit : ℤ := 0x804101C8 - 0x100000000

/-- `NET_CTL_ERROR_NOT_TERMINATED`, 0x80412102. -/
def errorNotTerminated : ℤ := 0x80412102 - 0x100000000

/-- The static variables before the first call. -/
def Server.start : Server where
  deviceList := fun _ => ⟨[], false⟩
  customCommandDispatchers := fun _ => ⟨none, 0, false⟩
  netMemory := none
  ftpInitialized := false
  vitaAddr := none
  clients := ClientList.empty fun _ => ⟨none, none, 0⟩
  netctlInit := -1
  netInit := -1
  vitaIp := []
  vitaPort := 0
  calls := []

/-! ## The two functions -/

def Server.call (s : Server) (c : NetCall) : Server := { s with calls := s.calls ++ [c] }

def netCtlTerm (s : Server) : Server :=
  if s.netctlInit = 0 then { s.call .sceNetCtlTerm with netctlInit := -1 } else s

def netTerm (s : Server) : Server :=
  if s.netInit = 0 then { s.call .sceNetTerm with netInit := -1 } else s

def freeMemory (s : Server) : Server :=
  match s.netMemory with
  | none => s
  | some ptr => { s.call (.free ptr) with netMemory := none }

def errorNetinit (s : Server) : Server := freeMemory s

def errorNetctlinit (s : Server) : Server := errorNetinit (netTerm s)

def errorNetctlgetinfo (s : Server) : Server := errorNetctlinit (netCtlTerm s)

/-- The part of `ftpvita_init` behind its last check. -/
def startServer (a : InitAnswers) (s : Server) : Server :=
  { s with
    vitaIp := a.ipAddress
    vitaPort := ftpPort
    vitaAddr := (sceNetInetPton a.ipAddress).or s.vitaAddr
    deviceList := fun i => { s.deviceList i with valid := false }
    customCommandDispatchers := fun i => { s.customCommandDispatchers i with valid := false }
    ftpInitialized := true }

def initNetCtl (a : InitAnswers) (s : Server) : ℤ × Server :=
  let s := { s.call (.sceNetCtlInit a.sceNetCtlInit) with netctlInit := a.sceNetCtlInit }
  if a.sceNetCtlInit.val < 0 ∧ a.sceNetCtlInit.val ≠ errorNotTerminated then
    (a.sceNetCtlInit, errorNetctlinit s)
  else if a.sceNetCtlInetGetInfo.val < 0 then
    (a.sceNetCtlInetGetInfo, errorNetctlgetinfo s)
  else
    (0, startServer a s)

def netInitCalls (a : InitAnswers) (s : Server) : Server :=
  let s := { s.call (.malloc a.malloc) with netMemory := a.malloc }
  { s.call (.sceNetInit a.sceNetInit) with netInit := a.sceNetInit }

def ftpvitaInit (a : InitAnswers) (s : Server) : ℤ × Server :=
  if s.ftpInitialized then (-1, s)
  else if a.sceNetShowNetstat.val = 0 then
    initNetCtl a { s with netInit := -1 }
  else if a.sceNetShowNetstat.val = errorEnotinit then
    if a.sceNetInit.val < 0 then (a.sceNetInit, errorNetinit (netInitCalls a s))
    else initNetCtl a (netInitCalls a s)
  else
    (a.sceNetShowNetstat, s)

/-- The server thread and the client threads have ended when the network is released. -/
def ftpvitaFini (s : Server) : Server :=
  if s.ftpInitialized then
    let s := { s with clients := { s.clients with clientList := none, numberClients := 0 } }
    let s := if s.netctlInit = 0 then s.call .sceNetCtlTerm else s
    let s := if s.netInit = 0 then s.call .sceNetTerm else s
    let s :=
      match s.netMemory with
      | none => s
      | some ptr => s.call (.free ptr)
    { s with netctlInit := -1, netInit := -1, netMemory := none, ftpInitialized := false }
  else s

def ftpvitaAddDevice (devname : CStr) (s : Server) : ℤ × Server :=
  match (List.finRange maxDevices).find? fun i => !(s.deviceList i).valid with
  | some i => (1, { s with deviceList := Function.update s.deviceList i ⟨devname, true⟩ })
  | none => (0, s)

inductive ServerCall
  | init (a : InitAnswers)
  | fini

def Server.step (s : Server) : ServerCall → Server
  | .init a => (ftpvitaInit a s).2
  | .fini => ftpvitaFini s

/-! ## What the server owns -/

inductive Owned
  | net | netCtl | memory
  deriving DecidableEq

def netLedger : Ledger NetCall Owned where
  acquires
    | .malloc (some _) => some .memory
    | .sceNetInit ret => if ret = 0 then some .net else none
    | .sceNetCtlInit ret => if ret = 0 then some .netCtl else none
    | _ => none
  releases
    | .free _ => some .memory
    | .sceNetTerm => some .net
    | .sceNetCtlTerm => some .netCtl
    | _ => none
  uses _ := none
  apart e k hacq := by
    cases e <;> simp_all

/-- Whether the variables say that the server owns the resource. -/
def Server.owns (s : Server) : Owned → Bool
  | .net => s.netInit = 0
  | .netCtl => s.netctlInit = 0
  | .memory => s.netMemory.isSome

/-- The variables agree with the calls made. -/
structure Server.Accounts (s : Server) : Prop where
  sound : netLedger.Sound s.calls
  owns : ∀ k, netLedger.net k s.calls = if s.owns k then 1 else 0

section Steps
variable {s t : Server}

theorem Server.Accounts.call {c : NetCall} (h : s.Accounts) (hcalls : t.calls = s.calls ++ [c])
    (hacq : ∀ k, netLedger.acquires c = some k → s.owns k = false ∧ t.owns k = true)
    (hrel : ∀ k, netLedger.releases c = some k → s.owns k = true ∧ t.owns k = false)
    (hsame : ∀ k, netLedger.acquires c ≠ some k → netLedger.releases c ≠ some k →
      t.owns k = s.owns k) : t.Accounts := by
  constructor
  · rw [hcalls]
    apply h.sound.snoc
    refine ⟨fun k hk => ?_, fun k hk => ?_, nofun⟩
    · rw [h.owns, (hacq k hk).1]
      rfl
    · rw [h.owns, (hrel k hk).1]
      rfl
  · intro k
    rw [hcalls, Ledger.net_snoc, h.owns, Ledger.change]
    by_cases ha : netLedger.acquires c = some k
    · rw [if_pos ha, if_neg (netLedger.apart c k ha), (hacq k ha).1, (hacq k ha).2]
      rfl
    · by_cases hr : netLedger.releases c = some k
      · rw [if_neg ha, if_pos hr, (hrel k hr).1, (hrel k hr).2]
        rfl
      · rw [if_neg ha, if_neg hr, hsame k ha hr]
        simp

/-- `t` owns what `s` owns, without `k`. -/
structure Drops (k : Owned) (s t : Server) : Prop where
  accounts : t.Accounts
  dropped : t.owns k = false
  others : ∀ j, j ≠ k → t.owns j = s.owns j
  initialized : t.ftpInitialized = s.ftpInitialized

theorem netCtlTerm_drops (h : s.Accounts) : Drops .netCtl s (netCtlTerm s) := by
  unfold netCtlTerm
  by_cases hctl : s.netctlInit = 0
  · rw [if_pos hctl]
    have hothers : ∀ j, j ≠ .netCtl →
        ({ s.call .sceNetCtlTerm with netctlInit := -1 } : Server).owns j = s.owns j := by
      intro j hj
      cases j with
      | netCtl => exact absurd rfl hj
      | net => rfl
      | memory => rfl
    refine ⟨h.call rfl nofun ?_ fun k _ hk => hothers k ?_, rfl, hothers, rfl⟩
    · rintro k ⟨⟩
      exact ⟨by simp [Server.owns, hctl], rfl⟩
    · rintro rfl
      exact hk rfl
  · rw [if_neg hctl]
    exact ⟨h, by simp [Server.owns, hctl], fun _ _ => rfl, rfl⟩

theorem netTerm_drops (h : s.Accounts) : Drops .net s (netTerm s) := by
  unfold netTerm
  by_cases hnet : s.netInit = 0
  · rw [if_pos hnet]
    have hothers : ∀ j, j ≠ .net →
        ({ s.call .sceNetTerm with netInit := -1 } : Server).owns j = s.owns j := by
      intro j hj
      cases j with
      | net => exact absurd rfl hj
      | netCtl => rfl
      | memory => rfl
    refine ⟨h.call rfl nofun ?_ fun k _ hk => hothers k ?_, rfl, hothers, rfl⟩
    · rintro k ⟨⟩
      exact ⟨by simp [Server.owns, hnet], rfl⟩
    · rintro rfl
      exact hk rfl
  · rw [if_neg hnet]
    exact ⟨h, by simp [Server.owns, hnet], fun _ _ => rfl, rfl⟩

theorem freeMemory_drops (h : s.Accounts) : Drops .memory s (freeMemory s) := by
  unfold freeMemory
  cases hmem : s.netMemory with
  | none => exact ⟨h, by simp [Server.owns, hmem], fun _ _ => rfl, rfl⟩
  | some ptr =>
    have hothers : ∀ j, j ≠ .memory →
        ({ s.call (.free ptr) with netMemory := none } : Server).owns j = s.owns j := by
      intro j hj
      cases j with
      | memory => exact absurd rfl hj
      | net => rfl
      | netCtl => rfl
    refine ⟨h.call rfl nofun ?_ fun k _ hk => hothers k ?_, rfl, hothers, rfl⟩
    · rintro k ⟨⟩
      exact ⟨by simp [Server.owns, hmem], rfl⟩
    · rintro rfl
      exact hk rfl

def Server.Idle (s : Server) : Prop := ∀ k, s.owns k = false

/-- The label clears what the rungs of the ladder above it have not cleared. -/
theorem errorNetctlinit_clears (h : s.Accounts) (hctl : s.owns .netCtl = false) :
    (errorNetctlinit s).Accounts ∧ (errorNetctlinit s).Idle ∧
      (errorNetctlinit s).ftpInitialized = s.ftpInitialized := by
  have hnet := netTerm_drops h
  have hmem := freeMemory_drops hnet.accounts
  refine ⟨hmem.accounts, fun k => ?_, hmem.initialized.trans hnet.initialized⟩
  cases k with
  | memory => exact hmem.dropped
  | net => exact (hmem.others .net nofun).trans hnet.dropped
  | netCtl => exact ((hmem.others .netCtl nofun).trans (hnet.others .netCtl nofun)).trans hctl

theorem errorNetctlgetinfo_clears (h : s.Accounts) :
    (errorNetctlgetinfo s).Accounts ∧ (errorNetctlgetinfo s).Idle ∧
      (errorNetctlgetinfo s).ftpInitialized = s.ftpInitialized := by
  have hctl := netCtlTerm_drops h
  obtain ⟨haccounts, hidle, hinit⟩ := errorNetctlinit_clears hctl.accounts hctl.dropped
  exact ⟨haccounts, hidle, hinit.trans hctl.initialized⟩

end Steps

/-! ## The two functions keep the accounts -/

/-- What is true between two calls. -/
structure Server.Inv (s : Server) : Prop where
  accounts : s.Accounts
  idle : s.ftpInitialized = false → s.Idle

/-- `r` is a failed call that leaves nothing owned, or one that has initialised the server. -/
structure Settles (s : Server) (r : ℤ × Server) : Prop where
  accounts : r.2.Accounts
  failed : r.1 ≠ 0 → r.2.Idle ∧ r.2.ftpInitialized = s.ftpInitialized
  succeeded : r.1 = 0 → r.2.ftpInitialized = true

theorem initNetCtl_settles {s : Server} (a : InitAnswers) (h : s.Accounts)
    (hctl : s.owns .netCtl = false) : Settles s (initNetCtl a s) := by
  have hcalled : ({ s.call (.sceNetCtlInit a.sceNetCtlInit) with
      netctlInit := a.sceNetCtlInit } : Server).Accounts := by
    apply h.call rfl
    · intro k hk
      by_cases hret : a.sceNetCtlInit.val = 0
      · obtain rfl : Owned.netCtl = k := by simpa [netLedger, hret] using hk
        exact ⟨hctl, by simp [Server.owns, hret]⟩
      · simp [netLedger, hret] at hk
    · nofun
    · intro k hk _
      cases k with
      | net => rfl
      | memory => rfl
      | netCtl =>
        have hret : a.sceNetCtlInit.val ≠ 0 := fun hret => hk (by simp [netLedger, hret])
        rw [hctl]
        simp [Server.owns, hret]
  unfold initNetCtl
  dsimp only
  split_ifs with hfail hinfo
  · have hret : a.sceNetCtlInit.val ≠ 0 := ne_of_lt hfail.1
    obtain ⟨haccounts, hidle, hinit⟩ := errorNetctlinit_clears hcalled (by simp [Server.owns, hret])
    exact ⟨haccounts, fun _ => ⟨hidle, hinit⟩, fun hzero => absurd hzero hret⟩
  · obtain ⟨haccounts, hidle, hinit⟩ := errorNetctlgetinfo_clears hcalled
    exact ⟨haccounts, fun _ => ⟨hidle, hinit⟩, fun hzero => absurd hzero (ne_of_lt hinfo)⟩
  · exact ⟨⟨hcalled.sound, hcalled.owns⟩, fun hne => absurd rfl hne, fun _ => rfl⟩

theorem netInitCalls_accounts {s : Server} (a : InitAnswers) (h : s.Accounts) (hidle : s.Idle) :
    (netInitCalls a s).Accounts ∧ (netInitCalls a s).owns .netCtl = false := by
  have hmalloc : ({ s.call (.malloc a.malloc) with netMemory := a.malloc } : Server).Accounts := by
    cases hptr : a.malloc with
    | none =>
      refine h.call rfl nofun nofun fun k _ _ => ?_
      cases k with
      | memory => exact (hidle .memory).symm
      | net => rfl
      | netCtl => rfl
    | some ptr =>
      refine h.call rfl ?_ nofun fun k hk _ => ?_
      · rintro k ⟨⟩
        exact ⟨hidle .memory, rfl⟩
      · cases k with
        | memory => exact absurd rfl hk
        | net => rfl
        | netCtl => rfl
  refine ⟨hmalloc.call rfl ?_ nofun fun k hk _ => ?_, hidle .netCtl⟩
  · intro k hk
    by_cases hret : a.sceNetInit.val = 0
    · obtain rfl : Owned.net = k := by simpa [netLedger, hret] using hk
      exact ⟨hidle .net, decide_eq_true hret⟩
    · simp [netLedger, hret] at hk
  · cases k with
    | memory => rfl
    | netCtl => rfl
    | net =>
      have hret : a.sceNetInit.val ≠ 0 := fun hret => hk (by simp [netLedger, hret])
      exact (decide_eq_false hret).trans (hidle .net).symm

theorem ftpvitaInit_settles {s : Server} (a : InitAnswers) (h : s.Accounts)
    (hinit : s.ftpInitialized = false) (hidle : s.Idle) : Settles s (ftpvitaInit a s) := by
  unfold ftpvitaInit
  rw [if_neg (by simp [hinit])]
  split_ifs with hstat hnotinit hneg
  · have hsame : ({ s with netInit := -1 } : Server).Accounts := by
      refine ⟨h.sound, fun k => (h.owns k).trans ?_⟩
      rw [hidle k]
      cases k with
      | net => rfl
      | netCtl => rw [← hidle .netCtl]; rfl
      | memory => rw [← hidle .memory]; rfl
    have hsettles := initNetCtl_settles a hsame (hidle .netCtl)
    exact ⟨hsettles.accounts, hsettles.failed, hsettles.succeeded⟩
  · obtain ⟨hcalls, hctl⟩ := netInitCalls_accounts a h hidle
    have hmem := freeMemory_drops hcalls
    refine ⟨hmem.accounts, fun _ => ⟨fun k => ?_, hmem.initialized⟩, fun hzero => ?_⟩
    · cases k with
      | memory => exact hmem.dropped
      | net => exact (hmem.others .net nofun).trans (decide_eq_false (ne_of_lt hneg))
      | netCtl => exact (hmem.others .netCtl nofun).trans hctl
    · exact absurd hzero (ne_of_lt hneg)
  · obtain ⟨hcalls, hctl⟩ := netInitCalls_accounts a h hidle
    have hsettles := initNetCtl_settles a hcalls hctl
    exact ⟨hsettles.accounts, hsettles.failed, hsettles.succeeded⟩
  · exact ⟨h, fun _ => ⟨hidle, rfl⟩, fun hzero => absurd hzero hstat⟩

theorem ftpvitaInit_inv {s : Server} (a : InitAnswers) (h : s.Inv) : (ftpvitaInit a s).2.Inv := by
  by_cases hinit : s.ftpInitialized = true
  · rw [ftpvitaInit, if_pos hinit]
    exact h
  · rw [Bool.not_eq_true] at hinit
    have hsettles := ftpvitaInit_settles a h.accounts hinit (h.idle hinit)
    refine ⟨hsettles.accounts, fun hfalse => (hsettles.failed fun hzero => ?_).1⟩
    rw [hsettles.succeeded hzero] at hfalse
    cases hfalse

/-- `ftpvita_fini` makes the calls of the ladder of `ftpvita_init`. -/
theorem ftpvitaFini_calls {s : Server} (hinit : s.ftpInitialized = true) :
    (ftpvitaFini s).calls = (errorNetctlgetinfo s).calls := by
  unfold ftpvitaFini errorNetctlgetinfo errorNetctlinit errorNetinit netCtlTerm netTerm freeMemory
  rw [if_pos hinit]
  by_cases hctl : s.netctlInit = 0 <;> by_cases hnet : s.netInit = 0 <;> cases hmem : s.netMemory <;>
    simp [Server.call, hctl, hnet, hmem]

theorem ftpvitaFini_inv {s : Server} (h : s.Inv) : (ftpvitaFini s).Inv := by
  by_cases hinit : s.ftpInitialized = true
  · obtain ⟨haccounts, hidle, -⟩ := errorNetctlgetinfo_clears h.accounts
    have hclear : (ftpvitaFini s).Idle := by
      intro k
      rw [ftpvitaFini, if_pos hinit]
      cases k <;> rfl
    refine ⟨⟨?_, fun k => ?_⟩, fun _ => hclear⟩
    · rw [ftpvitaFini_calls hinit]
      exact haccounts.sound
    · rw [ftpvitaFini_calls hinit, haccounts.owns, hidle k, hclear k]
  · rw [ftpvitaFini, if_neg hinit]
    exact h

theorem run_inv (calls : List ServerCall) : (replay Server.step Server.start calls).Inv := by
  induction calls using List.reverseRecOn with
  | nil =>
    refine ⟨⟨Ledger.sound_nil, fun k => ?_⟩, fun _ k => ?_⟩
    · cases k <;> rfl
    · cases k <;> rfl
  | append_singleton calls call ih =>
    rw [replay_snoc]
    cases call with
    | init a => exact ftpvitaInit_inv a ih
    | fini => exact ftpvitaFini_inv ih

/-- **The network is released as often as it is initialised.** Behind each call the server owns each
of the three resources at most once, and none when it is not running; no call releases what the server
does not own; and an `ftpvita_init` that fails leaves the balance as it was. -/
theorem server_accounts (calls : List ServerCall) :
    let s := replay Server.step Server.start calls
    (∀ k, netLedger.net k s.calls = 0 ∨ netLedger.net k s.calls = 1) ∧
      (s.ftpInitialized = false → ∀ k, netLedger.net k s.calls = 0) ∧
      (∀ k p c, p ++ [c] <+: s.calls → netLedger.releases c = some k → netLedger.net k p = 1) ∧
      ∀ a, (ftpvitaInit a s).1 ≠ 0 → ∀ k,
        netLedger.net k (ftpvitaInit a s).2.calls = netLedger.net k s.calls := by
  intro s
  have hinv : s.Inv := run_inv calls
  have hzero : ∀ t : Server, t.Accounts → t.Idle → ∀ k, netLedger.net k t.calls = 0 := by
    intro t ht hidle k
    rw [ht.owns, hidle k]
    rfl
  refine ⟨fun k => ?_, fun hinit => hzero s hinv.accounts (hinv.idle hinit), ?_, fun a hret k => ?_⟩
  · rw [hinv.accounts.owns]
    cases s.owns k
    · exact Or.inl rfl
    · exact Or.inr rfl
  · intro k p c hp hrel
    exact (hinv.accounts.sound.proper hp).releases k hrel
  · by_cases hinit : s.ftpInitialized = true
    · rw [ftpvitaInit, if_pos hinit]
    · rw [Bool.not_eq_true] at hinit
      have hsettles := ftpvitaInit_settles a hinv.accounts hinit (hinv.idle hinit)
      rw [hzero _ hsettles.accounts (hsettles.failed hret).1, hzero s hinv.accounts (hinv.idle hinit)]

end VitaConnect.Ftp

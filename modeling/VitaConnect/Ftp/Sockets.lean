import VitaConnect.Ftp.Events
import VitaConnect.Program.Ledger

/-! # The ledger of the data sockets

`socketLedger` counts the sockets that a session gets from `sceNetSocket` and `sceNetAccept`.
`Sockets held pending trace` says that nothing wrong has happened to one of them in the trace, and
which are open behind it.
-/
namespace VitaConnect.Ftp
open CString Program
set_option autoImplicit false

/-! ## The ledger -/

def socketLedger : Ledger Event ℤ where
  acquires
    | .socket fd => if 0 ≤ fd then some fd else none
    | .accept _ ret => if 0 ≤ ret then some ret else none
    | _ => none
  releases
    | .socketClose fd => some fd
    | _ => none
  uses
    | .connect fd | .accept fd _ | .dataSend fd _ _ _ | .dataRecv fd _ _ => some fd
    | _ => none
  apart := by
    intro e k hacq hrel
    cases e with
    | socketClose fd => cases hacq
    | _ => cases hrel

def Event.opensConnection : Event → Bool
  | .connect _ | .accept .. => true
  | _ => false

/-- Whether a socket has been set up and not been taken by a transfer, given whether one was. -/
def pendingSetUp (pending : Bool) : Event → Bool
  | .socket fd => 0 ≤ fd
  | .connect _ | .accept .. => false
  | _ => pending

def setUpPending (trace : List Event) : Bool := trace.foldl pendingSetUp false

theorem setUpPending_snoc (trace : List Event) (e : Event) :
    setUpPending (trace ++ [e]) = pendingSetUp (setUpPending trace) e := List.foldl_concat ..

/-- A connection is opened only behind a set-up since the last one. -/
def OpensSetUp (trace : List Event) : Prop :=
  ∀ p e, p ++ [e] <+: trace → e.opensConnection → setUpPending p

/-- What is open behind a trace, and whether a set-up is pending. -/
structure Sockets (held : ℤ → Prop) (pending : Bool) (trace : List Event) : Prop where
  sound : socketLedger.Sound trace
  held_iff : ∀ k, socketLedger.net k trace = 1 ↔ held k
  opens : OpensSetUp trace
  pending_eq : setUpPending trace = pending

section Traces
variable {held held' : ℤ → Prop} {pending : Bool} {trace es : List Event} {e : Event} {fd ret : ℤ}

theorem sockets_nil : Sockets (fun _ => False) false [] := by
  refine ⟨Ledger.sound_nil, fun k => ?_, ?_, rfl⟩
  · rw [Ledger.net_nil]
    exact iff_of_false zero_ne_one id
  · intro p e hp
    exact absurd (List.prefix_nil.mp hp) (List.append_ne_nil_of_right_ne_nil _ (List.cons_ne_nil _ _))

theorem Sockets.net_eq_zero (h : Sockets held pending trace) {k : ℤ} (hk : ¬ held k) :
    socketLedger.net k trace = 0 := by
  have hrange := h.sound.held k trace (List.prefix_refl _)
  have hne := mt (h.held_iff k).mp hk
  omega

theorem Sockets.congr (h : Sockets held pending trace) (hheld : ∀ k, held k ↔ held' k) :
    Sockets held' pending trace :=
  ⟨h.sound, fun k => (h.held_iff k).trans (hheld k), h.opens, h.pending_eq⟩

theorem Sockets.snoc (h : Sockets held pending trace)
    (hacq : ∀ k, socketLedger.acquires e = some k → ¬ held k)
    (hrel : ∀ k, socketLedger.releases e = some k → held k)
    (huse : ∀ k, socketLedger.uses e = some k → held k) (hopen : e.opensConnection → pending) :
    Sockets (fun k => socketLedger.acquires e = some k ∨ held k ∧ socketLedger.releases e ≠ some k)
      (pendingSetUp pending e) (trace ++ [e]) := by
  constructor
  · apply h.sound.snoc
    exact ⟨fun k hk => h.net_eq_zero (hacq k hk), fun k hk => (h.held_iff k).mpr (hrel k hk),
      fun k hk => (h.held_iff k).mpr (huse k hk)⟩
  · intro k
    have hnet := h.held_iff k
    rw [Ledger.net_snoc, Ledger.change]
    by_cases ha : socketLedger.acquires e = some k
    · have hzero := h.net_eq_zero (hacq k ha)
      rw [if_pos ha, if_neg (socketLedger.apart e k ha), hzero]
      simp [ha]
    · by_cases hr : socketLedger.releases e = some k
      · have hone := hnet.mpr (hrel k hr)
        rw [if_neg ha, if_pos hr, hone]
        simp [ha, hr]
      · rw [if_neg ha, if_neg hr]
        simp [ha, hr, hnet]
  · intro p e' hp he'
    rcases List.prefix_concat_iff.mp hp with heq | hp
    · obtain ⟨rfl, hlast⟩ := List.append_inj' heq rfl
      obtain rfl := List.singleton_inj.mp hlast
      rw [h.pending_eq]
      exact hopen he'
    · exact h.opens p e' hp he'
  · rw [setUpPending_snoc, h.pending_eq]

theorem Sockets.socket (h : Sockets (fun _ => False) pending trace) :
    Sockets (fun k => k = fd ∧ 0 ≤ k) (decide (0 ≤ fd)) (trace ++ [.socket fd]) := by
  refine (h.snoc (e := .socket fd) (fun _ _ => id) nofun nofun nofun).congr fun k => ?_
  by_cases hfd : 0 ≤ fd
  · simp only [socketLedger, hfd, if_true, Option.some.injEq, false_and, or_false]
    constructor
    · rintro rfl
      exact ⟨rfl, hfd⟩
    · exact fun hk => hk.1.symm
  · simp only [socketLedger, hfd, if_false, false_and, or_false]
    constructor
    · nofun
    · rintro ⟨rfl, hk⟩
      exact absurd hk hfd

theorem Sockets.connect (h : Sockets held true trace) (hfd : held fd) :
    Sockets held false (trace ++ [.connect fd]) := by
  have huse : ∀ k, socketLedger.uses (.connect fd) = some k → held k := by
    rintro k ⟨⟩
    exact hfd
  refine (h.snoc (e := .connect fd) nofun nofun huse fun _ => rfl).congr fun k => ?_
  simp [socketLedger]

theorem Sockets.accept (h : Sockets held true trace) (hfd : held fd) (hret : 0 ≤ ret)
    (hnew : ¬ held ret) :
    Sockets (fun k => k = ret ∨ held k) false (trace ++ [.accept fd ret]) := by
  have hacq : socketLedger.acquires (.accept fd ret) = some ret := if_pos hret
  have hfree : ∀ k, socketLedger.acquires (.accept fd ret) = some k → ¬ held k := by
    intro k hk
    rw [hacq] at hk
    cases hk
    exact hnew
  have huse : ∀ k, socketLedger.uses (.accept fd ret) = some k → held k := by
    rintro k ⟨⟩
    exact hfd
  refine (h.snoc hfree nofun huse fun _ => rfl).congr fun k => ?_
  rw [hacq, Option.some.injEq, eq_comm]
  simp [socketLedger]

theorem Sockets.close (h : Sockets held pending trace) (hfd : held fd) :
    Sockets (fun k => held k ∧ k ≠ fd) pending (trace ++ [.socketClose fd]) := by
  have hrel : ∀ k, socketLedger.releases (.socketClose fd) = some k → held k := by
    rintro k ⟨⟩
    exact hfd
  refine (h.snoc (e := .socketClose fd) nofun hrel nofun nofun).congr fun k => ?_
  simp [socketLedger, eq_comm]

theorem Sockets.dataSend (h : Sockets held pending trace) (hfd : held fd) (len : ℕ)
    (passed : List Byte) : Sockets held pending (trace ++ [.dataSend fd len passed ret]) := by
  have huse : ∀ k, socketLedger.uses (.dataSend fd len passed ret) = some k → held k := by
    rintro k ⟨⟩
    exact hfd
  refine (h.snoc (e := .dataSend fd len passed ret) nofun nofun huse nofun).congr fun k => ?_
  simp [socketLedger]

theorem Sockets.dataRecv (h : Sockets held pending trace) (hfd : held fd) (got : List Byte) :
    Sockets held pending (trace ++ [.dataRecv fd got ret]) := by
  have huse : ∀ k, socketLedger.uses (.dataRecv fd got ret) = some k → held k := by
    rintro k ⟨⟩
    exact hfd
  refine (h.snoc (e := .dataRecv fd got ret) nofun nofun huse nofun).congr fun k => ?_
  simp [socketLedger]

/-- The event concerns no socket. -/
structure Event.Idle (e : Event) : Prop where
  acquires : socketLedger.acquires e = none
  releases : socketLedger.releases e = none
  uses : socketLedger.uses e = none
  opens : e.opensConnection = false
  pending : ∀ pending, pendingSetUp pending e = pending

theorem idle_of_kind (h : e.kind ≠ .setUp) (h' : e.kind ≠ .data) : e.Idle := by
  cases e <;> first | exact ⟨rfl, rfl, rfl, rfl, fun _ => rfl⟩ | exact absurd rfl h | exact absurd rfl h'

theorem Sockets.idle (h : Sockets held pending trace) (he : e.Idle) :
    Sockets held pending (trace ++ [e]) := by
  have hsnoc := h.snoc (e := e) (by simp [he.acquires]) (by simp [he.releases]) (by simp [he.uses])
    (by simp [he.opens])
  rw [he.pending] at hsnoc
  refine hsnoc.congr fun k => ?_
  simp [he.acquires, he.releases]

theorem Sockets.append_idle (h : Sockets held pending trace) (hes : ∀ e ∈ es, e.Idle) :
    Sockets held pending (trace ++ es) := by
  induction es generalizing trace with
  | nil => rwa [List.append_nil]
  | cons e es ih =>
    rw [List.forall_mem_cons] at hes
    rw [← List.singleton_append, ← List.append_assoc]
    exact ih (h.idle hes.1) hes.2

end Traces

end VitaConnect.Ftp

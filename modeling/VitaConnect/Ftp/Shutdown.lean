import VitaConnect.Ftp.ClientList

/-! # The end of the server and the ends of its clients

`ftpvita_fini` takes `client_list_mtx`, goes through the client list and waits for the end of each
client's thread. A client whose receive answers 0 or an error takes the same mutex to leave the list,
and only one whose receive was aborted ends without it. The abort of a socket shows in what the receive
answers, which is arbitrary here. A step that cannot be taken changes nothing.
-/
namespace VitaConnect.Ftp
open Program Storage
set_option autoImplicit false

/-- How far a client's thread has come: in its loop, in front of the lock of `client_list_delete`, behind
it, in front of the unlock, in front of the end, ended. -/
inductive ClientPhase
  | absent | receiving | leaving | holding | unlinked | closing | ended
  deriving DecidableEq

/-- `client_list_thread_end`: the loop is at the client `it`, or waits for the end of `client` and goes on
with `next`. -/
inductive FiniPhase
  | idle
  | walking (it : Option ℕ)
  | waiting (client : ℕ) (next : Option ℕ)
  | finished

inductive Owner
  | fini
  | client (c : ℕ)
  deriving DecidableEq

structure Shutdown where
  clients : ClientList ℕ
  phase : ℕ → ClientPhase
  mutex : Option Owner
  fini : FiniPhase

/-- `SCE_NET_ERROR_EINTR`, 0x80410104. -/
def errorEintr : ℤ := 0x80410104 - 0x100000000

def Shutdown.start (heap : ℕ → Node ℕ) : Shutdown where
  clients := ClientList.empty heap
  phase := fun _ => .absent
  mutex := none
  fini := .idle

def setPhase (c : ℕ) (p : ClientPhase) (s : Shutdown) : Shutdown :=
  { s with phase := Function.update s.phase c p }

section SetPhase
variable (s : Shutdown) (c : ℕ) (p : ClientPhase)

@[simp] theorem setPhase_clients : (setPhase c p s).clients = s.clients := rfl
@[simp] theorem setPhase_mutex : (setPhase c p s).mutex = s.mutex := rfl
@[simp] theorem setPhase_fini : (setPhase c p s).fini = s.fini := rfl
@[simp] theorem setPhase_phase : (setPhase c p s).phase = Function.update s.phase c p := rfl

variable {s c p}

theorem forall_setPhase (P : ℕ → ClientPhase → Prop) :
    (∀ d, P d ((setPhase c p s).phase d)) ↔ P c p ∧ ∀ d, d ≠ c → P d (s.phase d) := by
  rw [setPhase_phase, Function.forall_update_iff]

end SetPhase

/-- `server_thread` adds a client as long as it runs, and it has ended when the loop of
`client_list_thread_end` begins. -/
def connect (c : ℕ) (s : Shutdown) : Shutdown :=
  match s.fini with
  | .idle =>
    if s.mutex = none ∧ s.phase c = .absent then
      setPhase c .receiving { s with clients := clientListAdd c s.clients }
    else s
  | _ => s

/-- The next step of a client's thread; `nRecv` is what its receive answers. -/
def clientStep (c : ℕ) (nRecv : ℤ) (s : Shutdown) : Shutdown :=
  match s.phase c with
  | .absent => s
  | .receiving =>
    if 0 < nRecv then s
    else if nRecv = errorEintr then setPhase c .closing s
    else setPhase c .leaving s
  | .leaving => if s.mutex = none then setPhase c .holding { s with mutex := some (.client c) } else s
  | .holding => setPhase c .unlinked { s with clients := clientListDelete c s.clients }
  | .unlinked => setPhase c .closing { s with mutex := none }
  | .closing => setPhase c .ended s
  | .ended => s

def finiStep (s : Shutdown) : Shutdown :=
  match s.fini with
  | .idle =>
    if s.mutex = none then { s with mutex := some .fini, fini := .walking s.clients.clientList } else s
  | .walking (some it) => { s with fini := .waiting it (s.clients.next it) }
  | .walking none => { s with mutex := none, fini := .finished }
  | .waiting client next => if s.phase client = .ended then { s with fini := .walking next } else s
  | .finished => s

inductive ShutdownEvent
  | connect (c : ℕ)
  | client (c : ℕ) (nRecv : ℤ)
  | fini

def Shutdown.step (s : Shutdown) : ShutdownEvent → Shutdown
  | .connect c => Ftp.connect c s
  | .client c nRecv => clientStep c nRecv s
  | .fini => finiStep s

/-- `ftpvita_fini` holds the mutex and waits for a client that waits for the mutex. -/
def Shutdown.Deadlocked (s : Shutdown) : Prop :=
  s.mutex = some .fini ∧ ∃ c next, s.fini = .waiting c next ∧ s.phase c = .leaving

/-- `ftpvita_fini` takes the mutex when no client waits for it, and as long as it has it, no client's
receive answers 0 or an error other than the abort. -/
def LeavesInTime (s : Shutdown) : ShutdownEvent → Prop
  | .connect _ => True
  | .client c nRecv =>
    s.mutex = some .fini → s.phase c = .receiving → 0 < nRecv ∨ nRecv = errorEintr
  | .fini => s.fini = .idle → s.mutex = none → ∀ c, s.phase c ≠ .leaving

/-! ## No deadlock while the clients leave in time -/

def Shutdown.Clear (s : Shutdown) : Prop := s.mutex = some .fini → ∀ c, s.phase c ≠ .leaving

theorem Shutdown.Clear.not_deadlocked {s : Shutdown} (h : s.Clear) : ¬ s.Deadlocked := by
  rintro ⟨hmutex, c, next, -, hleaving⟩
  exact h hmutex c hleaving

variable {s : Shutdown} {l : List ℕ}

theorem clear_setPhase {c : ℕ} {p : ClientPhase} (h : s.Clear) (hp : p ≠ .leaving) :
    (setPhase c p s).Clear := by
  intro hmutex
  apply (forall_setPhase fun _ q => q ≠ .leaving).mpr
  exact ⟨hp, fun d _ => h hmutex d⟩

theorem clientStep_clear (c : ℕ) (nRecv : ℤ) (h : s.Clear) (hin : LeavesInTime s (.client c nRecv)) :
    (clientStep c nRecv s).Clear := by
  unfold clientStep
  cases hphase : s.phase c with
  | absent => exact h
  | receiving =>
    dsimp only
    split_ifs with hdata heintr
    · exact h
    · exact clear_setPhase h nofun
    · intro hmutex
      rcases hin hmutex hphase with hpos | heq
      · exact absurd hpos hdata
      · exact absurd heq heintr
  | leaving =>
    dsimp only
    split_ifs
    · exact nofun
    · exact h
  | holding => exact clear_setPhase (s := { s with clients := _ }) h nofun
  | unlinked => exact nofun
  | closing => exact clear_setPhase h nofun
  | ended => exact h

theorem finiStep_clear (h : s.Clear) (hin : LeavesInTime s .fini) : (finiStep s).Clear := by
  unfold finiStep
  cases hfini : s.fini with
  | idle =>
    dsimp only
    split_ifs with hmutex
    · exact fun _ => hin hfini hmutex
    · exact h
  | walking it =>
    cases it with
    | none => exact nofun
    | some it => exact h
  | waiting client next =>
    dsimp only
    split_ifs
    · exact h
    · exact h
  | finished => exact h

theorem step_clear (e : ShutdownEvent) (h : s.Clear) (hin : LeavesInTime s e) : (s.step e).Clear := by
  cases e with
  | connect c =>
    simp only [Shutdown.step, connect]
    split
    · split_ifs with hfree
      · intro hmutex
        have hnone : (setPhase c .receiving
            { s with clients := clientListAdd c s.clients }).mutex = none := hfree.1
        rw [hnone] at hmutex
        cases hmutex
      · exact h
    · exact h
  | client c nRecv => exact clientStep_clear c nRecv h hin
  | fini => exact finiStep_clear h hin

/-! ## A client that does not leave in time -/

def FiniPhase.Active : FiniPhase → Prop
  | .walking _ => True
  | .waiting _ _ => True
  | _ => False

/-- The clients that the loop still has to wait for. -/
def FiniPhase.At : FiniPhase → List ℕ → Prop
  | .walking it, todo => it = todo.head?
  | .waiting client next, todo => ∃ rest, todo = client :: rest ∧ next = rest.head?
  | _, _ => False

/-- The client has not left the list. -/
def ClientPhase.Listed (p : ClientPhase) : Prop := p = .receiving ∨ p = .leaving ∨ p = .holding

/-- The client has the mutex. -/
def ClientPhase.Holds (p : ClientPhase) : Prop := p = .holding ∨ p = .unlinked

theorem ClientPhase.not_listed {p : ClientPhase} (h : p = .unlinked ∨ p = .closing ∨ p = .ended) :
    ¬ p.Listed := by
  rcases h with rfl | rfl | rfl <;> rintro (h | h | h) <;> cases h

theorem ClientPhase.not_holds {p : ClientPhase} (h : p ≠ .holding) (h' : p ≠ .unlinked) :
    ¬ p.Holds :=
  fun hp => hp.elim h h'

structure Shutdown.Inv (s : Shutdown) (l : List ℕ) : Prop where
  holds : s.clients.Holds l
  listed : ∀ c, (s.phase c).Listed → c ∈ l
  present : ∀ c ∈ l, s.phase c ≠ .absent
  owner : ∀ c, (s.phase c).Holds → s.mutex = some (.client c)
  active : s.mutex = some .fini ↔ s.fini.Active
  walk : s.fini.Active →
    ∃ done todo, l = done ++ todo ∧ (∀ c ∈ done, s.phase c = .ended) ∧ s.fini.At todo

theorem Shutdown.Inv.not_active (h : s.Inv l) {o : Option Owner} (hmutex : s.mutex = o)
    (ho : o ≠ some .fini) : ¬ s.fini.Active :=
  fun hactive => ho (hmutex.symm.trans (h.active.mpr hactive))

theorem start_inv (heap : ℕ → Node ℕ) : (Shutdown.start heap).Inv [] where
  holds := ⟨DoublyLinked.nil, rfl⟩
  listed c hc := by rcases hc with hc | hc | hc <;> cases hc
  present c hc := by cases hc
  owner c hc := absurd hc (ClientPhase.not_holds nofun nofun)
  active := ⟨nofun, nofun⟩
  walk := nofun

/-- A client that takes a step without the mutex. -/
theorem Shutdown.Inv.setPhase {c : ℕ} {p : ClientPhase} (h : s.Inv l)
    (hlisted : p.Listed → (s.phase c).Listed) (hpresent : p ≠ .absent) (hholds : ¬ p.Holds)
    (hended : s.phase c = .ended → p = .ended) : (setPhase c p s).Inv l where
  holds := h.holds
  listed := (forall_setPhase fun d q => q.Listed → d ∈ l).mpr
    ⟨fun hp => h.listed c (hlisted hp), fun d _ => h.listed d⟩
  present := (forall_setPhase fun d q => d ∈ l → q ≠ .absent).mpr
    ⟨fun _ => hpresent, fun d _ => h.present d⟩
  owner := (forall_setPhase fun d q => q.Holds → s.mutex = some (.client d)).mpr
    ⟨fun hp => absurd hp hholds, fun d _ => h.owner d⟩
  active := h.active
  walk hactive := by
    obtain ⟨done, todo, hl, hdone, hat⟩ := h.walk hactive
    refine ⟨done, todo, hl, ?_, hat⟩
    apply (forall_setPhase fun d q => d ∈ done → q = .ended).mpr
    exact ⟨fun hc => hended (hdone c hc), fun d _ => hdone d⟩

theorem connect_inv (c : ℕ) (h : s.Inv l) : ∃ l', (Ftp.connect c s).Inv l' := by
  unfold connect
  split
  · split_ifs with hfree
    · obtain ⟨hmutex, habsent⟩ := hfree
      have hinactive := h.not_active hmutex nofun
      have hc : c ∉ l := fun hmem => h.present c hmem habsent
      refine ⟨c :: l, h.holds.add hc, ?_, ?_, ?_, h.active, fun hactive => absurd hactive hinactive⟩
      · apply (forall_setPhase fun d q => q.Listed → d ∈ c :: l).mpr
        exact ⟨fun _ => List.mem_cons_self, fun d _ hd => List.mem_cons_of_mem c (h.listed d hd)⟩
      · apply (forall_setPhase fun d q => d ∈ c :: l → q ≠ .absent).mpr
        exact ⟨nofun, fun d hne hd => h.present d (List.mem_of_ne_of_mem hne hd)⟩
      · apply (forall_setPhase fun d q => q.Holds → s.mutex = some (.client d)).mpr
        exact ⟨fun hc => absurd hc (ClientPhase.not_holds nofun nofun), fun d _ => h.owner d⟩
    · exact ⟨l, h⟩
  · exact ⟨l, h⟩

theorem lock_inv {c : ℕ} (h : s.Inv l) (hphase : s.phase c = .leaving) (hmutex : s.mutex = none) :
    (setPhase c .holding { s with mutex := some (.client c) }).Inv l where
  holds := h.holds
  listed := (forall_setPhase fun d q => q.Listed → d ∈ l).mpr
    ⟨fun _ => h.listed c (Or.inr (Or.inl hphase)), fun d _ => h.listed d⟩
  present := (forall_setPhase fun d q => d ∈ l → q ≠ .absent).mpr ⟨nofun, fun d _ => h.present d⟩
  owner := by
    apply (forall_setPhase fun d q => q.Holds → some (Owner.client c) = some (.client d)).mpr
    refine ⟨fun _ => rfl, fun d _ hd => ?_⟩
    have hnone := h.owner d hd
    rw [hmutex] at hnone
    cases hnone
  active := ⟨nofun, fun hactive => absurd hactive (h.not_active hmutex nofun)⟩
  walk hactive := absurd hactive (h.not_active hmutex nofun)

theorem unlink_inv {c : ℕ} (h : s.Inv l) (hphase : s.phase c = .holding) :
    (setPhase c .unlinked { s with clients := clientListDelete c s.clients }).Inv (l.erase c) where
  holds := h.holds.delete (h.listed c (Or.inr (Or.inr hphase)))
  listed := by
    apply (forall_setPhase fun d q => q.Listed → d ∈ l.erase c).mpr
    refine ⟨fun hc => ?_, fun d hne hd => (List.mem_erase_of_ne hne).mpr (h.listed d hd)⟩
    exact absurd hc (ClientPhase.not_listed (Or.inl rfl))
  present := (forall_setPhase fun d q => d ∈ l.erase c → q ≠ .absent).mpr
    ⟨nofun, fun d _ hd => h.present d (List.mem_of_mem_erase hd)⟩
  owner := (forall_setPhase fun d q => q.Holds → s.mutex = some (.client d)).mpr
    ⟨fun _ => h.owner c (Or.inl hphase), fun d _ => h.owner d⟩
  active := h.active
  walk hactive := absurd hactive (h.not_active (h.owner c (Or.inl hphase)) nofun)

theorem unlock_inv {c : ℕ} (h : s.Inv l) (hphase : s.phase c = .unlinked) :
    (setPhase c .closing { s with mutex := none }).Inv l where
  holds := h.holds
  listed := by
    apply (forall_setPhase fun d q => q.Listed → d ∈ l).mpr
    refine ⟨fun hc => ?_, fun d _ => h.listed d⟩
    exact absurd hc (ClientPhase.not_listed (Or.inr (Or.inl rfl)))
  present := (forall_setPhase fun d q => d ∈ l → q ≠ .absent).mpr ⟨nofun, fun d _ => h.present d⟩
  owner := by
    apply (forall_setPhase fun d q => q.Holds → none = some (Owner.client d)).mpr
    refine ⟨fun hc => ?_, fun d hne hd => ?_⟩
    · exact absurd hc (ClientPhase.not_holds nofun nofun)
    · have hboth := (h.owner d hd).symm.trans (h.owner c (Or.inr hphase))
      exact absurd (by simpa using hboth) hne
  active := ⟨nofun, fun hactive =>
    absurd hactive (h.not_active (h.owner c (Or.inr hphase)) nofun)⟩
  walk hactive := absurd hactive (h.not_active (h.owner c (Or.inr hphase)) nofun)

theorem clientStep_inv (c : ℕ) (nRecv : ℤ) (h : s.Inv l) : ∃ l', (clientStep c nRecv s).Inv l' := by
  unfold clientStep
  cases hphase : s.phase c with
  | absent => exact ⟨l, h⟩
  | receiving =>
    have hlisted : (s.phase c).Listed := Or.inl hphase
    have hended : s.phase c = .ended → False := by
      rw [hphase]
      nofun
    dsimp only
    split_ifs
    · exact ⟨l, h⟩
    · exact ⟨l, h.setPhase (fun _ => hlisted) nofun (ClientPhase.not_holds nofun nofun)
        fun hd => (hended hd).elim⟩
    · exact ⟨l, h.setPhase (fun _ => hlisted) nofun (ClientPhase.not_holds nofun nofun)
        fun hd => (hended hd).elim⟩
  | leaving =>
    dsimp only
    split_ifs with hmutex
    · exact ⟨l, lock_inv h hphase hmutex⟩
    · exact ⟨l, h⟩
  | holding => exact ⟨l.erase c, unlink_inv h hphase⟩
  | unlinked => exact ⟨l, unlock_inv h hphase⟩
  | closing =>
    have hended := ClientPhase.not_listed (Or.inr (Or.inr rfl))
    exact ⟨l, h.setPhase (fun hc => absurd hc hended) nofun (ClientPhase.not_holds nofun nofun)
      fun _ => rfl⟩
  | ended => exact ⟨l, h⟩

/-! ## The walk of `ftpvita_fini` -/

theorem fini_lock_inv (h : s.Inv l) (hmutex : s.mutex = none) :
    ({ s with mutex := some .fini, fini := .walking s.clients.clientList } : Shutdown).Inv l where
  holds := h.holds
  listed := h.listed
  present := h.present
  owner c hc := by
    have hnone := h.owner c hc
    rw [hmutex] at hnone
    cases hnone
  active := ⟨fun _ => trivial, fun _ => rfl⟩
  walk _ := ⟨[], l, rfl, List.forall_mem_nil _, h.holds.linked.head_eq⟩

theorem fini_visit_inv {it : ℕ} (h : s.Inv l) (hfini : s.fini = .walking (some it)) :
    ({ s with fini := .waiting it (s.clients.next it) } : Shutdown).Inv l where
  holds := h.holds
  listed := h.listed
  present := h.present
  owner := h.owner
  active := by
    rw [h.active, hfini]
    exact Iff.rfl
  walk _ := by
    obtain ⟨done, todo, rfl, hdone, hat⟩ := h.walk (by rw [hfini]; trivial)
    rw [hfini] at hat
    cases todo with
    | nil => cases hat
    | cons c rest =>
      obtain rfl : it = c := Option.some.inj hat
      exact ⟨done, it :: rest, rfl, hdone, rest, rfl, h.holds.linked.next_eq⟩

theorem fini_next_inv {c : ℕ} {next : Option ℕ} (h : s.Inv l) (hfini : s.fini = .waiting c next)
    (hended : s.phase c = .ended) : ({ s with fini := .walking next } : Shutdown).Inv l where
  holds := h.holds
  listed := h.listed
  present := h.present
  owner := h.owner
  active := by
    rw [h.active, hfini]
    exact Iff.rfl
  walk _ := by
    obtain ⟨done, todo, rfl, hdone, hat⟩ := h.walk (by rw [hfini]; trivial)
    rw [hfini] at hat
    obtain ⟨rest, rfl, hnext⟩ := hat
    refine ⟨done ++ [c], rest, by simp, ?_, hnext⟩
    intro d hd
    rcases List.mem_append.mp hd with hd | hd
    · exact hdone d hd
    · rw [List.mem_singleton.mp hd]
      exact hended

theorem finiStep_inv (h : s.Inv l) : ∃ l', (finiStep s).Inv l' := by
  unfold finiStep
  cases hfini : s.fini with
  | idle =>
    dsimp only
    split_ifs with hmutex
    · exact ⟨l, fini_lock_inv h hmutex⟩
    · exact ⟨l, h⟩
  | walking it =>
    cases it with
    | none =>
      have hmutex : s.mutex = some .fini := h.active.mpr (by rw [hfini]; trivial)
      refine ⟨l, h.holds, h.listed, h.present, fun c hc => ?_, ⟨nofun, nofun⟩, nofun⟩
      have hown := h.owner c hc
      rw [hmutex] at hown
      cases hown
    | some it => exact ⟨l, fini_visit_inv h hfini⟩
  | waiting c next =>
    dsimp only
    split_ifs with hended
    · exact ⟨l, fini_next_inv h hfini hended⟩
    · exact ⟨l, h⟩
  | finished => exact ⟨l, h⟩

theorem step_exists_inv (e : ShutdownEvent) (h : ∃ l, s.Inv l) : ∃ l, (s.step e).Inv l := by
  obtain ⟨l, h⟩ := h
  cases e with
  | connect c => exact connect_inv c h
  | client c nRecv => exact clientStep_inv c nRecv h
  | fini => exact finiStep_inv h

theorem replay_exists_inv (events : List ShutdownEvent) (h : ∃ l, s.Inv l) :
    ∃ l, (replay Shutdown.step s events).Inv l := by
  apply replay_invariant (I := fun s => ∃ l, Shutdown.Inv s l) (C := fun _ _ => True)
  · exact fun s e h _ => step_exists_inv e h
  · exact h
  · exact fun _ _ _ => trivial

theorem run_exists_inv (heap : ℕ → Node ℕ) (events : List ShutdownEvent) :
    ∃ l, (replay Shutdown.step (Shutdown.start heap) events).Inv l :=
  replay_exists_inv events ⟨[], start_inv heap⟩

/-! ## The deadlock is reached -/

/-- A client that does not wait for the mutex ends when its receive is aborted. -/
theorem client_ends {c : ℕ} (h : s.Inv l) (hmutex : s.mutex = some .fini) (hc : c ∈ l)
    (hphase : s.phase c ≠ .leaving) :
    ∃ more, replay Shutdown.step s more = setPhase c .ended s := by
  have hholds : ∀ p, s.phase c = p → ¬ p.Holds := by
    rintro p rfl hp
    have hown := h.owner c hp
    rw [hmutex] at hown
    cases hown
  cases hp : s.phase c with
  | absent => exact absurd hp (h.present c hc)
  | leaving => exact absurd hp hphase
  | holding => exact absurd (Or.inl rfl) (hholds _ hp)
  | unlinked => exact absurd (Or.inr rfl) (hholds _ hp)
  | receiving =>
    have heintr : ¬ 0 < errorEintr := by decide
    refine ⟨[.client c errorEintr, .client c 0], ?_⟩
    simp [replay, Shutdown.step, clientStep, hp, heintr, setPhase]
  | closing =>
    refine ⟨[.client c 0], ?_⟩
    simp [replay, Shutdown.step, clientStep, hp]
  | ended =>
    refine ⟨[], ?_⟩
    rw [replay_nil, setPhase, ← hp, Function.update_eq_self]

/-- The loop waits for `c`, and a client that waits for the mutex is `c` or comes behind it: the clients in
front of it end one after another. -/
theorem waiting_deadlocks {c w : ℕ} {done rest : List ℕ} (h : s.Inv l) (hmutex : s.mutex = some .fini)
    (hl : l = done ++ c :: rest) (hfini : s.fini = .waiting c rest.head?) (hw : w ∈ c :: rest)
    (hleaving : s.phase w = .leaving) : ∃ more, (replay Shutdown.step s more).Deadlocked := by
  induction rest generalizing s c done with
  | nil =>
    obtain rfl := List.mem_singleton.mp hw
    exact ⟨[], hmutex, w, _, hfini, hleaving⟩
  | cons d rest ih =>
    by_cases hc : s.phase c = .leaving
    · exact ⟨[], hmutex, c, _, hfini, hc⟩
    · have hmem : c ∈ l := by simp [hl]
      obtain ⟨ends, hends⟩ := client_ends h hmutex hmem hc
      have hwc : w ≠ c := by
        rintro rfl
        exact hc hleaving
      have hd : s.clients.next d = rest.head? := by
        have hlinked := h.holds.linked
        rw [hl, List.append_cons] at hlinked
        exact hlinked.next_eq
      let t : Shutdown := { setPhase c .ended s with fini := .waiting d rest.head? }
      have hlater : replay Shutdown.step s (ends ++ [.fini, .fini]) = t := by
        rw [replay_append, hends]
        simp [replay, Shutdown.step, finiStep, hfini, setPhase, hd, t]
      have hended : (setPhase c .ended s).Inv l :=
        h.setPhase (fun hp => absurd hp (ClientPhase.not_listed (Or.inr (Or.inr rfl))))
          (by simp) (ClientPhase.not_holds (by simp) (by simp)) fun _ => rfl
      have ht : t.Inv l := by
        have hvisited := fini_visit_inv (fini_next_inv hended hfini (Function.update_self _ _ _)) rfl
        rw [setPhase_clients, hd] at hvisited
        exact hvisited
      have hw' : t.phase w = .leaving := (Function.update_of_ne hwc _ _).trans hleaving
      obtain ⟨more, hmore⟩ := ih ht hmutex (hl.trans (List.append_cons _ _ _)) rfl
        (List.mem_of_ne_of_mem hwc hw) hw'
      refine ⟨ends ++ [.fini, .fini] ++ more, ?_⟩
      rw [replay_append, hlater]
      exact hmore

/-- `ftpvita_fini` has the mutex and a client in the list waits for it. -/
theorem fini_deadlocks {w : ℕ} (h : s.Inv l) (hmutex : s.mutex = some .fini)
    (hleaving : s.phase w = .leaving) : ∃ more, (replay Shutdown.step s more).Deadlocked := by
  obtain ⟨done, todo, hl, hdone, hat⟩ := h.walk (h.active.mp hmutex)
  have hw : w ∈ todo := by
    have hmem : w ∈ done ++ todo := hl ▸ h.listed w (Or.inr (Or.inl hleaving))
    rcases List.mem_append.mp hmem with hmem | hmem
    · have hended := hdone w hmem
      rw [hleaving] at hended
      cases hended
    · exact hmem
  cases hfini : s.fini with
  | idle => exact absurd (hfini ▸ h.active.mp hmutex) nofun
  | finished => exact absurd (hfini ▸ h.active.mp hmutex) nofun
  | waiting c next =>
    rw [hfini] at hat
    obtain ⟨rest, rfl, rfl⟩ := hat
    exact waiting_deadlocks h hmutex hl hfini hw hleaving
  | walking it =>
    rw [hfini] at hat
    cases todo with
    | nil => cases hw
    | cons c rest =>
      subst hat
      have hnext : s.clients.next c = rest.head? := (hl ▸ h.holds.linked).next_eq
      have hvisit : s.step .fini = { s with fini := .waiting c rest.head? } := by
        simp [Shutdown.step, finiStep, hfini, hnext]
      have hvisited := fini_visit_inv h hfini
      rw [hnext] at hvisited
      obtain ⟨more, hmore⟩ := waiting_deadlocks hvisited hmutex hl rfl hw hleaving
      refine ⟨.fini :: more, ?_⟩
      rw [replay_cons, hvisit]
      exact hmore

theorem deadlocks_of_not_leavesInTime {e : ShutdownEvent} (h : ∃ l, s.Inv l)
    (he : ¬ LeavesInTime s e) : ∃ more, (replay Shutdown.step (s.step e) more).Deadlocked := by
  obtain ⟨l, h⟩ := h
  cases e with
  | connect c => exact absurd trivial he
  | fini =>
    simp only [LeavesInTime, Classical.not_forall, not_not] at he
    obtain ⟨hfini, hmutex, w, hleaving⟩ := he
    have hlock : s.step .fini
        = { s with mutex := some .fini, fini := .walking s.clients.clientList } := by
      simp [Shutdown.step, finiStep, hfini, hmutex]
    rw [hlock]
    exact fini_deadlocks (fini_lock_inv h hmutex) rfl hleaving
  | client c nRecv =>
    simp only [LeavesInTime, Classical.not_forall, not_or] at he
    obtain ⟨hmutex, hphase, hdata, heintr⟩ := he
    have hleave : s.step (.client c nRecv) = setPhase c .leaving s := by
      simp [Shutdown.step, clientStep, hphase, hdata, heintr]
    have hinv : (setPhase c .leaving s).Inv l :=
      h.setPhase (fun _ => Or.inl hphase) nofun (ClientPhase.not_holds nofun nofun) (by
        rw [hphase]
        nofun)
    rw [hleave]
    exact fini_deadlocks hinv hmutex (Function.update_self _ _ _)

/-- **The end of the server and clients that leave.** `ftpvita_fini` never holds the mutex while it waits
for a client that waits for the mutex, in a run in which the clients leave in time; and each run with a
step at which one does not goes on to such a state. -/
theorem not_deadlocked_while_leavesInTime (heap : ℕ → Node ℕ) (events : List ShutdownEvent) :
    (EachStep LeavesInTime Shutdown.step (Shutdown.start heap) events →
        AtEveryPoint (fun s => ¬ s.Deadlocked) Shutdown.step (Shutdown.start heap) events) ∧
      ∀ e, ¬ LeavesInTime (replay Shutdown.step (Shutdown.start heap) events) e →
        ∃ more, (replay Shutdown.step (Shutdown.start heap) (events ++ e :: more)).Deadlocked := by
  constructor
  · intro hevents
    have hclear := atEveryPoint_of_invariant (fun _ e h he => step_clear e h he)
      (show (Shutdown.start heap).Clear from nofun) hevents
    exact hclear.mono fun _ h => h.not_deadlocked
  · intro e he
    obtain ⟨more, hmore⟩ := deadlocks_of_not_leavesInTime (run_exists_inv heap events) he
    refine ⟨more, ?_⟩
    rw [replay_append, replay_cons]
    exact hmore

/-- A client whose peer closes the connection when `ftpvita_fini` has just taken the mutex. -/
theorem deadlocked_when_peer_closes :
    ¬ AtEveryPoint (fun s => ¬ s.Deadlocked) Shutdown.step (Shutdown.start fun _ => ⟨none, none, 0⟩)
      [.connect 1, .fini, .client 1 0, .fini] := by
  intro h
  exact h 4 ⟨rfl, 1, none, rfl, rfl⟩

end VitaConnect.Ftp

import VitaConnect.Ftp.Shutdown

/-! # Who uses the memory of a client

A client thread frees its `ftpvita_client_info_t` just before it ends. Its own steps use it, and so do the
calls on the client list that write the pointers of its neighbours, and the loop of
`client_list_thread_end` that looks at it before it waits. A client whose receive answers
`SCE_NET_ERROR_EINTR` does not leave the list: its memory stays linked behind the free.
-/
namespace VitaConnect.Ftp
open Program Storage
set_option autoImplicit false

/-- The clients whose memory a step reads or writes. -/
def usedClients (s : Shutdown) : ShutdownEvent → List ℕ
  | .connect c =>
    match s.fini with
    | .idle => if s.mutex = none ∧ s.phase c = .absent then c :: s.clients.clientList.toList else []
    | _ => []
  | .client c _ =>
    match s.phase c with
    | .receiving | .leaving | .closing => [c]
    | .holding => c :: ((s.clients.prev c).toList ++ (s.clients.next c).toList)
    | .absent | .unlinked | .ended => []
  | .fini =>
    match s.fini with
    | .walking it => it.toList
    | _ => []

def Shutdown.UsesOnlyLive (s : Shutdown) (e : ShutdownEvent) : Prop :=
  ∀ c ∈ usedClients s e, s.phase c ≠ .ended

/-- The receive of a client is aborted only by `client_list_thread_end`, which then waits for the client. -/
def AbortedByFini (s : Shutdown) : ShutdownEvent → Prop
  | .client c nRecv => s.phase c = .receiving → nRecv = errorEintr → ∃ next, s.fini = .waiting c next
  | _ => True

/-! ## The clients that the loop has not reached -/

def FiniPhase.Pending (l pending : List ℕ) : FiniPhase → Prop
  | .idle => pending = l
  | .walking it => pending <:+ l ∧ it = pending.head?
  | .waiting client next => client :: pending <:+ l ∧ next = pending.head?
  | .finished => pending = []

def ClientPhase.Over (p : ClientPhase) : Prop := p = .absent ∨ p = .closing ∨ p = .ended

theorem ClientPhase.over_of_not {p : ClientPhase} (hlisted : ¬ p.Listed) (hholds : ¬ p.Holds) : p.Over := by
  cases p with
  | absent => exact Or.inl rfl
  | closing => exact Or.inr (Or.inl rfl)
  | ended => exact Or.inr (Or.inr rfl)
  | receiving => exact absurd (Or.inl rfl) hlisted
  | leaving => exact absurd (Or.inr (Or.inl rfl)) hlisted
  | holding => exact absurd (Or.inl rfl) hholds
  | unlinked => exact absurd (Or.inr rfl) hholds

theorem ClientPhase.Listed.ne_ended {p : ClientPhase} (h : p.Listed) : p ≠ .ended := by
  rintro rfl
  exact ClientPhase.not_listed (Or.inr (Or.inr rfl)) h

/-- The clients that the loop has not reached are still in front of their free, and behind the loop no
client is in front of the lock. -/
structure Shutdown.Live (s : Shutdown) (l pending : List ℕ) : Prop where
  inv : s.Inv l
  position : s.fini.Pending l pending
  listed : ∀ c ∈ pending, (s.phase c).Listed
  quiet : s.fini = .finished → ∀ c, (s.phase c).Over

variable {s : Shutdown} {l pending : List ℕ}

theorem start_live (heap : ℕ → Node ℕ) : (Shutdown.start heap).Live [] [] where
  inv := start_inv heap
  position := rfl
  listed := List.forall_mem_nil _
  quiet := nofun

theorem Shutdown.Live.nodup (h : s.Live l pending) : l.Nodup := h.inv.holds.linked.nodup

/-- The list while neither the loop nor its end has been reached. -/
theorem Shutdown.Live.idle (h : s.Live l pending) (hactive : ¬ s.fini.Active) {c : ℕ}
    (hc : ¬ (s.phase c).Over) : s.fini = .idle := by
  cases hfini : s.fini with
  | idle => rfl
  | finished => exact absurd (h.quiet hfini c) hc
  | walking it => exact absurd (hfini ▸ trivial) hactive
  | waiting client next => exact absurd (hfini ▸ trivial) hactive

theorem Shutdown.Live.forall_listed (h : s.Live l pending) (hidle : s.fini = .idle) :
    ∀ c ∈ l, (s.phase c).Listed := by
  have hpending := h.position
  rw [hidle] at hpending
  obtain rfl : pending = l := hpending
  exact h.listed

/-! ## Steps of the clients -/

/-- A client that is not pending, or stays listed, takes a step that leaves the list alone. -/
theorem Shutdown.Live.setPhase {c : ℕ} {p : ClientPhase} {m : Option Owner}
    (h : s.Live l pending) (hinv : (setPhase c p { s with mutex := m }).Inv l)
    (hlisted : c ∈ pending → p.Listed) (hover : s.fini = .finished → p.Over) :
    (setPhase c p { s with mutex := m }).Live l pending where
  inv := hinv
  position := h.position
  listed := (forall_setPhase fun d q => d ∈ pending → q.Listed).mpr ⟨hlisted, fun d _ => h.listed d⟩
  quiet hfini := (forall_setPhase fun _ q => q.Over).mpr ⟨hover hfini, fun d _ => h.quiet hfini d⟩

theorem connect_live (c : ℕ) (h : s.Live l pending) :
    ∃ l' pending', (Ftp.connect c s).Live l' pending' := by
  unfold connect
  split
  · next hfini =>
    split_ifs with hfree
    · obtain ⟨hmutex, habsent⟩ := hfree
      have hc : c ∉ l := fun hmem => h.inv.present c hmem habsent
      have hinactive := h.inv.not_active hmutex nofun
      refine ⟨c :: l, c :: l, ⟨h.inv.holds.add hc, ?_, ?_, ?_, h.inv.active,
        fun hactive => absurd hactive hinactive⟩, ?_, ?_, ?_⟩
      · apply (forall_setPhase fun d q => q.Listed → d ∈ c :: l).mpr
        exact ⟨fun _ => List.mem_cons_self, fun d _ hd => List.mem_cons_of_mem c (h.inv.listed d hd)⟩
      · apply (forall_setPhase fun d q => d ∈ c :: l → q ≠ .absent).mpr
        exact ⟨nofun, fun d hne hd => h.inv.present d (List.mem_of_ne_of_mem hne hd)⟩
      · apply (forall_setPhase fun d q => q.Holds → s.mutex = some (.client d)).mpr
        exact ⟨fun hc => absurd hc (ClientPhase.not_holds nofun nofun), fun d _ => h.inv.owner d⟩
      · show s.fini.Pending _ _
        rw [hfini]
        exact rfl
      · apply (forall_setPhase fun d q => d ∈ c :: l → q.Listed).mpr
        exact ⟨fun _ => Or.inl rfl, fun d hne hd =>
          h.forall_listed hfini d (List.mem_of_ne_of_mem hne hd)⟩
      · intro hfinished
        rw [show (setPhase c .receiving { s with clients := clientListAdd c s.clients }).fini = s.fini
          from rfl, hfini] at hfinished
        cases hfinished
    · exact ⟨l, pending, h⟩
  · exact ⟨l, pending, h⟩

theorem unlink_live {c : ℕ} (h : s.Live l pending) (hphase : s.phase c = .holding) :
    ∃ pending', (setPhase c .unlinked { s with clients := clientListDelete c s.clients }).Live
      (l.erase c) pending' := by
  have hactive : ¬ s.fini.Active := h.inv.not_active (h.inv.owner c (Or.inl hphase)) nofun
  have hidle : s.fini = .idle := h.idle hactive (c := c) (by
    rw [hphase]
    rintro (h | h | h) <;> cases h)
  refine ⟨l.erase c, unlink_inv h.inv hphase, ?_, ?_, ?_⟩
  · show s.fini.Pending _ _
    rw [hidle]
    exact rfl
  · apply (forall_setPhase fun d q => d ∈ l.erase c → q.Listed).mpr
    refine ⟨fun hc => ?_, fun d _ hd => h.forall_listed hidle d (List.mem_of_mem_erase hd)⟩
    exact absurd hc h.nodup.not_mem_erase
  · intro hfinished
    rw [show (setPhase c .unlinked { s with clients := clientListDelete c s.clients }).fini = s.fini
      from rfl, hidle] at hfinished
    cases hfinished

theorem clientStep_live (c : ℕ) (nRecv : ℤ) (h : s.Live l pending)
    (haborted : AbortedByFini s (.client c nRecv)) :
    ∃ l' pending', (clientStep c nRecv s).Live l' pending' := by
  have hpending : ¬ (s.phase c).Listed → c ∉ pending := fun hc hmem => hc (h.listed c hmem)
  unfold clientStep
  cases hphase : s.phase c with
  | absent => exact ⟨l, pending, h⟩
  | receiving =>
    have hended : s.phase c ≠ .ended := by
      rw [hphase]
      nofun
    have hnotover : s.fini ≠ .finished := by
      intro hfini
      have hover := h.quiet hfini c
      rw [hphase] at hover
      rcases hover with hover | hover | hover <;> cases hover
    dsimp only
    split_ifs with hdata heintr
    · exact ⟨l, pending, h⟩
    · obtain ⟨next, hfini⟩ := haborted hphase heintr
      have hreached := h.position
      rw [hfini] at hreached
      have hc : c ∉ pending := (List.nodup_cons.mp (h.nodup.sublist hreached.1.sublist)).1
      refine ⟨l, pending, h.setPhase (m := s.mutex) ?_ (fun hmem => absurd hmem hc)
        fun hfinished => absurd hfinished hnotover⟩
      exact h.inv.setPhase (fun hp => absurd hp (ClientPhase.not_listed (Or.inr (Or.inl rfl)))) nofun
        (ClientPhase.not_holds nofun nofun) fun hd => absurd hd hended
    · refine ⟨l, pending, h.setPhase (m := s.mutex) ?_ (fun _ => Or.inr (Or.inl rfl))
        fun hfinished => absurd hfinished hnotover⟩
      exact h.inv.setPhase (fun _ => Or.inl hphase) nofun (ClientPhase.not_holds nofun nofun)
        fun hd => absurd hd hended
  | leaving =>
    dsimp only
    split_ifs with hmutex
    · refine ⟨l, pending, h.setPhase (lock_inv h.inv hphase hmutex) (fun _ => Or.inr (Or.inr rfl)) ?_⟩
      intro hfini
      have hover := h.quiet hfini c
      rw [hphase] at hover
      rcases hover with hover | hover | hover <;> cases hover
    · exact ⟨l, pending, h⟩
  | holding => exact ⟨l.erase c, unlink_live h hphase⟩
  | unlinked =>
    have hc : c ∉ pending := hpending (by
      rw [hphase]
      exact ClientPhase.not_listed (Or.inl rfl))
    exact ⟨l, pending, h.setPhase (unlock_inv h.inv hphase) (fun hmem => absurd hmem hc)
      fun _ => Or.inr (Or.inl rfl)⟩
  | closing =>
    have hc : c ∉ pending := hpending (by
      rw [hphase]
      exact ClientPhase.not_listed (Or.inr (Or.inl rfl)))
    refine ⟨l, pending, h.setPhase (m := s.mutex) ?_ (fun hmem => absurd hmem hc)
      fun _ => Or.inr (Or.inr rfl)⟩
    exact h.inv.setPhase (fun hp => absurd hp (ClientPhase.not_listed (Or.inr (Or.inr rfl)))) nofun
      (ClientPhase.not_holds nofun nofun) fun _ => rfl
  | ended => exact ⟨l, pending, h⟩

/-! ## Steps of `ftpvita_fini` -/

theorem finished_over (h : s.Inv l) (hfini : s.fini = .walking none) (c : ℕ) : (s.phase c).Over := by
  have hactive : s.fini.Active := by
    rw [hfini]
    trivial
  obtain ⟨done, todo, rfl, hdone, hat⟩ := h.walk hactive
  rw [hfini] at hat
  obtain rfl : todo = [] := List.head?_eq_none_iff.mp (Eq.symm hat)
  rw [List.append_nil] at h
  refine ClientPhase.over_of_not (fun hlisted => ?_) (fun hholds => ?_)
  · exact hlisted.ne_ended (hdone c (h.listed c hlisted))
  · have howner := h.owner c hholds
    rw [h.active.mpr hactive] at howner
    cases howner

theorem finiStep_live (h : s.Live l pending) : ∃ l' pending', (finiStep s).Live l' pending' := by
  obtain ⟨l', hinv⟩ := finiStep_inv h.inv
  unfold finiStep at hinv ⊢
  cases hfini : s.fini with
  | idle =>
    dsimp only
    split_ifs with hmutex
    · refine ⟨l, l, fini_lock_inv h.inv hmutex, ⟨List.suffix_refl l, h.inv.holds.linked.head_eq⟩,
        h.forall_listed hfini, nofun⟩
    · exact ⟨l, pending, h⟩
  | walking it =>
    cases it with
    | none =>
      rw [hfini] at hinv
      have hover := finished_over h.inv hfini
      exact ⟨l', [], hinv, rfl, List.forall_mem_nil _, fun _ => hover⟩
    | some it =>
      have hpending := h.position
      rw [hfini] at hpending
      obtain ⟨⟨done, hl⟩, hit⟩ := hpending
      cases pending with
      | nil => cases hit
      | cons c rest =>
        obtain rfl : it = c := Option.some.inj hit
        have hnext : s.clients.next it = rest.head? := by
          have hlinked := h.inv.holds.linked
          rw [← hl] at hlinked
          exact hlinked.next_eq
        exact ⟨l, rest, fini_visit_inv h.inv hfini, ⟨⟨done, hl⟩, hnext⟩,
          fun d hd => h.listed d (List.mem_cons_of_mem it hd), nofun⟩
  | waiting c next =>
    dsimp only
    split_ifs with hended
    · have hpending := h.position
      rw [hfini] at hpending
      exact ⟨l, pending, fini_next_inv h.inv hfini hended,
        ⟨(List.suffix_cons c pending).trans hpending.1, hpending.2⟩, h.listed, nofun⟩
    · exact ⟨l, pending, h⟩
  | finished => exact ⟨l, pending, h⟩

theorem step_live (e : ShutdownEvent) (h : ∃ l pending, s.Live l pending) (haborted : AbortedByFini s e) :
    ∃ l pending, (s.step e).Live l pending := by
  obtain ⟨l, pending, h⟩ := h
  cases e with
  | connect c => exact connect_live c h
  | client c nRecv => exact clientStep_live c nRecv h haborted
  | fini => exact finiStep_live h

/-! ## Every step -/

/-- The neighbours of a client in the list are in the list. -/
theorem mem_of_neighbour {c d : ℕ} (h : s.Inv l) (hc : c ∈ l)
    (hd : d ∈ (s.clients.prev c).toList ++ (s.clients.next c).toList) : d ∈ l := by
  obtain ⟨xs, ys, rfl⟩ := List.append_of_mem hc
  rw [h.holds.linked.prev_eq, h.holds.linked.next_eq, List.mem_append, Option.mem_toList,
    Option.mem_toList] at hd
  rcases hd with hd | hd
  · exact List.mem_append_left _ (List.mem_of_getLast? hd)
  · exact List.mem_append_right _ (List.mem_cons_of_mem c (List.mem_of_head? hd))

theorem Shutdown.Live.usesOnlyLive (h : s.Live l pending) (e : ShutdownEvent) : s.UsesOnlyLive e := by
  intro d hd
  cases e with
  | connect c =>
    simp only [usedClients] at hd
    split at hd
    · next hfini =>
      split_ifs at hd with hfree
      · rcases List.mem_cons.mp hd with rfl | hd
        · rw [hfree.2]
          nofun
        · rw [h.inv.holds.linked.head_eq, Option.mem_toList] at hd
          exact (h.forall_listed hfini d (List.mem_of_head? hd)).ne_ended
      · cases hd
    · cases hd
  | client c nRecv =>
    simp only [usedClients] at hd
    cases hphase : s.phase c with
    | receiving | leaving | closing =>
      rw [hphase] at hd
      obtain rfl := List.mem_singleton.mp hd
      rw [hphase]
      nofun
    | holding =>
      rw [hphase] at hd
      have hactive : ¬ s.fini.Active := h.inv.not_active (h.inv.owner c (Or.inl hphase)) nofun
      have hidle : s.fini = .idle := h.idle hactive (c := c) (by
        rw [hphase]
        rintro (h | h | h) <;> cases h)
      have hc : c ∈ l := h.inv.listed c (Or.inr (Or.inr hphase))
      rcases List.mem_cons.mp hd with rfl | hd
      · rw [hphase]
        nofun
      · exact (h.forall_listed hidle d (mem_of_neighbour h.inv hc hd)).ne_ended
    | absent | unlinked | ended =>
      rw [hphase] at hd
      cases hd
  | fini =>
    simp only [usedClients] at hd
    split at hd
    · next it hfini =>
      have hpending := h.position
      rw [hfini] at hpending
      rw [hpending.2, Option.mem_toList] at hd
      exact (h.listed d (List.mem_of_head? hd)).ne_ended
    · cases hd

/-- A client whose receive is aborted before `ftpvita_fini` begins: the loop looks at freed memory. -/
example :
    ¬ EachStep Shutdown.UsesOnlyLive Shutdown.step (Shutdown.start fun _ => ⟨none, none, 0⟩)
      [.connect 1, .client 1 errorEintr, .client 1 0, .fini, .fini] := by
  intro h
  exact h [.connect 1, .client 1 errorEintr, .client 1 0, .fini] .fini (List.prefix_refl _) 1
    List.mem_cons_self rfl

end VitaConnect.Ftp

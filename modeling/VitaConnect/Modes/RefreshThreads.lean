import VitaConnect.Program.History
import VitaConnect.Modes.Handlers

/-! # The refresh threads (`onPressREFRESH`, `refresh_thread`)

The button starts a thread when `refreshOnOff` is 0, and the thread itself sets the variable and resets
it before it ends. Between its start and its first step, and between its last step on the variable and
its end, a thread is there that the button does not see; these two windows are all that lets a second
thread in.
-/
namespace VitaConnect.Modes
open Program
set_option autoImplicit false

/-- How far a thread has come: started, behind `refreshOnOff = 1`, behind `refreshOnOff = 0`, ended. -/
inductive Phase
  | created | passing | finished | ended
  deriving DecidableEq

structure Refreshing where
  plugin : Plugin
  selectRefresh : Bool
  threads : List Phase

def Refreshing.start (model : Model) (checkbox selectRefresh : Bool) : Refreshing where
  plugin := Plugin.start model checkbox
  selectRefresh := selectRefresh
  threads := []

def announce (code : ℤ) (s : Refreshing) : Refreshing :=
  { s with plugin := startThread { s.plugin with runUsb := code } }

def onPressRefresh (thid startThread : ℤ) (s : Refreshing) : Refreshing :=
  if s.selectRefresh then
    if s.plugin.refreshOnOff then announce 12 s
    else if 0 ≤ thid ∧ 0 ≤ startThread then { s with threads := s.threads ++ [.created] }
    else s
  else if s.plugin.refreshOnOff then announce 12 s
  else announce 14 s

def setRefreshOnOff (on : Bool) (s : Refreshing) : Refreshing :=
  { s with plugin := { s.plugin with refreshOnOff := on } }

def setPhase (i : ℕ) (p : Phase) (s : Refreshing) : Refreshing :=
  { s with threads := s.threads.set i p }

/-- The next step of a thread; `more` says that its pass goes on to another callback. -/
def refreshThread (i : ℕ) (more : Bool) (s : Refreshing) : Refreshing :=
  match s.threads[i]? with
  | some .created => announce 12 (setRefreshOnOff true (setPhase i .passing s))
  | some .passing => if more then s else setRefreshOnOff false (setPhase i .finished s)
  | some .finished => announce 13 (setPhase i .ended s)
  | some .ended => s
  | none => s

inductive RefreshEvent
  | press (thid startThread : ℤ)
  | toggle (checkbox : ℤ)
  | thread (i : ℕ) (more : Bool)

def Refreshing.step (s : Refreshing) : RefreshEvent → Refreshing
  | .press thid startThread => onPressRefresh thid startThread s
  | .toggle checkbox => { s with selectRefresh := decide (checkbox ≠ 0) }
  | .thread i more => refreshThread i more s

/-- What the refresh button and the threads do to the plugin are events of the plugin. -/
theorem step_plugin (model : Model) (s : Refreshing) (e : RefreshEvent) :
    ∃ events, (s.step e).plugin = replay (Plugin.step model) s.plugin events := by
  cases e with
  | press thid startThread =>
    simp only [Refreshing.step, onPressRefresh]
    split_ifs
    · exact ⟨[.announce 12], rfl⟩
    · exact ⟨[], rfl⟩
    · exact ⟨[], rfl⟩
    · exact ⟨[.announce 12], rfl⟩
    · exact ⟨[.announce 14], rfl⟩
  | toggle checkbox => exact ⟨[], rfl⟩
  | thread i more =>
    simp only [Refreshing.step, refreshThread]
    split
    · exact ⟨[.refreshing true, .announce 12], rfl⟩
    · split_ifs
      · exact ⟨[], rfl⟩
      · exact ⟨[.refreshing false], rfl⟩
    · exact ⟨[.announce 13], rfl⟩
    · exact ⟨[], rfl⟩
    · exact ⟨[], rfl⟩

/-! ## At most one thread -/

def Refreshing.Alive (s : Refreshing) (i : ℕ) : Prop := ∃ p, s.threads[i]? = some p ∧ p ≠ .ended

def Refreshing.AtMostOne (s : Refreshing) : Prop := ∀ i j, s.Alive i → s.Alive j → i = j

/-- A thread that `refreshOnOff` does not tell of. -/
def Refreshing.Unseen (s : Refreshing) (i : ℕ) : Prop :=
  s.threads[i]? = some Phase.created ∨ s.threads[i]? = some Phase.finished

/-- A press that starts a thread comes when no thread is in front of its first step, and none between
its last step on `refreshOnOff` and its end. -/
def MeetsNone (s : Refreshing) : RefreshEvent → Prop
  | .press thid startThread =>
    s.selectRefresh = true → s.plugin.refreshOnOff = false → 0 ≤ thid → 0 ≤ startThread →
      ∀ i, ¬ s.Unseen i
  | _ => True

variable {s t : Refreshing}

theorem alive_of_unseen {i : ℕ} (h : s.Unseen i) : s.Alive i := by
  rcases h with h | h
  · exact ⟨_, h, nofun⟩
  · exact ⟨_, h, nofun⟩

theorem alive_lt {i : ℕ} (h : s.Alive i) : i < s.threads.length := by
  obtain ⟨p, hp, -⟩ := h
  exact (List.getElem?_eq_some_iff.mp hp).1

/-- The new thread is alive, and the ones in front of it stay as they are. -/
theorem alive_append_iff (hthreads : t.threads = s.threads ++ [.created]) (i : ℕ) :
    t.Alive i ↔ s.Alive i ∨ i = s.threads.length := by
  unfold Refreshing.Alive
  rw [hthreads]
  rcases lt_trichotomy i s.threads.length with hlt | heq | hgt
  · rw [List.getElem?_append_left hlt]
    simp [hlt.ne]
  · subst heq
    simp
  · rw [List.getElem?_eq_none (by simp; omega), List.getElem?_eq_none (by omega)]
    simp [hgt.ne']

theorem atMostOne_of_alive (h : s.AtMostOne) (halive : ∀ i, t.Alive i → s.Alive i) : t.AtMostOne :=
  fun i j hi hj => h i j (halive i hi) (halive j hj)

theorem alive_of_set {i : ℕ} {p q : Phase} (hq : s.threads[i]? = some q) (hne : q ≠ .ended)
    (hthreads : t.threads = s.threads.set i p) : ∀ j, t.Alive j → s.Alive j := by
  rintro j ⟨r, hr, hrne⟩
  rw [hthreads] at hr
  by_cases hij : i = j
  · subst hij
    exact ⟨q, hq, hne⟩
  · rw [List.getElem?_set_ne hij] at hr
    exact ⟨r, hr, hrne⟩

/-- No step of a thread brings a thread to life. -/
theorem refreshThread_alive (i : ℕ) (more : Bool) (j : ℕ) (h : (refreshThread i more s).Alive j) :
    s.Alive j := by
  unfold refreshThread at h
  split at h
  · next hphase => exact alive_of_set hphase nofun rfl j h
  · next hphase =>
    split_ifs at h
    · exact h
    · exact alive_of_set hphase nofun rfl j h
  · next hphase => exact alive_of_set hphase nofun rfl j h
  · exact h
  · exact h

/-- What keeps the threads apart: there is at most one, and while its pass runs the button sees it. -/
structure Refreshing.Guarded (s : Refreshing) : Prop where
  atMostOne : s.AtMostOne
  seen : ∀ i : ℕ, s.threads[i]? = some Phase.passing → s.plugin.refreshOnOff = true

theorem onPressRefresh_cases (thid startThread : ℤ) (s : Refreshing) :
    (onPressRefresh thid startThread s).threads = s.threads ∧
        (onPressRefresh thid startThread s).plugin.refreshOnOff = s.plugin.refreshOnOff ∨
      (s.selectRefresh = true ∧ s.plugin.refreshOnOff = false ∧ 0 ≤ thid ∧ 0 ≤ startThread) ∧
        onPressRefresh thid startThread s = { s with threads := s.threads ++ [.created] } := by
  unfold onPressRefresh
  split_ifs with hselect hon hstart
  · exact Or.inl ⟨rfl, rfl⟩
  · exact Or.inr ⟨⟨hselect, Bool.eq_false_of_not_eq_true hon, hstart⟩, rfl⟩
  · exact Or.inl ⟨rfl, rfl⟩
  · exact Or.inl ⟨rfl, rfl⟩
  · exact Or.inl ⟨rfl, rfl⟩

theorem not_alive_of_guarded (h : s.Guarded) (hoff : s.plugin.refreshOnOff = false)
    (hnone : ∀ i, ¬ s.Unseen i) (i : ℕ) : ¬ s.Alive i := by
  rintro ⟨p, hp, hne⟩
  cases p with
  | created => exact hnone i (Or.inl hp)
  | finished => exact hnone i (Or.inr hp)
  | ended => exact hne rfl
  | passing =>
    have hon := h.seen i hp
    rw [hoff] at hon
    cases hon

theorem onPressRefresh_guarded (thid startThread : ℤ) (h : s.Guarded)
    (hmeets : MeetsNone s (.press thid startThread)) :
    (onPressRefresh thid startThread s).Guarded := by
  rcases onPressRefresh_cases thid startThread s with
    ⟨hthreads, hon⟩ | ⟨⟨hselect, hoff, hthid, hstart⟩, heq⟩
  · constructor
    · apply atMostOne_of_alive h.atMostOne
      intro i hi
      rw [Refreshing.Alive, hthreads] at hi
      exact hi
    · intro i hi
      rw [hthreads] at hi
      rw [hon]
      exact h.seen i hi
  · have hnone := not_alive_of_guarded h hoff (hmeets hselect hoff hthid hstart)
    rw [heq]
    constructor
    · intro i j hi hj
      rw [alive_append_iff rfl] at hi hj
      rw [hi.resolve_left (hnone i), hj.resolve_left (hnone j)]
    · intro i hi
      have halive : s.Alive i ∨ i = s.threads.length :=
        (alive_append_iff (t := { s with threads := s.threads ++ [.created] }) rfl i).mp
          ⟨_, hi, nofun⟩
      obtain rfl := halive.resolve_left (hnone i)
      simp at hi

theorem refreshThread_guarded (i : ℕ) (more : Bool) (h : s.Guarded) :
    (refreshThread i more s).Guarded := by
  refine ⟨atMostOne_of_alive h.atMostOne fun j => refreshThread_alive i more j, ?_⟩
  -- another thread in its pass would be a second one alive
  have hother : ∀ (j : ℕ) (p q : Phase), s.threads[i]? = some p → p ≠ .ended →
      (s.threads.set i q)[j]? = some Phase.passing → j = i := by
    intro j p q hp hne hj
    by_contra hji
    rw [List.getElem?_set_ne (Ne.symm hji)] at hj
    exact hji (h.atMostOne j i ⟨_, hj, nofun⟩ ⟨p, hp, hne⟩)
  unfold refreshThread
  split
  · exact fun _ _ => rfl
  · next hphase =>
    split_ifs
    · exact h.seen
    · intro j hj
      obtain rfl := hother j _ _ hphase nofun hj
      simp [setRefreshOnOff, setPhase, alive_lt ⟨_, hphase, nofun⟩] at hj
  · next hphase =>
    intro j hj
    obtain rfl := hother j _ _ hphase nofun hj
    simp [announce, setPhase, alive_lt ⟨_, hphase, nofun⟩] at hj
  · exact h.seen
  · exact h.seen

theorem step_guarded (e : RefreshEvent) (h : s.Guarded) (hmeets : MeetsNone s e) :
    (s.step e).Guarded := by
  cases e with
  | press thid startThread => exact onPressRefresh_guarded thid startThread h hmeets
  | toggle checkbox => exact ⟨h.atMostOne, h.seen⟩
  | thread i more => exact refreshThread_guarded i more h

theorem start_guarded (model : Model) (checkbox select : Bool) :
    (Refreshing.start model checkbox select).Guarded := by
  constructor
  · rintro i j ⟨p, hp, -⟩
    simp [Refreshing.start] at hp
  · intro i hi
    simp [Refreshing.start] at hi

theorem not_atMostOne_of_press {thid startThread : ℤ} (h : ¬ MeetsNone s (.press thid startThread)) :
    ¬ (onPressRefresh thid startThread s).AtMostOne := by
  simp only [MeetsNone, Classical.not_forall, not_not] at h
  obtain ⟨hselect, hoff, hthid, hstart, i, hi⟩ := h
  have heq : onPressRefresh thid startThread s = { s with threads := s.threads ++ [.created] } := by
    rw [onPressRefresh, if_pos hselect, hoff]
    simp [hthid, hstart]
  intro hone
  rw [heq] at hone
  have halive := alive_of_unseen hi
  have hsame := hone i s.threads.length ((alive_append_iff rfl i).mpr (Or.inl halive))
    ((alive_append_iff rfl _).mpr (Or.inr rfl))
  have hlt := alive_lt halive
  omega

/-- **One refresh thread at a time.** At every point of a run at most one refresh thread is between its
start and its end, exactly when no press starts a thread while another one is in front of its first
step or has reset `refreshOnOff` and not ended. -/
theorem atMostOne_iff_meetsNone (model : Model) (checkbox select : Bool) (events : List RefreshEvent) :
    AtEveryPoint Refreshing.AtMostOne Refreshing.step (Refreshing.start model checkbox select) events ↔
      EachStep MeetsNone Refreshing.step (Refreshing.start model checkbox select) events := by
  constructor
  · intro hone p e hp
    by_contra hmeets
    have hbehind : (replay Refreshing.step (Refreshing.start model checkbox select) (p ++ [e])).AtMostOne := by
      obtain ⟨rest, rfl⟩ := hp
      have htake := hone (p ++ [e]).length
      rw [List.take_left] at htake
      exact htake
    rw [replay_snoc] at hbehind
    cases e with
    | press thid startThread => exact not_atMostOne_of_press hmeets hbehind
    | toggle checkbox => exact hmeets trivial
    | thread i more => exact hmeets trivial
  · intro hmeets
    have hguarded := atEveryPoint_of_invariant (fun _ e h he => step_guarded e h he)
      (start_guarded model checkbox select) hmeets
    exact hguarded.mono fun _ h => h.atMostOne

/-- Two presses in front of the first step of the thread that the first one starts. -/
theorem not_atMostOne_two_presses :
    ¬ AtEveryPoint Refreshing.AtMostOne Refreshing.step (Refreshing.start .vita false true)
      [.press 1 0, .press 2 0] := by
  intro h
  have hsame : 0 = 1 := h 2 0 1 ⟨.created, rfl, nofun⟩ ⟨.created, rfl, nofun⟩
  omega

end VitaConnect.Modes

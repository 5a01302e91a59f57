import VitaConnect.Files.Remove

/-! # Copying a file

The loop of `copyFile` compares what `sceIoWrite` answers with zero and not with what it should write, so a
short write is not seen. The conditions on a run speak about its steps: which calls failed, whether it was
cancelled, and which writes were short.
-/
namespace VitaConnect.Files
open CString Program Storage
set_option autoImplicit false

/-! ## Steps of a run -/

/-- A read or write that fails, or a cancel. -/
def Step.Interrupts (s : Step) : Prop :=
  match s.call with
  | .read _ (.error _) => True
  | .write _ _ (.error _) => True
  | .cancel true => True
  | _ => False

/-- A write that succeeds writes the whole block. -/
def Step.WritesFull (s : Step) : Prop :=
  match s.call with
  | .write _ data (.ok n) => n = data.length
  | _ => True

def Step.RemoveSucceeds (s : Step) : Prop :=
  match s.call with
  | .remove _ ret => ret = 0
  | _ => True

def Step.Opens (s : Step) : Prop :=
  match s.call with
  | .create _ (.ok _) => True
  | _ => False

/-- A call that `copyFile` makes. -/
def Step.OnFile (s : Step) : Prop :=
  match s.call with
  | .remove .. | .create .. | .read .. | .write .. | .cancel .. => True
  | _ => False

def Interrupted (steps : List Step) : Prop := ∃ s ∈ steps, s.Interrupts

def WritesFull (steps : List Step) : Prop := ∀ s ∈ steps, s.WritesFull

def RemovesSucceed (steps : List Step) : Prop := ∀ s ∈ steps, s.RemoveSucceeds

def Opened (steps : List Step) : Prop := ∃ s ∈ steps, s.Opens

theorem interrupted_append {s t : List Step} : Interrupted (s ++ t) ↔ Interrupted s ∨ Interrupted t := by
  simp only [Interrupted, List.mem_append, or_and_right, exists_or]

theorem writesFull_append {s t : List Step} : WritesFull (s ++ t) ↔ WritesFull s ∧ WritesFull t :=
  List.forall_mem_append

theorem removesSucceed_append {s t : List Step} :
    RemovesSucceed (s ++ t) ↔ RemovesSucceed s ∧ RemovesSucceed t := List.forall_mem_append

theorem interrupted_singleton {s : Step} : Interrupted [s] ↔ s.Interrupts := by
  simp [Interrupted]

theorem writesFull_singleton {s : Step} : WritesFull [s] ↔ s.WritesFull := List.forall_mem_singleton

theorem removesSucceed_singleton {s : Step} : RemovesSucceed [s] ↔ s.RemoveSucceeds :=
  List.forall_mem_singleton

theorem interrupted_cons_calm {s : Step} (hs : ¬ s.Interrupts) {steps : List Step} :
    Interrupted (s :: steps) ↔ Interrupted steps := by
  rw [← List.singleton_append, interrupted_append, interrupted_singleton, or_iff_right hs]

/-! ## The loop -/

/-- How the loop ends when it has still `rest` of the source to copy behind `out`. -/
inductive LoopEnds (rest out : List Byte) (dst : Loc) (ret : ℤ) (steps : List Step) (d : Disk) : Prop
  | finished (hret : ret = 1) (hcalm : ¬ Interrupted steps) (new : List Byte)
      (hlook : d.look dst = some (.file new)) (hfull : WritesFull steps → new = out ++ rest)
      (hshort : ¬ WritesFull steps → new.length < out.length + rest.length)
  | stopped (hret : ret ≤ 0) (hinterrupted : Interrupted steps)
      (hremoved : RemovesSucceed steps → d.look dst = none)

/-- What is at and below `p` is as it was in `d`. -/
def Intact (d : Disk) (p : Loc) (w : World) : Prop := ∀ rel, w.disk.look (p ++ rel) = d.look (p ++ rel)

theorem Intact.root {d : Disk} {p : Loc} {w : World} (h : Intact d p w) : w.disk.look p = d.look p := by
  have hroot := h []
  rwa [List.append_nil] at hroot

theorem Intact.of_disk {d : Disk} {p : Loc} {w w' : World} (h : Intact d p w) (hdisk : w'.disk = w.disk) :
    Intact d p w' := fun rel => by rw [hdisk, h]

/-- The steps of a run that changes no entry but `dst`. -/
structure Ran (dst : Loc) (w w' : World) (steps : List Step) : Prop where
  trace : w'.trace = w.trace ++ steps
  onFile : ∀ s ∈ steps, s.OnFile
  frame : ∀ l, l ≠ dst → w'.disk.look l = w.disk.look l

theorem Ran.trans {dst : Loc} {w w' w'' : World} {s t : List Step} (h : Ran dst w w' s)
    (h' : Ran dst w' w'' t) : Ran dst w w'' (s ++ t) where
  trace := by rw [h'.trace, h.trace, List.append_assoc]
  onFile := List.forall_mem_append.mpr ⟨h.onFile, h'.onFile⟩
  frame l hl := (h'.frame l hl).trans (h.frame l hl)

theorem ran_nil {dst : Loc} {w w' : World} (htrace : w'.trace = w.trace) (hdisk : w'.disk = w.disk) :
    Ran dst w w' [] where
  trace := by rw [htrace, List.append_nil]
  onFile := List.forall_mem_nil _
  frame _ _ := by rw [hdisk]

theorem ran_singleton {dst : Loc} {w w' : World} {s : Step} (htrace : w'.trace = w.trace ++ [s])
    (hs : s.OnFile) (h : ∀ l, l ≠ dst → w'.disk.look l = w.disk.look l) : Ran dst w w' [s] where
  trace := htrace
  onFile := List.forall_mem_singleton.mpr hs
  frame := h

theorem ran_did {dst : Loc} {w : World} {call : Call} {d : Disk} (hcall : Step.OnFile ⟨call, w.disk, d⟩)
    (h : ∀ l, l ≠ dst → d.look l = w.disk.look l) : Ran dst w (w.did call d) [⟨call, w.disk, d⟩] :=
  ran_singleton rfl hcall h

section Loop
variable (env : Env)

/-- The removal that every exit but the last begins with. -/
theorem remove_ends (dstPath : CStr) (code : ℤ) (w : World) :
    Ends (fun _ => False) (fun ret w' => ret = code ∧ ∃ steps, Ran (locate dstPath) w w' steps ∧
        (RemovesSucceed steps → w'.disk.look (locate dstPath) = none) ∧
        (¬ RemovesSucceed steps → w'.disk = w.disk))
      ((do let _ ← sceIoRemove env dstPath; pure code : FileM ℤ) w) := by
  obtain ⟨ret, disk, hrun, hcases⟩ := sceIoRemove_cases env dstPath w
  refine ends_of_ok hrun ⟨rfl, _, ran_did trivial fun l hl => ?_, fun hsucceed => ?_, fun hfails => ?_⟩
  · rcases hcases with ⟨-, rfl⟩ | ⟨-, -, hlook⟩
    · rfl
    · rw [hlook, Function.update_of_ne hl]
  · have hret : ret = 0 := hsucceed _ (List.mem_singleton_self _)
    rcases hcases with ⟨hfails, -⟩ | ⟨-, -, hlook⟩
    · omega
    · show disk.look _ = none
      rw [hlook, Function.update_self]
  · rcases hcases with ⟨-, rfl⟩ | ⟨hret, -, -⟩
    · rfl
    · exact (hfails (removesSucceed_singleton.mpr hret)).elim

/-- What the loop does from `w` on. -/
def LoopRuns (rest out : List Byte) (dst : Loc) (w : World) (ret : ℤ) (w' : World) : Prop :=
  ∃ steps, Ran dst w w' steps ∧ LoopEnds rest out dst ret steps w'.disk

theorem loop_stopped {dstPath : CStr} {rest out : List Byte} {w w' : World} {pre : List Step} {code : ℤ}
    (hpre : Ran (locate dstPath) w w' pre) (hinterrupted : Interrupted pre) (hcode : code ≤ 0) :
    Ends (fun _ => False) (LoopRuns rest out (locate dstPath) w)
      ((do let _ ← sceIoRemove env dstPath; pure code : FileM ℤ) w') := by
  refine ends_mono (remove_ends env dstPath code w') ?_
  rintro ret w'' ⟨rfl, steps, hran, hgone, -⟩
  refine ⟨pre ++ steps, hpre.trans hran, .stopped hcode (interrupted_append.mpr (Or.inl hinterrupted)) ?_⟩
  exact fun hsucceed => hgone (removesSucceed_append.mp hsucceed).2

/-- A round before the rest of the run: `n` bytes of `data` have been written. -/
theorem LoopEnds.behind_round {rest out data : List Byte} {n : ℕ} {dst : Loc} {ret : ℤ}
    {pre steps : List Step} {d : Disk} (h : LoopEnds rest (out ++ data.take n) dst ret steps d)
    (hn : n ≤ data.length) (hcalm : ¬ Interrupted pre) (hfull : WritesFull pre ↔ n = data.length) :
    LoopEnds (data ++ rest) out dst ret (pre ++ steps) d := by
  have hlength : (out ++ data.take n).length = out.length + n := by
    rw [List.length_append, List.length_take, min_eq_left hn]
  cases h with
  | finished hret hsteps new hlook hwhole hshort =>
    refine .finished hret (fun h => (interrupted_append.mp h).elim hcalm hsteps) new hlook ?_ ?_
    · intro hwrites
      obtain ⟨hpre, hrest⟩ := writesFull_append.mp hwrites
      rw [hwhole hrest, hfull.mp hpre, List.take_length, List.append_assoc]
    · intro hwrites
      rw [List.length_append]
      by_cases hrest : WritesFull steps
      · have hlt : n ≠ data.length := fun heq => hwrites (writesFull_append.mpr ⟨hfull.mpr heq, hrest⟩)
        rw [hwhole hrest, List.length_append, hlength]
        omega
      · have hlt := hshort hrest
        omega
  | stopped hret hinterrupted hremoved =>
    exact .stopped hret (interrupted_append.mpr (Or.inr hinterrupted)) fun hsucceed =>
      hremoved (removesSucceed_append.mp hsucceed).2

theorem interrupted_concat {pre : List Step} {s : Step} (h : s.Interrupts) : Interrupted (pre ++ [s]) :=
  ⟨s, List.mem_append_right pre (List.mem_singleton_self s), h⟩

theorem not_interrupted_singleton {s : Step} : ¬ Interrupted [s] ↔ ¬ s.Interrupts :=
  not_congr interrupted_singleton

theorem not_interrupted_concat {pre : List Step} {s : Step} (hpre : ¬ Interrupted pre)
    (h : ¬ s.Interrupts) : ¬ Interrupted (pre ++ [s]) := fun hor =>
  (interrupted_append.mp hor).elim hpre (not_interrupted_singleton.mpr h)

/-- The report of the progress behind a write, and the rounds that follow. -/
theorem progress_ends {dstPath : CStr} {param : Option FileProcessParam} {amount : ℕ}
    {rest out data : List Byte} {n : ℕ} {w w' : World} {pre : List Step} {next : FileM ℤ}
    (hpre : Ran (locate dstPath) w w' pre) (hn : n ≤ data.length) (hcalm : ¬ Interrupted pre)
    (hfull : WritesFull pre ↔ n = data.length)
    (hnext : ∀ w'', w''.disk = w'.disk → Ends (fun _ => False)
      (LoopRuns rest (out ++ data.take n) (locate dstPath) w'') (next w'')) :
    Ends (fun _ => False) (LoopRuns (data ++ rest) out (locate dstPath) w)
      ((do
        if ← progress env param amount then
          let _ ← sceIoRemove env dstPath
          pure 0
        else next : FileM ℤ) w') := by
  obtain ⟨cancelled, w'', hprogress, hdisk, -, hcases⟩ := progress_cases env param amount w'
  refine ends_of_ok hprogress (ends_ite (fun hcancelled => ?_) fun hcancelled => ?_)
  · subst hcancelled
    obtain ⟨hfalse, -⟩ | htrace := hcases
    · cases hfalse
    · have hran : Ran (locate dstPath) w' w'' [⟨.cancel true, w'.disk, w'.disk⟩] :=
        ran_singleton htrace trivial fun l _ => by rw [hdisk]
      exact loop_stopped env (hpre.trans hran) (interrupted_concat trivial) (by omega)
  · have hran : ∃ steps, Ran (locate dstPath) w w'' (pre ++ steps) ∧ ¬ Interrupted (pre ++ steps) ∧
        (WritesFull (pre ++ steps) ↔ n = data.length) := by
      obtain ⟨-, htrace⟩ | htrace := hcases
      · have hran : Ran (locate dstPath) w' w'' [] := ran_nil htrace hdisk
        refine ⟨[], hpre.trans hran, ?_, ?_⟩
        · rwa [List.append_nil]
        · rwa [List.append_nil]
      · have hran : Ran (locate dstPath) w' w'' [⟨.cancel cancelled, w'.disk, w'.disk⟩] :=
          ran_singleton htrace trivial fun l _ => by rw [hdisk]
        refine ⟨_, hpre.trans hran, not_interrupted_concat hcalm ?_, ?_⟩
        · rw [Bool.not_eq_true] at hcancelled
          rw [hcancelled]
          exact id
        · have hcancel : WritesFull [⟨.cancel cancelled, w'.disk, w'.disk⟩] :=
            writesFull_singleton.mpr trivial
          rw [writesFull_append, and_iff_left hcancel, hfull]
    obtain ⟨steps, hran, hcalm', hfull'⟩ := hran
    refine ends_mono (hnext w'' hdisk) ?_
    rintro ret u ⟨rounds, hrounds, hends⟩
    exact ⟨_, hran.trans hrounds, hends.behind_round hn hcalm' hfull'⟩

theorem copyLoop_ends {src : Loc} {dstPath : CStr} (hne : src ≠ locate dstPath)
    (param : Option FileProcessParam) {content : List Byte} (fuel readPos : ℕ) (out : List Byte) (w : World)
    (hsrc : w.disk.look src = some (.file content))
    (hdst : w.disk.look (locate dstPath) = some (.file out))
    (hfuel : content.length - readPos < fuel) :
    Ends (fun _ => False) (LoopRuns (content.drop readPos) out (locate dstPath) w)
      (copyLoop env src (locate dstPath) dstPath param fuel readPos out.length w) := by
  induction fuel generalizing readPos out w with
  | zero => exact absurd hfuel (Nat.not_lt_zero _)
  | succ fuel ih =>
    have hcontent : contentAt w.disk src = content := by rw [contentAt, hsrc]
    obtain ⟨res, hread, hdata⟩ := sceIoRead_cases env src readPos (by decide : 0 < transferSize) w
    rw [hcontent] at hdata
    refine ends_of_ok hread ?_
    have hran : Ran (locate dstPath) w (w.did (.read src res) w.disk) [⟨.read src res, w.disk, w.disk⟩] :=
      ran_did trivial fun _ _ => rfl
    cases res with
    | error code => exact loop_stopped env hran ⟨_, List.mem_singleton_self _, trivial⟩ (by omega)
    | ok data =>
      obtain ⟨hbegins, hend⟩ := hdata data rfl
      have hreads : WritesFull [⟨.read src (.ok data), w.disk, w.disk⟩] := writesFull_singleton.mpr trivial
      refine ends_ite (fun hnil => ?_) fun hnil => ?_
      · refine ⟨_, hran, .finished rfl (not_interrupted_singleton.mpr id) out hdst (fun _ => ?_) ?_⟩
        · rw [hend hnil, List.append_nil]
        · exact fun hshort => absurd hreads hshort
      · obtain ⟨wrote, disk, hwrite, hcases⟩ := sceIoWrite_cases env out.length data
          (w := w.did (.read src (.ok data)) w.disk) hdst
        refine ends_of_ok hwrite ?_
        have hwritten : ∀ l, l ≠ locate dstPath → disk.look l = w.disk.look l := fun l hl => by
          rcases hcases with ⟨-, rfl⟩ | ⟨n, -, -, hlook⟩
          · rfl
          · rw [hlook, Function.update_of_ne hl]
            rfl
        have hran' : Ran (locate dstPath) (w.did (.read src (.ok data)) w.disk) _
            [⟨.write (locate dstPath) data wrote, w.disk, disk⟩] := ran_did trivial hwritten
        have hdst' := hran.trans hran'
        rcases hcases with ⟨⟨code, rfl⟩, -⟩ | ⟨n, rfl, hn, hlook⟩
        · exact loop_stopped env hdst' (interrupted_concat trivial) (by omega)
        · rw [splice_end] at hlook
          obtain ⟨tail, htail⟩ := hbegins
          have hrest : content.drop (readPos + data.length) = tail := by
            rw [← List.drop_drop, ← htail, List.drop_left]
          have hlength : (out ++ data.take n).length = out.length + n := by
            rw [List.length_append, List.length_take, min_eq_left hn]
          have hpos := List.length_pos_iff.mpr hnil
          have hleft : data.length + tail.length = content.length - readPos := by
            rw [← List.length_append, htail, List.length_drop]
          rw [← htail, ← hrest]
          refine progress_ends env hdst' hn (not_interrupted_concat (not_interrupted_singleton.mpr id) id) ?_
            fun w'' hdisk => ?_
          · rw [writesFull_append, and_iff_right hreads, writesFull_singleton]
            exact Iff.rfl
          · rw [← hlength]
            refine ih _ _ w'' ?_ ?_ (by omega)
            · rw [hdisk]
              show disk.look src = _
              rw [hlook, Function.update_of_ne hne]
              exact hsrc
            · rw [hdisk]
              show disk.look (locate dstPath) = _
              rw [hlook, Function.update_self]

/-! ## The function -/

theorem guard_neg {srcPath dstPath : CStr} {code : ℤ} (h : guard srcPath dstPath = some code) :
    code < 0 := by
  unfold guard at h
  dsimp only at h
  split_ifs at h
  · obtain rfl := Option.some.inj h
    decide
  · obtain rfl := Option.some.inj h
    decide

/-- How `copyFile` ends: it does not come to the loop, or the loop copies from one entry to another, or
both paths name one entry, which has been truncated. -/
inductive CopyEnds (src dst : Loc) (w : World) (ret : ℤ) (w' : World) (steps : List Step) : Prop
  | refused (hret : ret < 0) (hclosed : ¬ Opened steps) (hdisk : w'.disk = w.disk)
  | copied (hne : src ≠ dst) (content : List Byte) (hsrc : w.disk.look src = some (.file content))
      (hopened : Opened steps) (hends : LoopEnds content [] dst ret steps w'.disk)
  | same (heq : src = dst) (content : List Byte) (hsrc : w.disk.look src = some (.file content))
      (hopened : Opened steps)
      (hends : (¬ Interrupted steps ∧ ret = 1 ∧ w'.disk.look dst = some (.file [])) ∨
        (Interrupted steps ∧ ret ≤ 0 ∧ (RemovesSucceed steps → w'.disk.look dst = none) ∧
          (¬ RemovesSucceed steps → w'.disk.look dst = some (.file []))))

def CopyRuns (src dst : Loc) (w : World) (ret : ℤ) (w' : World) : Prop :=
  ∃ steps, Ran dst w w' steps ∧ CopyEnds src dst w ret w' steps

theorem not_opened_nil : ¬ Opened [] := by
  simp [Opened]

theorem loop_same {dstPath : CStr} (param : Option FileProcessParam) (w : World)
    (hdst : w.disk.look (locate dstPath) = some (.file [])) :
    Ends (fun _ => False) (fun ret w' => ∃ steps, Ran (locate dstPath) w w' steps ∧
        ((¬ Interrupted steps ∧ ret = 1 ∧ w'.disk.look (locate dstPath) = some (.file [])) ∨
          (Interrupted steps ∧ ret ≤ 0 ∧ (RemovesSucceed steps → w'.disk.look (locate dstPath) = none) ∧
            (¬ RemovesSucceed steps → w'.disk.look (locate dstPath) = some (.file [])))))
      (copyLoop env (locate dstPath) (locate dstPath) dstPath param 1 0 0 w) := by
  have hcontent : contentAt w.disk (locate dstPath) = [] := by rw [contentAt, hdst]
  obtain ⟨res, hread, hdata⟩ :=
    sceIoRead_cases env (locate dstPath) 0 (by decide : 0 < transferSize) w
  have hran : Ran (locate dstPath) w (w.did (.read (locate dstPath) res) w.disk)
      [⟨.read (locate dstPath) res, w.disk, w.disk⟩] := ran_did trivial fun _ _ => rfl
  refine ends_of_ok hread ?_
  cases res with
  | error code =>
    refine ends_mono (remove_ends env dstPath code.1 _) ?_
    rintro ret w' ⟨rfl, steps, hran', hgone, hkept⟩
    refine ⟨_, hran.trans hran', Or.inr ⟨?_, by omega, fun hsucceed => ?_, fun hfails => ?_⟩⟩
    · exact interrupted_append.mpr (Or.inl ⟨_, List.mem_singleton_self _, trivial⟩)
    · exact hgone (removesSucceed_append.mp hsucceed).2
    · have hread : RemovesSucceed [⟨.read (locate dstPath) (.error code), w.disk, w.disk⟩] :=
        removesSucceed_singleton.mpr trivial
      rw [hkept fun hsteps => hfails (removesSucceed_append.mpr ⟨hread, hsteps⟩)]
      exact hdst
  | ok data =>
    obtain ⟨hbegins, -⟩ := hdata data rfl
    rw [hcontent] at hbegins
    obtain rfl := List.prefix_nil.mp hbegins
    refine ends_ite (fun _ => ?_) fun hne => absurd rfl hne
    exact ⟨_, hran, Or.inl ⟨not_interrupted_singleton.mpr id, rfl, hdst⟩⟩

theorem create_look {l : Loc} {d d' : Disk} (h : createFile true l d = .ok d') :
    d'.look = Function.update d.look l (some (.file [])) := by
  rcases createFile_ok h with ⟨content, -, hlook⟩ | ⟨-, hlook⟩
  · exact hlook
  · exact hlook

/-- An opening of the destination in front of the steps of the loop. -/
theorem LoopEnds.behind_create {rest : List Byte} {dst fd l : Loc} {ret : ℤ} {before after d : Disk}
    {steps : List Step} (h : LoopEnds rest [] dst ret steps d) :
    LoopEnds rest [] dst ret (⟨.create l (.ok fd), before, after⟩ :: steps) d := by
  have hcalm : ¬ Interrupted [⟨.create l (.ok fd), before, after⟩] := not_interrupted_singleton.mpr id
  have hfull : WritesFull [⟨.create l (.ok fd), before, after⟩] ↔ 0 = ([] : List Byte).length :=
    iff_of_true (writesFull_singleton.mpr trivial) rfl
  exact LoopEnds.behind_round (n := 0) h (le_refl _) hcalm hfull

theorem copyFile_ends (param : Option FileProcessParam) (srcPath dstPath : CStr) (w : World) :
    Ends (fun _ => False) (CopyRuns (locate srcPath) (locate dstPath) w)
      (copyFile env param srcPath dstPath w) := by
  unfold copyFile
  cases hguard : guard srcPath dstPath with
  | some code =>
    exact ⟨[], ran_nil rfl rfl, .refused (guard_neg hguard) not_opened_nil rfl⟩
  | none =>
    obtain ⟨res, hopen, hfile⟩ := sceIoOpenRead_cases env srcPath w
    refine ends_of_ok hopen ?_
    cases res with
    | error code =>
      exact ⟨[], ran_nil rfl rfl, .refused code.2.2 not_opened_nil rfl⟩
    | ok fdsrc =>
      obtain ⟨rfl, content, hsrc⟩ := hfile fdsrc rfl
      obtain ⟨made, disk, hcreate, hcases⟩ := sceIoOpenWrite_cases env true dstPath
        { w with tick := w.tick + 1 }
      refine ends_of_ok hcreate ?_
      rcases hcases with ⟨⟨code, rfl⟩, rfl⟩ | ⟨rfl, hmade⟩
      · refine ⟨_, ran_singleton rfl trivial fun _ _ => rfl, .refused code.2.2 ?_ rfl⟩
        simp [Opened, Step.Opens]
      · have hlook := create_look hmade
        have hran : Ran (locate dstPath) w
            (({ w with tick := w.tick + 1 } : World).did (.create (locate dstPath) (.ok (locate dstPath))) disk)
            [⟨.create (locate dstPath) (.ok (locate dstPath)), w.disk, disk⟩] :=
          ran_singleton rfl trivial fun l hl => (congrFun hlook l).trans (Function.update_of_ne hl _ _)
        have hdst : disk.look (locate dstPath) = some (.file []) := by rw [hlook, Function.update_self]
        refine ends_of_ok (get_apply _) ?_
        by_cases hne : locate srcPath = locate dstPath
        · have hlength : (contentAt disk (locate srcPath)).length = 0 := by rw [contentAt, hne, hdst]; rfl
          show Ends _ _ (copyLoop env _ _ _ _ ((contentAt disk (locate srcPath)).length + 1) 0 0 _)
          rw [hlength, hne]
          refine ends_mono (loop_same env param _ hdst) ?_
          rintro ret w' ⟨steps, hran', hends⟩
          refine ⟨_, hran.trans hran', .same rfl content (hne ▸ hsrc) ⟨_, List.mem_cons_self, trivial⟩ ?_⟩
          have hcreate : RemovesSucceed [⟨.create (locate dstPath) (.ok (locate dstPath)), w.disk, disk⟩] :=
            removesSucceed_singleton.mpr trivial
          rw [List.singleton_append, interrupted_cons_calm id, ← List.singleton_append,
            removesSucceed_append, and_iff_right hcreate]
          exact hends
        · have hsrc' : disk.look (locate srcPath) = some (.file content) := by
            rw [hlook, Function.update_of_ne hne]
            exact hsrc
          have hcontent : contentAt disk (locate srcPath) = content := by rw [contentAt, hsrc']
          show Ends _ _ (copyLoop env _ _ _ _ ((contentAt disk (locate srcPath)).length + 1) 0 0 _)
          rw [hcontent]
          refine ends_mono (copyLoop_ends env hne param _ 0 [] _ hsrc' hdst (Nat.lt_succ_self _)) ?_
          rintro ret w' ⟨steps, hran', hends⟩
          exact ⟨_, hran.trans hran', .copied hne content hsrc ⟨_, List.mem_cons_self, trivial⟩
            hends.behind_create⟩

end Loop

/-! ## Exact copies -/

/-- A run of `copyFile` that answers 1 only for an exact copy, removes what it leaves unfinished as far as
the removal succeeds, and does not change the source. -/
structure CopiesExactly (src dst : Loc) (w : World) (ret : ℤ) (w' : World) (steps : List Step) : Prop where
  exact : ret = 1 → ∃ content, w.disk.look src = some (.file content) ∧
    w'.disk.look dst = some (.file content)
  removed : ret ≠ 1 → Opened steps → RemovesSucceed steps → w'.disk.look dst = none
  source : w'.disk.look src = w.disk.look src

theorem exact_of_refused {src dst : Loc} {w w' : World} {ret : ℤ} {steps : List Step} (hret : ret < 0)
    (hclosed : ¬ Opened steps) (hdisk : w'.disk = w.disk) : CopiesExactly src dst w ret w' steps where
  exact h := by omega
  removed _ hopened := absurd hopened hclosed
  source := by rw [hdisk]

theorem exact_iff_of_copied {src dst : Loc} {w w' : World} {ret : ℤ} {steps : List Step}
    (hran : Ran dst w w' steps) (hne : src ≠ dst) {content : List Byte}
    (hsrc : w.disk.look src = some (.file content)) (hends : LoopEnds content [] dst ret steps w'.disk) :
    CopiesExactly src dst w ret w' steps ↔ Interrupted steps ∨ WritesFull steps := by
  cases hends with
  | finished hret hcalm new hlook hfull hshort =>
    rw [or_iff_right hcalm]
    constructor
    · intro h
      obtain ⟨content', hsrc', hdst⟩ := h.exact hret
      rw [hsrc] at hsrc'
      rw [hlook, ← hsrc'] at hdst
      obtain rfl : new = content := by simpa using hdst
      by_contra hwrites
      exact lt_irrefl _ (lt_of_lt_of_eq (hshort hwrites) (by simp))
    · intro hwrites
      exact ⟨fun _ => ⟨content, hsrc, by rw [hlook, hfull hwrites, List.nil_append]⟩,
        fun hne => absurd hret hne, hran.frame src hne⟩
  | stopped hret hinterrupted hremoved =>
    exact iff_of_true ⟨fun h => by omega, fun _ _ => hremoved, hran.frame src hne⟩
      (Or.inl hinterrupted)

theorem exact_iff_of_same {dst : Loc} {w w' : World} {ret : ℤ} {steps : List Step} {content : List Byte}
    (hsrc : w.disk.look dst = some (.file content))
    (hends : (¬ Interrupted steps ∧ ret = 1 ∧ w'.disk.look dst = some (.file [])) ∨
      (Interrupted steps ∧ ret ≤ 0 ∧ (RemovesSucceed steps → w'.disk.look dst = none) ∧
        (¬ RemovesSucceed steps → w'.disk.look dst = some (.file [])))) :
    CopiesExactly dst dst w ret w' steps ↔
      w.disk.look dst = some (.file []) ∧ (Interrupted steps → ¬ RemovesSucceed steps) := by
  rcases hends with ⟨hcalm, hret, hlook⟩ | ⟨hinterrupted, hret, hremoved, hkept⟩
  · rw [and_iff_left fun h => absurd h hcalm]
    refine ⟨fun h => by rw [← h.source, hlook],
      fun h => ⟨fun _ => ⟨[], h, hlook⟩, fun hne => absurd hret hne, ?_⟩⟩
    rw [hlook, h]
  · by_cases hsucceed : RemovesSucceed steps
    · refine iff_of_false (fun h => ?_) fun h => h.2 hinterrupted hsucceed
      have hsource := h.source
      rw [hremoved hsucceed, hsrc] at hsource
      cases hsource
    · rw [and_iff_left fun _ => hsucceed]
      refine ⟨fun h => by rw [← h.source, hkept hsucceed], fun h => ⟨fun h1 => by omega,
        fun _ _ h1 => absurd h1 hsucceed, ?_⟩⟩
      rw [hkept hsucceed, h]

/-- **Copying a file.** `copyFile` ends. It copies exactly, when it opens the destination, if and only if
source and destination are two entries and the run is interrupted or all its writes are full; where both
paths name one entry, that file has to be empty and to stay. -/
theorem copyFile_exact_iff (env : Env) (param : Option FileProcessParam) (srcPath dstPath : CStr)
    (w : World) :
    ∃ ret w' steps, copyFile env param srcPath dstPath w = .ok ret w' ∧ w'.trace = w.trace ++ steps ∧
      (CopiesExactly (locate srcPath) (locate dstPath) w ret w' steps ↔
        (Opened steps →
          if locate srcPath = locate dstPath then
            w.disk.look (locate srcPath) = some (.file []) ∧ (Interrupted steps → ¬ RemovesSucceed steps)
          else Interrupted steps ∨ WritesFull steps)) := by
  obtain ⟨ret, w', hrun, steps, hran, hends⟩ := (copyFile_ends env param srcPath dstPath w).exists_ok
  refine ⟨ret, w', steps, hrun, hran.trace, ?_⟩
  cases hends with
  | refused hret hclosed hdisk =>
    exact iff_of_true (exact_of_refused hret hclosed hdisk) fun hopened => absurd hopened hclosed
  | copied hne content hsrc hopened hends =>
    rw [if_neg hne, exact_iff_of_copied hran hne hsrc hends]
    exact ⟨fun h _ => h, fun h => h hopened⟩
  | same heq content hsrc hopened hends =>
    rw [if_pos heq, heq, exact_iff_of_same (heq ▸ hsrc) hends]
    exact ⟨fun h _ => h, fun h => h hopened⟩

def fullDiskEnv : Env := { calmEnv with answer := fun i => if i = 3 then .short 1 else .full }

/-- One byte of two is written, and `copyFile` answers 1. -/
theorem copyFile_short_write :
    ∃ w', copyFile fullDiskEnv none (bytes "ux0:a/b") (bytes "ux0:a/c") (World.start smallDisk) = .ok 1 w' ∧
      smallDisk.look (locate (bytes "ux0:a/b")) = some (.file [1, 2]) ∧
      w'.disk.look (locate (bytes "ux0:a/c")) = some (.file [1]) := by
  refine ⟨_, rfl, ?_, ?_⟩
  · decide +kernel
  · decide +kernel

end VitaConnect.Files

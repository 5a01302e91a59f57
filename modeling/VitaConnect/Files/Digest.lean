import VitaConnect.Files.CopyFile
import VitaConnect.Files.Progress
import VitaConnect.Hash.Sha1

/-! # The digest of a file

`getFileSha1` reads its file in blocks of any length and hands each of them to `sha1_update`. Behind a block it
reads `*param->value` also where `param->value` is a null pointer.
-/
namespace VitaConnect.Files
open CString Program Storage Hash
set_option autoImplicit false

/-! ## The function -/

inductive Sha1End
  /-- The answer, and what `pSha1Out` points at -/
  | returned (ret : ℤ) (pSha1Out : List Byte)
  /-- `*param->value` has been read through a null pointer. -/
  | readsNull

section Function
variable (env : Env) (param : Option FileProcessParam) (pSha1Out : List Byte)

/-- The delay behind every 8192nd block is left out, and the read of its condition is not. -/
def sha1Loop (fd : Loc) : ℕ → ℕ → Ctx Sha1State → FileM Sha1End
  | 0, _, _ => throw .running
  | fuel + 1, pos, ctx => do
    match ← sceIoRead env fd pos transferSize with
    | .error code => pure (.returned code.1 pSha1Out)
    | .ok buf =>
      if buf = [] then pure (.returned 1 (sha1Final ctx pSha1Out))
      else
        let ctx := sha1Update ctx buf
        if ← progress env param 1 then pure (.returned 0 pSha1Out)
        else if param.any fun p => !p.value then pure .readsNull
        else sha1Loop fd fuel (pos + buf.length) ctx

/-- `stack` is what the context holds at first. A read that does not deliver anything ends the loop, so its
fuel lasts. -/
def getFileSha1 (stack : Vector Byte 64) (file : CStr) : FileM Sha1End := do
  let ctx := sha1Init stack
  match ← sceIoOpenRead env file with
  | .error code => pure (.returned code.1 pSha1Out)
  | .ok fd =>
    let w ← get
    sha1Loop env param pSha1Out fd ((contentAt w.disk fd).length + 1) 0 ctx

end Function

/-! ## Steps of a run -/

/-- Whether the step reads a block that is not empty -/
def Step.blocks (s : Step) : ℕ :=
  match s.call with
  | .read _ (.ok (_ :: _)) => 1
  | _ => 0

def blocksRead (steps : List Step) : ℕ := (steps.map Step.blocks).sum

theorem blocksRead_append (s t : List Step) : blocksRead (s ++ t) = blocksRead s + blocksRead t := by
  rw [blocksRead, List.map_append, List.sum_append]
  rfl

theorem blocks_read (fd : Loc) {data : List Byte} (before after : Disk) (hne : data ≠ []) :
    Step.blocks ⟨.read fd (.ok data), before, after⟩ = 1 := by
  cases data with
  | nil => exact absurd rfl hne
  | cons b data => rfl

/-- A run that reads: the disk stays, and every block is reported where there is a value to count it. -/
structure Summing (param : Option FileProcessParam) (w w' : World) (steps : List Step) : Prop where
  trace : w'.trace = w.trace ++ steps
  disk : w'.disk = w.disk
  reported : ∀ p, param = some p → p.value = true → Reported p (blocksRead steps) w w'

section Runs
variable {param : Option FileProcessParam} {w w' w'' : World}

theorem Summing.trans {s t : List Step} (h : Summing param w w' s) (h' : Summing param w' w'' t) :
    Summing param w w'' (s ++ t) where
  trace := by rw [h'.trace, h.trace, List.append_assoc]
  disk := h'.disk.trans h.disk
  reported p hp hvalue := by
    rw [blocksRead_append]
    exact (h.reported p hp hvalue).trans (h'.reported p hp hvalue)

theorem summing_ticked : Summing param w { w with tick := w.tick + 1 } [] where
  trace := (List.append_nil _).symm
  disk := rfl
  reported _ _ _ := reported_zero rfl rfl

theorem summing_read {fd : Loc} {answer : Except ErrorCode (List Byte)}
    (hblocks : Step.blocks ⟨.read fd answer, w.disk, w.disk⟩ = 0) :
    Summing param w (w.did (.read fd answer) w.disk) [⟨.read fd answer, w.disk, w.disk⟩] where
  trace := rfl
  disk := rfl
  reported _ _ _ := by
    rw [blocksRead, List.map_singleton, List.sum_singleton, hblocks]
    exact reported_zero rfl rfl

/-- A block that has been read, and its report -/
theorem summing_block (env : Env) (param : Option FileProcessParam) {fd : Loc} {data : List Byte} (hne : data ≠ []) (w : World) :
    ∃ cancelled w' steps, progress env param 1 (w.did (.read fd (.ok data)) w.disk) = .ok cancelled w' ∧
      Summing param w w' steps ∧ (Interrupted steps ↔ cancelled = true) := by
  set u := w.did (.read fd (.ok data)) w.disk with hu
  obtain ⟨cancelled, w', hrun, hdisk, -, hcases⟩ := progress_cases env param 1 u
  have hreported : ∀ p, param = some p → p.value = true → Reported p 1 w w' := by
    rintro p rfl hvalue
    obtain ⟨_, w₁, hrun', -, hreported, -⟩ := progress_reports env hvalue 1 u
    rw [hrun] at hrun'
    injection hrun' with _ hw
    subst hw
    exact hreported.of_same rfl rfl
  have hone := blocks_read fd w.disk w.disk hne
  obtain ⟨hfalse, htrace⟩ | htrace := hcases
  · refine ⟨cancelled, w', [⟨.read fd (.ok data), w.disk, w.disk⟩], hrun, ⟨htrace, hdisk, ?_⟩, ?_⟩
    · rw [blocksRead, List.map_singleton, List.sum_singleton, hone]
      exact hreported
    · rw [hfalse]
      exact iff_of_false (not_interrupted_singleton.mpr id) Bool.false_ne_true
  · refine ⟨cancelled, w', [⟨.read fd (.ok data), w.disk, w.disk⟩, ⟨.cancel cancelled, w.disk, w.disk⟩], hrun,
      ⟨?_, hdisk, ?_⟩, ?_⟩
    · rw [htrace, hu]
      exact List.append_assoc _ _ _
    · have hblocks : blocksRead [⟨.read fd (.ok data), w.disk, w.disk⟩, ⟨.cancel cancelled, w.disk, w.disk⟩]
          = 1 := by
        rw [blocksRead, List.map_cons, List.sum_cons, hone]
        rfl
      rw [hblocks]
      exact hreported
    · rw [interrupted_cons_calm id, interrupted_singleton]
      cases cancelled with
      | true => exact iff_of_true trivial rfl
      | false => exact iff_of_false id Bool.false_ne_true

end Runs

/-! ## How it ends -/

/-- How the loop ends when `msg` has been read and the file has still `rest`. -/
inductive SumEnds (param : Option FileProcessParam) (msg rest out : List Byte) (steps : List Step) :
    Sha1End → Prop
  | summed (hcalm : ¬ Interrupted steps) (hvalue : rest ≠ [] → ∀ p, param = some p → p.value = true) :
      SumEnds param msg rest out steps (.returned 1 (Standard.sha1 (msg ++ rest) ++ out.drop 20))
  | stopped (ret : ℤ) (hret : ret ≤ 0) (hinterrupted : Interrupted steps) :
      SumEnds param msg rest out steps (.returned ret out)
  | faulted (p : FileProcessParam) (hparam : param = some p) (hnull : p.value = false)
      (hcalm : ¬ Interrupted steps) (hrest : rest ≠ []) : SumEnds param msg rest out steps .readsNull

theorem SumEnds.behind_block {param : Option FileProcessParam} {msg data rest out : List Byte}
    {pre steps : List Step} {res : Sha1End} (h : SumEnds param (msg ++ data) rest out steps res)
    (hcalm : ¬ Interrupted pre) (hvalue : ∀ p, param = some p → p.value = true) :
    SumEnds param msg (data ++ rest) out (pre ++ steps) res := by
  have hcalm' : ¬ Interrupted steps → ¬ Interrupted (pre ++ steps) := fun hsteps h =>
    (interrupted_append.mp h).elim hcalm hsteps
  cases h with
  | summed hsteps _ =>
    rw [List.append_assoc]
    exact .summed (hcalm' hsteps) fun _ => hvalue
  | stopped ret hret hinterrupted => exact .stopped ret hret (interrupted_append.mpr (Or.inr hinterrupted))
  | faulted p hparam hnull hsteps _ =>
    rw [hvalue p hparam] at hnull
    cases hnull

/-- What the loop does from `w` on. -/
def SumRuns (param : Option FileProcessParam) (msg rest out : List Byte) (w : World) (res : Sha1End)
    (w' : World) : Prop :=
  ∃ steps, Summing param w w' steps ∧ SumEnds param msg rest out steps res

theorem sha1Loop_ends (env : Env) (param : Option FileProcessParam) {out : List Byte} (hout : 20 ≤ out.length)
    {fd : Loc} {content : List Byte} (fuel pos : ℕ) {ctx : Ctx Sha1State} {msg : List Byte}
    (hctx : Sha1Read ctx msg) {w : World} (hfile : contentAt w.disk fd = content)
    (hfuel : content.length - pos < fuel) :
    Ends (fun _ => False) (SumRuns param msg (content.drop pos) out w)
      (sha1Loop env param out fd fuel pos ctx w) := by
  induction fuel generalizing pos ctx msg w with
  | zero => exact absurd hfuel (Nat.not_lt_zero _)
  | succ fuel ih =>
    obtain ⟨res, hread, hdata⟩ := sceIoRead_cases env fd pos (by decide : 0 < transferSize) w
    rw [hfile] at hdata
    refine ends_of_ok hread ?_
    cases res with
    | error code =>
      exact ⟨_, summing_read rfl, .stopped code.1 (by omega) ⟨_, List.mem_singleton_self _, trivial⟩⟩
    | ok data =>
      obtain ⟨⟨tail, htail⟩, hend⟩ := hdata data rfl
      refine ends_ite (fun hnil => ?_) fun hne => ?_
      · subst hnil
        have hfinal : SumEnds param msg [] out [⟨.read fd (.ok []), w.disk, w.disk⟩]
            (.returned 1 (Standard.sha1 (msg ++ []) ++ out.drop 20)) :=
          .summed (not_interrupted_singleton.mpr id) fun h => absurd rfl h
        rw [List.append_nil] at hfinal
        rw [hend rfl, hctx.final hout]
        exact ⟨_, summing_read rfl, hfinal⟩
      · have hrest : content.drop (pos + data.length) = tail := by
          rw [← List.drop_drop, ← htail, List.drop_left]
        have hpos := List.length_pos_iff.mpr hne
        have hleft : data.length + tail.length = content.length - pos := by
          rw [← List.length_append, htail, List.length_drop]
        obtain ⟨cancelled, w', steps, hprogress, hrun, hcancel⟩ := summing_block env param hne w
        refine ends_of_ok hprogress (ends_ite (fun hcancelled => ?_) fun hcancelled => ?_)
        · exact ⟨steps, hrun, .stopped 0 le_rfl (hcancel.mpr hcancelled)⟩
        · have hcalm : ¬ Interrupted steps := fun h => hcancelled (hcancel.mp h)
          have hbehind : content.drop pos ≠ [] := by
            rw [← htail]
            exact List.append_ne_nil_of_left_ne_nil hne _
          refine ends_ite (fun hnull => ?_) fun hnull => ?_
          · obtain ⟨p, hp, hvalue⟩ := (Option.any_eq_true _ _).mp hnull
            exact ⟨steps, hrun, .faulted p hp (by simpa using hvalue) hcalm hbehind⟩
          · have hvalue : ∀ p, param = some p → p.value = true := by
              rintro p rfl
              simpa using hnull
            refine ends_mono (ih (pos + data.length) (hctx.update data) (w := w') ?_ (by omega)) ?_
            · rw [hrun.disk, hfile]
            · rintro res' w'' ⟨steps', hrun', hends⟩
              rw [hrest] at hends
              rw [← htail]
              exact ⟨_, hrun.trans hrun', hends.behind_block hcalm hvalue⟩

/-! ## The function -/

/-- **The digest of a file.** `getFileSha1` ends and leaves the disk as it was. Unless the file is not opened,
it answers 1 with the SHA-1 of the whole file, whatever the lengths of the blocks, exactly when no read fails and
it is not cancelled, or it answers 0 or the error and leaves `pSha1Out`; and it reads a null pointer behind the
first block where it is given a parameter without a value. The value grows by the number of blocks. -/
theorem getFileSha1_digest (env : Env) (param : Option FileProcessParam) (stack : Vector Byte 64) (file : CStr)
    (pSha1Out : List Byte) (hout : 20 ≤ pSha1Out.length) (w : World) :
    ∃ res w' steps, getFileSha1 env param pSha1Out stack file w = .ok res w' ∧ Summing param w w' steps ∧
      ((∃ code : ErrorCode, res = .returned code.1 pSha1Out ∧ steps = []) ∨
        ∃ content, w.disk.look (locate file) = some (.file content) ∧
          SumEnds param [] content pSha1Out steps res) := by
  obtain ⟨opened, hopen, hfile⟩ := sceIoOpenRead_cases env file w
  cases opened with
  | error code =>
    exact ⟨_, _, [], bind_of_ok hopen, summing_ticked, Or.inl ⟨code, rfl, rfl⟩⟩
  | ok fd =>
    obtain ⟨rfl, content, hcontent⟩ := hfile fd rfl
    have hat : contentAt w.disk (locate file) = content := by rw [contentAt, hcontent]
    obtain ⟨res, w', hrun, steps, hsumming, hends⟩ :=
      (sha1Loop_ends env param hout (content.length + 1) 0 (sha1Init_read stack)
        (w := { w with tick := w.tick + 1 }) hat (by omega)).exists_ok
    refine ⟨res, w', steps, ?_, summing_ticked.trans hsumming, Or.inr ⟨content, hcontent, hends⟩⟩
    rw [← hat] at hrun
    exact (bind_of_ok hopen).trans hrun

theorem getFileSha1_digest_small : ∃ res w' steps,
    getFileSha1 calmEnv none (List.replicate 20 0) (Vector.replicate 64 0) (bytes "ux0:a/b")
        (World.start smallDisk) = .ok res w' ∧ Summing none (World.start smallDisk) w' steps ∧
      ((∃ code : ErrorCode, res = .returned code.1 (List.replicate 20 0) ∧ steps = []) ∨
        ∃ content, smallDisk.look (locate (bytes "ux0:a/b")) = some (.file content) ∧
          SumEnds none [] content (List.replicate 20 0) steps res) :=
  getFileSha1_digest calmEnv none (Vector.replicate 64 0) (bytes "ux0:a/b") (List.replicate 20 0) (by decide)
    (World.start smallDisk)

end VitaConnect.Files

import VitaConnect.Files.CopyFile
import VitaConnect.Files.Split

/-! # Symbolic links (`createSymLink`, `resolveSimLink`)

A link is a file with a header and the path of its target. It is opened without `SCE_O_TRUNC`, and nothing
in it says how long the path is: what a longer path has left behind a shorter one is read with it.
-/
namespace VitaConnect.Files
open CString Program Storage
set_option autoImplicit false

def symlinkHeaderBytes : List Byte := [0xF1, 0x1E, 0x00, 0x00]

def errorInternal : ℤ := 0xF0010000 - 0x100000000

def errorSymlinkInternal : ℤ := 0xF0040003 - 0x100000000

structure Symlink where
  toFile : Bool
  targetPath : List Byte
  targetPathLength : ℤ

section Code
variable (env : Env)

def createSymLink (storeLocation target : CStr) : FileM ℤ := do
  match ← sceIoOpenWrite env false storeLocation with
  | .error _ => pure errorSymlinkInternal
  | .ok fd =>
    let header ← sceIoWrite env fd 0 symlinkHeaderBytes
    let pos := match header with
      | .ok n => n
      | .error _ => 0
    let _ ← sceIoWrite env fd pos (target.take maxPathLength)
    pure 0

/-- What `*symlink` is behind the call, or the error. -/
def resolveSimLink (malloc : Option (ℕ → Byte)) (path : CStr) : FileM (Except ℤ Symlink) := do
  match ← sceIoOpenRead env path with
  | .error _ => pure (.error errorSymlinkInternal)
  | .ok fd =>
    match ← sceIoRead env fd 0 symlinkHeaderBytes.length with
    | .error _ => pure (.error errorSymlinkInternal)
    | .ok magic =>
      if magic.length < symlinkHeaderBytes.length then pure (.error errorSymlinkInternal)
      else if magic ≠ symlinkHeaderBytes then pure (.error errorSymlinkInternal)
      else
        match malloc with
        | none => pure (.error errorInternal)
        | some mem =>
          match ← sceIoRead env fd magic.length (maxPathLength - 1) with
          | .error _ => pure (.error errorSymlinkInternal)
          | .ok data =>
            if data = [] then pure (.error errorSymlinkInternal)
            else
              let resolve := (data ++ (block mem).drop data.length).set data.length 0
              match ← sceIoGetstat env ((ofBuffer resolve).getD []) with
              | .error _ => pure (.error errorSymlinkInternal)
              | .ok (isDir, _) => pure (.ok ⟨!isDir, resolve, data.length + 1⟩)

end Code

/-! ## What is in a link -/

/-- The file behind a link to `target` that is written over `content`. -/
def linked (content target : List Byte) : List Byte :=
  symlinkHeaderBytes ++ target ++ content.drop (symlinkHeaderBytes.length + target.length)

theorem splice_header (content target : List Byte) :
    splice (splice content 0 symlinkHeaderBytes) symlinkHeaderBytes.length target = linked content target := by
  have hheader : splice content 0 symlinkHeaderBytes =
      symlinkHeaderBytes ++ content.drop symlinkHeaderBytes.length := by
    rw [splice, List.take_zero, List.nil_append, Nat.zero_add]
  rw [hheader, splice, List.take_left, linked, ← List.drop_drop, List.drop_left, List.drop_drop]

theorem linked_length (content target : List Byte) : (linked content target).length =
    max (symlinkHeaderBytes.length + target.length) content.length := by
  rw [linked, List.length_append, List.length_append, List.length_drop]
  omega

/-- The longest of what has been written stays the length of the file. -/
theorem foldl_linked_length_le (content : List Byte) (targets : List CStr) (n : ℕ) :
    (targets.foldl linked content).length ≤ symlinkHeaderBytes.length + n ↔
      content.length ≤ symlinkHeaderBytes.length + n ∧ ∀ target ∈ targets, target.length ≤ n := by
  induction targets generalizing content with
  | nil => exact (and_iff_left (List.forall_mem_nil _)).symm
  | cons target targets ih =>
    rw [List.foldl_cons, ih, linked_length, List.forall_mem_cons, ← and_assoc]
    refine and_congr_left fun _ => ?_
    omega

/-! ## Writing -/

section Run
variable (env : Env) (hfull : ∀ i, env.answer i = .full)

def CanOpen (location : CStr) (d : Disk) : Prop := ∃ d', createFile false (locate location) d = .ok d'

theorem create_keeps {l : Loc} {d d' : Disk} (h : createFile false l d = .ok d') :
    d'.look = Function.update d.look l (some (.file (contentAt d l))) := by
  rcases createFile_ok h with ⟨content, hfile, hlook⟩ | ⟨hnone, hlook⟩
  · rw [hlook, contentAt, hfile]
    rfl
  · rw [hlook, contentAt, hnone]

theorem canOpen_of_file {location : CStr} {d : Disk} {content : List Byte}
    (h : d.look (locate location) = some (.file content)) : CanOpen location d :=
  ⟨d, by rw [createFile, h]; rfl⟩

include hfull in
theorem sceIoWrite_full {fd : Loc} (pos : ℕ) (data : List Byte) {w : World} {content : List Byte}
    (hfile : w.disk.look fd = some (.file content)) : ∃ disk,
    sceIoWrite env fd pos data w = .ok (.ok data.length) (w.did (.write fd data (.ok data.length)) disk) ∧
      disk.look = Function.update w.disk.look fd (some (.file (splice content pos data))) := by
  have hcontent : contentAt w.disk fd = content := by rw [contentAt, hfile]
  refine ⟨w.disk.put fd (.file (splice content pos (data.take data.length))), ?_, ?_⟩
  · rw [sceIoWrite, hfull, hcontent]
    rfl
  · rw [List.take_length]
    exact look_put_file hfile _

include hfull in
theorem createSymLink_ends {location target : CStr} {w : World} (hopen : CanOpen location w.disk)
    (hlength : target.length < maxPathLength) :
    Ends (fun _ => False) (fun ret w' => ret = 0 ∧ w'.disk.look = Function.update w.disk.look
        (locate location) (some (.file (linked (contentAt w.disk (locate location)) target))))
      (createSymLink env location target w) := by
  obtain ⟨d, hd⟩ := hopen
  have hlook := create_keeps hd
  set l := locate location
  set content := contentAt w.disk l
  have hopened : sceIoOpenWrite env false location w = .ok (.ok l) (w.did (.create l (.ok l)) d) := by
    show EStateM.Result.ok _ _ = _
    rw [hfull, show Answer.unlessFails (createFile false l w.disk) .full = .ok d from hd]
    rfl
  have hfile : d.look l = some (.file content) := by rw [hlook, Function.update_self]
  obtain ⟨d', hheader, hlook'⟩ := sceIoWrite_full env hfull 0 symlinkHeaderBytes
    (w := w.did (.create l (.ok l)) d) hfile
  have hfile' : d'.look l = some (.file (splice content 0 symlinkHeaderBytes)) := by
    rw [hlook', Function.update_self]
  obtain ⟨d'', htarget, hlook''⟩ := sceIoWrite_full env hfull symlinkHeaderBytes.length
    (target.take maxPathLength)
    (w := (w.did (.create l (.ok l)) d).did (.write l symlinkHeaderBytes (.ok symlinkHeaderBytes.length)) d')
    hfile'
  refine ends_of_ok hopened (ends_of_ok hheader (ends_of_ok htarget ⟨rfl, ?_⟩))
  rw [splice_header, List.take_of_length_le hlength.le] at hlook''
  funext k
  show d''.look k = _
  rw [hlook'']
  by_cases hk : k = l
  · rw [hk, Function.update_self, Function.update_self]
  · rw [Function.update_of_ne hk, Function.update_of_ne hk]
    show d'.look k = _
    rw [hlook', Function.update_of_ne hk]
    show d.look k = _
    rw [hlook, Function.update_of_ne hk]

/-- The calls of a history on one location. -/
def createSymLinks (location : CStr) (targets : List CStr) : FileM PUnit :=
  runAll (fun target => do let _ ← createSymLink env location target) targets

include hfull in
theorem createSymLinks_ends {location : CStr} {targets : List CStr} {w : World}
    (hopen : CanOpen location w.disk) (hlength : ∀ target ∈ targets, target.length < maxPathLength) :
    Ends (fun _ => False) (fun _ w' => CanOpen location w'.disk ∧
        (∀ l, l ≠ locate location → w'.disk.look l = w.disk.look l) ∧
        contentAt w'.disk (locate location) =
          targets.foldl linked (contentAt w.disk (locate location)))
      (createSymLinks env location targets w) := by
  induction targets generalizing w with
  | nil => exact ⟨hopen, fun _ _ => rfl, rfl⟩
  | cons target targets ih =>
    obtain ⟨htarget, htargets⟩ := List.forall_mem_cons.mp hlength
    obtain ⟨ret, w', hrun, -, hlook⟩ := (createSymLink_ends env hfull hopen htarget).exists_ok
    have hfile : w'.disk.look (locate location) =
        some (.file (linked (contentAt w.disk (locate location)) target)) := by
      rw [hlook, Function.update_self]
    have hcontent : contentAt w'.disk (locate location) =
        linked (contentAt w.disk (locate location)) target := by rw [contentAt, hfile]
    have hround : (do let _ ← createSymLink env location target : FileM PUnit) w = .ok ⟨⟩ w' := by
      rw [bind_of_ok hrun]
      rfl
    refine ends_of_ok hround (ends_mono (ih (canOpen_of_file hfile) htargets) ?_)
    rintro - u ⟨hopen', hframe, hfold⟩
    refine ⟨hopen', fun l hl => ?_, by rw [hfold, hcontent, List.foldl_cons]⟩
    rw [hframe l hl, hlook, Function.update_of_ne hl]

/-! ## Reading -/

def Resolves (res : Except ℤ Symlink) (target : CStr) : Prop :=
  ∃ symlink, res = .ok symlink ∧ ofBuffer symlink.targetPath = some target ∧
    symlink.targetPathLength = target.length + 1

instance (res : Except ℤ Symlink) (target : CStr) : Decidable (Resolves res target) :=
  match res with
  | .error _ => isFalse fun ⟨_, hres, _⟩ => by cases hres
  | .ok symlink => decidable_of_iff
    (ofBuffer symlink.targetPath = some target ∧ symlink.targetPathLength = target.length + 1)
    ⟨fun h => ⟨symlink, rfl, h⟩, fun ⟨_, hres, h⟩ => Except.ok.inj hres ▸ h⟩

include hfull in
theorem sceIoRead_full (fd : Loc) (pos size : ℕ) (w : World) : ∃ w',
    sceIoRead env fd pos size w = .ok (.ok (((contentAt w.disk fd).drop pos).take size)) w' ∧
      w'.disk = w.disk := by
  refine ⟨w.did (.read fd (.ok (((contentAt w.disk fd).drop pos).take size))) w.disk, ?_, rfl⟩
  rw [sceIoRead, hfull]
  rfl

include hfull in
theorem sceIoGetstat_full (path : CStr) (w : World) :
    sceIoGetstat env path w = .ok (statAt (locate path) w.disk) { w with tick := w.tick + 1 } := by
  rw [sceIoGetstat, hfull]
  rfl

/-- What is read behind the header of a link. -/
def delivered (target rest : List Byte) : List Byte := (target ++ rest).take (maxPathLength - 1)

theorem length_delivered (target rest : List Byte) :
    (delivered target rest).length = min (maxPathLength - 1) (target.length + rest.length) := by
  rw [delivered, List.length_take, List.length_append]

theorem delivered_length_iff {target rest : List Byte} (hlength : target.length < maxPathLength) :
    (delivered target rest).length = target.length ↔ rest = [] ∨ target.length = maxPathLength - 1 := by
  rw [length_delivered, ← List.length_eq_zero_iff]
  omega

/-- The terminated block holds the target when no more than that is read. -/
theorem ofBuffer_delivered (mem : ℕ → Byte) {target : CStr} {rest : List Byte} (hnul : 0 ∉ target)
    (hsame : (delivered target rest).length = target.length) :
    ofBuffer ((delivered target rest ++ (block mem).drop (delivered target rest).length).set
      (delivered target rest).length 0) = some target := by
  have hblock : (block mem).drop (delivered target rest).length ≠ [] := by
    rw [ne_eq, ← List.length_eq_zero_iff, List.length_drop, block_length, length_delivered]
    unfold maxPathLength
    omega
  have htaken : delivered target rest = target := (List.prefix_of_prefix_length_le (List.take_prefix _ _)
    (List.prefix_append target rest) hsame.le).eq_of_length hsame
  rw [htaken] at hblock ⊢
  exact ofBuffer_set hnul hblock

include hfull in
/-- A link is resolved to its target if nothing is read behind the target. -/
theorem resolveSimLink_ends {location target : CStr} {rest : List Byte} (mem : ℕ → Byte) {w : World}
    (hfile : w.disk.look (locate location) = some (.file (symlinkHeaderBytes ++ target ++ rest)))
    (hne : target ≠ []) (hnul : 0 ∉ target) (hlength : target.length < maxPathLength)
    (hexists : ∃ stat, statAt (locate target) w.disk = .ok stat) :
    Ends (fun _ => False)
      (fun res _ => Resolves res target ↔ rest = [] ∨ target.length = maxPathLength - 1)
      (resolveSimLink env (some mem) location w) := by
  set l := locate location with hl
  have hopened : sceIoOpenRead env location w = .ok (.ok l) { w with tick := w.tick + 1 } := by
    show EStateM.Result.ok _ _ = _
    rw [hfull, ← hl, openFile, hfile]
    rfl
  refine ends_of_ok hopened ?_
  obtain ⟨w', hmagic, hdisk⟩ := sceIoRead_full env hfull l 0 symlinkHeaderBytes.length
    { w with tick := w.tick + 1 }
  have hcontent : contentAt w.disk l = symlinkHeaderBytes ++ (target ++ rest) := by
    rw [contentAt, hfile, List.append_assoc]
  rw [show ({ w with tick := w.tick + 1 } : World).disk = w.disk from rfl] at hdisk
  rw [show contentAt ({ w with tick := w.tick + 1 } : World).disk l = _ from hcontent, List.drop_zero,
    List.take_left] at hmagic
  refine ends_of_ok hmagic (ends_ite (fun hshort => absurd hshort (lt_irrefl _)) fun _ =>
    ends_ite (fun hother => absurd rfl hother) fun _ => ?_)
  obtain ⟨w'', hread, hdisk'⟩ := sceIoRead_full env hfull l symlinkHeaderBytes.length (maxPathLength - 1) w'
  rw [hdisk, hcontent, List.drop_left, ← delivered] at hread
  refine ends_of_ok hread ?_
  rw [← delivered_length_iff hlength]
  refine ends_ite (fun hnil => ?_) fun _ => ?_
  · have hzero := length_delivered target rest
    have hpos := List.length_pos_iff.mpr hne
    rw [hnil, List.length_nil] at hzero
    exact absurd hzero (by unfold maxPathLength; omega)
  refine ends_of_ok (sceIoGetstat_full env hfull _ w'') ?_
  rw [hdisk', hdisk]
  cases hstat : statAt (locate
    ((ofBuffer ((delivered target rest ++ (block mem).drop (delivered target rest).length).set
      (delivered target rest).length 0)).getD [])) w.disk with
  | error code =>
    refine iff_of_false (fun hresolves => ?_) fun hsame => ?_
    · obtain ⟨_, hres, -⟩ := hresolves
      cases hres
    · obtain ⟨stat, hok⟩ := hexists
      rw [ofBuffer_delivered mem hnul hsame, Option.getD_some, hok] at hstat
      cases hstat
  | ok stat =>
    constructor
    · rintro ⟨symlink, hres, -, hsymlink⟩
      obtain rfl := Except.ok.inj hres
      exact Int.ofNat_inj.mp (add_right_cancel hsymlink)
    · intro hsame
      refine ⟨_, rfl, ofBuffer_delivered mem hnul hsame, ?_⟩
      show ((delivered target rest).length : ℤ) + 1 = target.length + 1
      rw [hsame]

end Run

/-! ## Histories -/

theorem statAt_iff {l : Loc} {d : Disk} : (∃ stat, statAt l d = .ok stat) ↔ l ≠ [] ∧ d.look l ≠ none := by
  rw [statAt]
  constructor
  · rintro ⟨stat, hstat⟩
    split_ifs at hstat with hl
    refine ⟨hl, fun hnone => ?_⟩
    rw [hnone] at hstat
    cases hstat
  · rintro ⟨hl, hexists⟩
    rw [if_neg hl]
    obtain ⟨e, he⟩ := Option.ne_none_iff_exists'.mp hexists
    rw [he]
    cases e with
    | dir => exact ⟨_, rfl⟩
    | file content => exact ⟨_, rfl⟩

/-- **Links.** Behind any history of targets on one location, all writes full, the link resolves to the
last target if and only if nothing longer has been there before, or the last target is as long as what is
read at once. -/
theorem resolveSimLink_last_iff (env : Env) (hfull : ∀ i, env.answer i = .full) (mem : ℕ → Byte)
    (location : CStr) (targets : List CStr) (last : CStr) (w : World) (hopen : CanOpen location w.disk)
    (htargets : ∀ target ∈ targets ++ [last], target ≠ [] ∧ 0 ∉ target ∧
      target.length ≤ maxPathLength - 1 ∧ ∃ stat, statAt (locate target) w.disk = .ok stat) :
    ∃ w' res w'', createSymLinks env location (targets ++ [last]) w = .ok ⟨⟩ w' ∧
      resolveSimLink env (some mem) location w' = .ok res w'' ∧
      (Resolves res last ↔
        ((contentAt w.disk (locate location)).length ≤ symlinkHeaderBytes.length + last.length ∧
          ∀ target ∈ targets, target.length ≤ last.length) ∨ last.length = maxPathLength - 1) := by
  have hlt (target : CStr) (h : target ∈ targets ++ [last]) : target.length < maxPathLength := by
    have hle := (htargets target h).2.2.1
    unfold maxPathLength at hle ⊢
    omega
  have hmem : last ∈ targets ++ [last] := List.mem_append_right _ (List.mem_singleton_self _)
  obtain ⟨hne, hnul, -, hstat⟩ := htargets last hmem
  obtain ⟨⟨⟩, u, hbefore, hopen', hframe, hfold⟩ := (createSymLinks_ends env hfull hopen
    fun target h => hlt target (List.mem_append_left _ h)).exists_ok
  obtain ⟨ret, w', hrun, -, hlook⟩ := (createSymLink_ends env hfull hopen' (hlt last hmem)).exists_ok
  have hwritten : createSymLinks env location (targets ++ [last]) w = .ok ⟨⟩ w' := by
    unfold createSymLinks at hbefore ⊢
    rw [runAll_append, bind_of_ok hbefore, runAll_cons, bind_of_ok hrun]
    rfl
  have hfile : w'.disk.look (locate location) = some (.file (symlinkHeaderBytes ++ last ++
      (contentAt u.disk (locate location)).drop (symlinkHeaderBytes.length + last.length))) := by
    rw [hlook, Function.update_self, linked]
  have hstat' : ∃ stat, statAt (locate last) w'.disk = .ok stat := by
    obtain ⟨hl, hexists⟩ := statAt_iff.mp hstat
    refine statAt_iff.mpr ⟨hl, ?_⟩
    by_cases heq : locate last = locate location
    · rw [heq, hfile]
      exact Option.some_ne_none _
    · rwa [hlook, Function.update_of_ne heq, hframe _ heq]
  obtain ⟨res, w'', hresolve, hiff⟩ :=
    (resolveSimLink_ends env hfull mem hfile hne hnul (hlt last hmem) hstat').exists_ok
  refine ⟨w', res, w'', hwritten, hresolve, ?_⟩
  rw [hiff, List.drop_eq_nil_iff, hfold, foldl_linked_length_le]

theorem resolveSimLink_last_iff_small :
    ∃ w' res w'', createSymLinks calmEnv (bytes "ux0:c") ([bytes "ux0:a"] ++ [bytes "ux0:a/b"])
        (World.start smallDisk) = .ok ⟨⟩ w' ∧
      resolveSimLink calmEnv (some fun _ => 0) (bytes "ux0:c") w' = .ok res w'' ∧
      (Resolves res (bytes "ux0:a/b") ↔
        ((contentAt smallDisk (locate (bytes "ux0:c"))).length ≤
            symlinkHeaderBytes.length + (bytes "ux0:a/b").length ∧
          ∀ target ∈ [bytes "ux0:a"], target.length ≤ (bytes "ux0:a/b").length) ∨
        (bytes "ux0:a/b").length = maxPathLength - 1) := by
  refine resolveSimLink_last_iff calmEnv (fun _ => rfl) (fun _ => 0) (bytes "ux0:c") [bytes "ux0:a"]
    (bytes "ux0:a/b") (World.start smallDisk) ⟨_, rfl⟩ ?_
  intro target htarget
  simp only [List.cons_append, List.nil_append, List.mem_cons, List.not_mem_nil, or_false] at htarget
  rcases htarget with rfl | rfl
  · exact ⟨by decide, by decide, by decide, statAt_iff.mpr (by decide +kernel)⟩
  · exact ⟨by decide, by decide, by decide, statAt_iff.mpr (by decide +kernel)⟩

/-- The path of `ux0:a` is written over the longer path of `ux0:a/b`. -/
theorem resolveSimLink_longer_before : ∃ res w', (do
      createSymLinks calmEnv (bytes "ux0:c") [bytes "ux0:a/b", bytes "ux0:a"]
      resolveSimLink calmEnv (some fun _ => 0) (bytes "ux0:c") : FileM (Except ℤ Symlink))
        (World.start smallDisk) = .ok res w' ∧
    ¬ Resolves res (bytes "ux0:a") ∧ Resolves res (bytes "ux0:a/b") := by
  refine Ends.exists_ok ?_
  decide +kernel

end VitaConnect.Files

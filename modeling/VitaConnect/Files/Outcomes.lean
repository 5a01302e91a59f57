import VitaConnect.Files.Process

/-! # What each call can do

One lemma for each call: how it ends, and what the disk is behind it. The proofs about the functions go
through their calls with these, one after the other.
-/
namespace VitaConnect.Files
open CString Program Storage
set_option autoImplicit false

/-! ## Operations of the disk -/

theorem ne_nil_of_file {l : Loc} {d : Disk} {content : List Byte} (h : d.look l = some (.file content)) :
    l ≠ [] := by
  rintro rfl
  rw [d.look_nil] at h
  cases h

theorem parent_of_ne_none {l : Loc} {d : Disk} (hl : l ≠ []) (h : d.look l ≠ none) :
    d.look l.dropLast = some .dir := by
  rw [← List.dropLast_append_getLast hl] at h
  exact d.closed _ _ h

theorem children_of_file {l : Loc} {d : Disk} {content : List Byte}
    (h : d.look l = some (.file content)) : d.children l = [] :=
  FileSystem.children_eq_nil_iff.mpr fun n => d.none_below_file h (List.cons_ne_nil n [])

theorem look_put_file {l : Loc} {d : Disk} {content : List Byte} (h : d.look l = some (.file content))
    (new : List Byte) : (d.put l (.file new)).look = Function.update d.look l (some (.file new)) :=
  FileSystem.look_put (ne_nil_of_file h) (parent_of_ne_none (ne_nil_of_file h) (by rw [h]; simp))
    (Or.inr (children_of_file h))

theorem removeFile_ok {l : Loc} {d d' : Disk} (h : removeFile l d = .ok d') :
    (∃ content, d.look l = some (.file content)) ∧ d'.look = Function.update d.look l none := by
  unfold removeFile at h
  split at h
  · next content hl =>
    obtain rfl := Except.ok.inj h
    exact ⟨⟨content, hl⟩, FileSystem.look_erase (ne_nil_of_file hl) (children_of_file hl)⟩
  · cases h
  · cases h

theorem removeDir_ok {l : Loc} {d d' : Disk} (h : removeDir l d = .ok d') :
    d.look l = some .dir ∧ d.children l = [] ∧ d'.look = Function.update d.look l none := by
  unfold removeDir at h
  split at h
  · next hl =>
    split_ifs at h with hlen hempty
    obtain rfl := Except.ok.inj h
    have hne : l ≠ [] := by
      rintro rfl
      exact hlen (by decide)
    exact ⟨hl, hempty, FileSystem.look_erase hne hempty⟩
  · cases h
  · cases h

theorem makeDir_ok {l : Loc} {d d' : Disk} (h : makeDir l d = .ok d') :
    d.look l = none ∧ d'.look = Function.update d.look l (some .dir) := by
  unfold makeDir at h
  split_ifs at h with hlen hexists hparent
  obtain rfl := Except.ok.inj h
  have hne : l ≠ [] := by
    rintro rfl
    exact hlen (by decide)
  exact ⟨not_not.mp hexists, FileSystem.look_put hne hparent (Or.inl rfl)⟩

theorem renameEntry_ok {src dst : Loc} {d d' : Disk} (h : renameEntry src dst d = .ok d') :
    d.look src ≠ none ∧ d.Movable src dst ∧ d'.look = d.look.move src dst := by
  unfold renameEntry at h
  split_ifs at h with hsrc hlen hdst hbegins hparent
  obtain rfl := Except.ok.inj h
  have hmovable : d.Movable src dst :=
    { ne_nil := fun hnil => hlen (Or.inl (by rw [hnil]; decide))
      dst_ne_nil := fun hnil => hlen (Or.inr (by rw [hnil]; decide))
      not_prefix := hbegins
      absent := not_not.mp hdst
      parent := hparent }
  exact ⟨hsrc, hmovable, FileSystem.look_move hmovable⟩

theorem createFile_ok {trunc : Bool} {l : Loc} {d d' : Disk} (h : createFile trunc l d = .ok d') :
    (∃ content, d.look l = some (.file content) ∧
      d'.look = Function.update d.look l (some (.file (if trunc then [] else content)))) ∨
    d.look l = none ∧ d'.look = Function.update d.look l (some (.file [])) := by
  unfold createFile at h
  split at h
  · next content hl =>
    obtain rfl := Except.ok.inj h
    refine Or.inl ⟨content, hl, ?_⟩
    cases trunc with
    | true => exact look_put_file hl []
    | false => exact (Function.update_eq_self_iff.mpr hl.symm).symm
  · cases h
  · next hl =>
    split_ifs at h with hlen hparent
    obtain rfl := Except.ok.inj h
    have hne : l ≠ [] := by
      rintro rfl
      exact hlen (by decide)
    have hchildren : d.children l = [] := FileSystem.children_eq_nil_iff.mpr fun n => d.none_below hl [n]
    exact Or.inr ⟨hl, FileSystem.look_put hne hparent (Or.inr hchildren)⟩

/-! ## Calls that change the disk -/

section Calls
variable (env : Env)

theorem unlessFails_cases {α : Type} (answer : Answer) (res : Except ErrorCode α) :
    answer.unlessFails res = res ∨ ∃ code, answer.unlessFails res = .error code := by
  cases answer with
  | full => exact Or.inl rfl
  | short n => exact Or.inl rfl
  | error code => exact Or.inr ⟨code, rfl⟩

theorem changing_cases (call : ℤ → Call) (op : Disk → Except ErrorCode Disk) (w : World) :
    ∃ ret disk, changing env call op w = .ok ret (w.did (call ret) disk) ∧
      (ret < 0 ∧ disk = w.disk ∨ ret = 0 ∧ op w.disk = .ok disk) := by
  refine ⟨_, _, rfl, ?_⟩
  rcases unlessFails_cases (env.answer w.tick) (op w.disk) with hres | ⟨code, hres⟩
  · rw [hres]
    cases hop : op w.disk with
    | ok disk => exact Or.inr ⟨rfl, rfl⟩
    | error code => exact Or.inl ⟨code.2.2, rfl⟩
  · rw [hres]
    exact Or.inl ⟨code.2.2, rfl⟩

theorem sceIoRemove_cases (path : CStr) (w : World) : ∃ ret disk,
    sceIoRemove env path w = .ok ret (w.did (.remove (locate path) ret) disk) ∧
      (ret < 0 ∧ disk = w.disk ∨ ret = 0 ∧ (∃ content, w.disk.look (locate path) = some (.file content)) ∧
        disk.look = Function.update w.disk.look (locate path) none) := by
  obtain ⟨ret, disk, hrun, hfails | ⟨hret, hop⟩⟩ := changing_cases env _ _ w
  · exact ⟨ret, disk, hrun, Or.inl hfails⟩
  · exact ⟨ret, disk, hrun, Or.inr ⟨hret, removeFile_ok hop⟩⟩

theorem sceIoRmdir_cases (path : CStr) (w : World) : ∃ ret disk,
    sceIoRmdir env path w = .ok ret (w.did (.rmdir (locate path) ret) disk) ∧
      (ret < 0 ∧ disk = w.disk ∨ ret = 0 ∧ w.disk.look (locate path) = some .dir ∧
        w.disk.children (locate path) = [] ∧
        disk.look = Function.update w.disk.look (locate path) none) := by
  obtain ⟨ret, disk, hrun, hfails | ⟨hret, hop⟩⟩ := changing_cases env _ _ w
  · exact ⟨ret, disk, hrun, Or.inl hfails⟩
  · exact ⟨ret, disk, hrun, Or.inr ⟨hret, removeDir_ok hop⟩⟩

theorem sceIoMkdir_cases (path : CStr) (w : World) : ∃ ret disk,
    sceIoMkdir env path w = .ok ret (w.did (.mkdir (locate path) ret) disk) ∧
      (ret < 0 ∧ disk = w.disk ∨ ret = 0 ∧ w.disk.look (locate path) = none ∧
        disk.look = Function.update w.disk.look (locate path) (some .dir)) := by
  obtain ⟨ret, disk, hrun, hfails | ⟨hret, hop⟩⟩ := changing_cases env _ _ w
  · exact ⟨ret, disk, hrun, Or.inl hfails⟩
  · exact ⟨ret, disk, hrun, Or.inr ⟨hret, makeDir_ok hop⟩⟩

theorem sceIoRename_cases (src dst : CStr) (w : World) : ∃ ret disk,
    sceIoRename env src dst w = .ok ret (w.did (.rename (locate src) (locate dst) ret) disk) ∧
      (ret < 0 ∧ disk = w.disk ∨ ret = 0 ∧ w.disk.look (locate src) ≠ none ∧
        w.disk.Movable (locate src) (locate dst) ∧
        disk.look = w.disk.look.move (locate src) (locate dst)) := by
  obtain ⟨ret, disk, hrun, hfails | ⟨hret, hop⟩⟩ := changing_cases env _ _ w
  · exact ⟨ret, disk, hrun, Or.inl hfails⟩
  · exact ⟨ret, disk, hrun, Or.inr ⟨hret, renameEntry_ok hop⟩⟩

/-! ## Calls that answer a value -/

theorem listing_ok {env : Env} {l : Loc} {d : Disk} {entries : List DirEntry}
    (h : listing env l d = .ok entries) : l ≠ [] ∧ d.look l = some .dir ∧ entries = env.dread l (entriesOf d l) := by
  unfold listing at h
  split_ifs at h with hl
  split at h
  · next hdir => exact ⟨hl, hdir, (Except.ok.inj h).symm⟩
  · cases h
  · cases h

theorem sceIoDopen_cases (path : CStr) (w : World) : ∃ res,
    sceIoDopen env path w = .ok res (w.did (.dopen (locate path) res) w.disk) ∧
      ∀ entries, res = .ok entries → locate path ≠ [] ∧ w.disk.look (locate path) = some .dir ∧
        entries = env.dread (locate path) (entriesOf w.disk (locate path)) := by
  refine ⟨_, rfl, fun entries hres => ?_⟩
  rcases unlessFails_cases (env.answer w.tick) (listing env (locate path) w.disk) with h | ⟨code, h⟩
  · rw [h] at hres
    exact listing_ok hres
  · rw [h] at hres
    cases hres

theorem statAt_ok {l : Loc} {d : Disk} {isDir : Bool} {size : ℕ} (h : statAt l d = .ok (isDir, size)) :
    l ≠ [] ∧ (isDir = true ∧ d.look l = some .dir ∨
      isDir = false ∧ ∃ content, d.look l = some (.file content) ∧ size = content.length) := by
  unfold statAt at h
  split_ifs at h with hl
  refine ⟨hl, ?_⟩
  split at h
  · next hdir =>
    obtain ⟨rfl, -⟩ := Prod.mk.inj (Except.ok.inj h)
    exact Or.inl ⟨rfl, hdir⟩
  · next content hfile =>
    obtain ⟨rfl, rfl⟩ := Prod.mk.inj (Except.ok.inj h)
    exact Or.inr ⟨rfl, content, hfile, rfl⟩
  · cases h

theorem sceIoGetstat_cases (path : CStr) (w : World) : ∃ res,
    sceIoGetstat env path w = .ok res { w with tick := w.tick + 1 } ∧
      ∀ isDir size, res = .ok (isDir, size) → locate path ≠ [] ∧
        (isDir = true ∧ w.disk.look (locate path) = some .dir ∨
          isDir = false ∧ ∃ content, w.disk.look (locate path) = some (.file content) ∧
            size = content.length) := by
  refine ⟨_, rfl, fun isDir size hres => ?_⟩
  rcases unlessFails_cases (env.answer w.tick) (statAt (locate path) w.disk) with h | ⟨code, h⟩
  · rw [h] at hres
    exact statAt_ok hres
  · rw [h] at hres
    cases hres

theorem sceIoOpenRead_cases (path : CStr) (w : World) : ∃ res,
    sceIoOpenRead env path w = .ok res { w with tick := w.tick + 1 } ∧
      ∀ fd, res = .ok fd → fd = locate path ∧ ∃ content, w.disk.look fd = some (.file content) := by
  refine ⟨_, rfl, fun fd hres => ?_⟩
  rcases unlessFails_cases (env.answer w.tick) (openFile (locate path) w.disk) with h | ⟨code, h⟩
  · rw [h, openFile] at hres
    split at hres
    · next content hfile =>
      obtain rfl := Except.ok.inj hres
      exact ⟨rfl, content, hfile⟩
    · cases hres
    · cases hres
  · rw [h] at hres
    cases hres

theorem sceIoOpenWrite_cases (trunc : Bool) (path : CStr) (w : World) : ∃ res disk,
    sceIoOpenWrite env trunc path w = .ok res (w.did (.create (locate path) res) disk) ∧
      ((∃ code, res = .error code) ∧ disk = w.disk ∨
        res = .ok (locate path) ∧ createFile trunc (locate path) w.disk = .ok disk) := by
  refine ⟨_, _, rfl, ?_⟩
  rcases unlessFails_cases (env.answer w.tick) (createFile trunc (locate path) w.disk) with h | ⟨code, h⟩
  · rw [h]
    cases hmade : createFile trunc (locate path) w.disk with
    | ok disk => exact Or.inr ⟨rfl, rfl⟩
    | error code => exact Or.inl ⟨⟨code, rfl⟩, rfl⟩
  · rw [h]
    exact Or.inl ⟨⟨code, rfl⟩, rfl⟩

theorem sceIoRead_cases (fd : Loc) (pos : ℕ) {size : ℕ} (hsize : 0 < size) (w : World) : ∃ res,
    sceIoRead env fd pos size w = .ok res (w.did (.read fd res) w.disk) ∧
      ∀ data, res = .ok data → data <+: (contentAt w.disk fd).drop pos ∧
        (data = [] → (contentAt w.disk fd).drop pos = []) := by
  have htake {rest : List Byte} {n : ℕ} (hn : 0 < n) (h : rest.take n = []) : rest = [] := by
    rcases List.take_eq_nil_iff.mp h with hzero | hnil
    · omega
    · exact hnil
  refine ⟨_, rfl, fun data hres => ?_⟩
  cases hanswer : env.answer w.tick with
  | full =>
    rw [hanswer] at hres
    obtain rfl := Except.ok.inj hres
    exact ⟨List.take_prefix _ _, htake hsize⟩
  | short n =>
    rw [hanswer] at hres
    obtain rfl := Except.ok.inj hres
    exact ⟨List.take_prefix _ _, htake (by omega)⟩
  | error code =>
    rw [hanswer] at hres
    cases hres

theorem sceIoWrite_cases {fd : Loc} (pos : ℕ) (data : List Byte) {w : World} {content : List Byte}
    (hfile : w.disk.look fd = some (.file content)) : ∃ res disk,
    sceIoWrite env fd pos data w = .ok res (w.did (.write fd data res) disk) ∧
      ((∃ code, res = .error code) ∧ disk = w.disk ∨ ∃ n, res = .ok n ∧ n ≤ data.length ∧
        disk.look = Function.update w.disk.look fd (some (.file (splice content pos (data.take n))))) := by
  have hcontent : contentAt w.disk fd = content := by rw [contentAt, hfile]
  refine ⟨_, _, rfl, ?_⟩
  cases env.answer w.tick with
  | full => exact Or.inr ⟨data.length, rfl, le_refl _, by rw [← hcontent]; exact look_put_file hfile _⟩
  | short n =>
    exact Or.inr ⟨min n data.length, rfl, min_le_right _ _, by rw [← hcontent]; exact look_put_file hfile _⟩
  | error code => exact Or.inl ⟨⟨code, rfl⟩, rfl⟩

theorem splice_end (content data : List Byte) : splice content content.length data = content ++ data := by
  rw [splice, List.take_length, List.drop_of_length_le (Nat.le_add_right _ _), List.append_nil]

theorem progress_cases (param : Option FileProcessParam) (amount : ℕ) (w : World) : ∃ cancelled w',
    progress env param amount w = .ok cancelled w' ∧ w'.disk = w.disk ∧ w'.tick = w.tick ∧
      (cancelled = false ∧ w'.trace = w.trace ∨
        w'.trace = w.trace ++ [⟨.cancel cancelled, w.disk, w.disk⟩]) := by
  cases param with
  | none => exact ⟨false, w, rfl, rfl, rfl, Or.inl ⟨rfl, rfl⟩⟩
  | some param =>
    obtain ⟨value, max, setProgress, handler⟩ := param
    cases handler with
    | false =>
      cases value <;> cases setProgress <;> exact ⟨false, _, rfl, rfl, rfl, Or.inl ⟨rfl, rfl⟩⟩
    | true => cases value <;> cases setProgress <;> exact ⟨_, _, rfl, rfl, rfl, Or.inr rfl⟩

end Calls
end VitaConnect.Files

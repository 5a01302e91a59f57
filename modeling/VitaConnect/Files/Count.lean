import VitaConnect.Files.Copy
import VitaConnect.Storage.Total

/-! # Counting a tree

The totals of a tree, and `getPathInfo`, which counts it when no call fails: `folders` and `files` are
counted in 32 bits and sizes in 64 bits.
-/
namespace VitaConnect.Files
open CString Program Storage
set_option autoImplicit false

/-! ## Totals -/

def isFolder : Entry (List Byte) → ℕ
  | .dir => 1
  | .file _ => 0

def isFile : Entry (List Byte) → ℕ
  | .dir => 0
  | .file _ => 1

def fileSize : Entry (List Byte) → ℕ
  | .dir => 0
  | .file content => content.length

def copyWeight (e : Entry (List Byte)) : ℕ := fileSize e + isFolder e * directorySize

theorem copyWeight_file (content : List Byte) : copyWeight (.file content) = content.length := by
  rw [copyWeight, isFolder, Nat.zero_mul, Nat.add_zero, fileSize]

theorem copyWeight_dir : copyWeight .dir = directorySize := by decide

theorem total_one (d : Disk) (p : Loc) : d.total (fun _ => 1) p = d.total isFolder p + d.total isFile p := by
  rw [← FileSystem.total_add]
  refine congrArg (d.total · p) (funext fun e => ?_)
  cases e <;> rfl

theorem total_copy (d : Disk) (p : Loc) :
    d.total copyWeight p = d.total fileSize p + d.total isFolder p * directorySize := by
  rw [← FileSystem.total_mul, ← FileSystem.total_add]
  rfl

/-! ## Calls that do not fail -/

/-- No call fails, a listing is complete, and nothing is cancelled. -/
structure Calm (env : Env) : Prop where
  answers : ∀ i code, env.answer i ≠ .error code
  listed : ∀ l entries, (env.dread l entries).Perm entries
  goesOn : ∀ i, env.cancel i = false

/-- The disk and the counters are as they were. -/
structure Still (w w' : World) : Prop where
  disk : w'.disk = w.disk
  info : w'.info = w.info
  value : w'.value = w.value
  shown : w'.shown = w.shown

theorem entriesOf_kind {d : Disk} {l : Loc} {entry : DirEntry} (h : entry ∈ entriesOf d l) :
    entry.isDir = true ∧ d.look (l ++ [entry.name]) = some .dir ∨
      entry.isDir = false ∧ ∃ content, d.look (l ++ [entry.name]) = some (.file content) ∧
        entry.size = content.length := by
  obtain ⟨name, hname, rfl⟩ := List.mem_map.mp h
  have hexists := FileSystem.mem_children.mp hname
  cases hlook : d.look (l ++ [name]) with
  | none => exact absurd hlook hexists
  | some e =>
    cases e with
    | dir => exact Or.inl ⟨rfl, hlook⟩
    | file content => exact Or.inr ⟨rfl, content, hlook, rfl⟩

section Calm
variable {env : Env} (hcalm : Calm env)

include hcalm

theorem Calm.unlessFails {α : Type} (i : ℕ) (res : Except ErrorCode α) :
    (env.answer i).unlessFails res = res := by
  cases hanswer : env.answer i with
  | full => rfl
  | short n => rfl
  | error code => exact absurd hanswer (hcalm.answers i code)

theorem Calm.dopen {path : CStr} {w : World} (hne : locate path ≠ [])
    (hdir : w.disk.look (locate path) = some .dir) : ∃ entries w',
    sceIoDopen env path w = .ok (.ok entries) w' ∧ Still w w' ∧
      entries.Perm (entriesOf w.disk (locate path)) := by
  refine ⟨env.dread (locate path) (entriesOf w.disk (locate path)),
    w.did (.dopen (locate path) (.ok (env.dread (locate path) (entriesOf w.disk (locate path))))) w.disk,
    ?_, ⟨rfl, rfl, rfl, rfl⟩, hcalm.listed (locate path) _⟩
  rw [sceIoDopen, hcalm.unlessFails, listing, if_neg hne, hdir]

theorem Calm.dopen_file {path : CStr} {content : List Byte} {w : World}
    (hfile : w.disk.look (locate path) = some (.file content)) : ∃ code w',
    sceIoDopen env path w = .ok (.error code) w' ∧ Still w w' := by
  refine ⟨enotdir, w.did (.dopen (locate path) (.error enotdir)) w.disk, ?_, ⟨rfl, rfl, rfl, rfl⟩⟩
  rw [sceIoDopen, hcalm.unlessFails, listing, if_neg (ne_nil_of_file hfile), hfile]

theorem Calm.changing {call : ℤ → Call} {op : Disk → Except ErrorCode Disk} {w : World} {disk : Disk}
    (h : op w.disk = .ok disk) : changing env call op w = .ok 0 (w.did (call 0) disk) := by
  unfold Files.changing
  rw [hcalm.unlessFails, h]
  rfl

theorem Calm.remove {path : CStr} {content : List Byte} {w : World}
    (hfile : w.disk.look (locate path) = some (.file content)) : ∃ disk,
    sceIoRemove env path w = .ok 0 (w.did (.remove (locate path) 0) disk) ∧
      disk.look = Function.update w.disk.look (locate path) none := by
  have hop : removeFile (locate path) w.disk = .ok (w.disk.erase (locate path)) := by rw [removeFile, hfile]
  exact ⟨_, hcalm.changing hop, (removeFile_ok hop).2⟩

theorem Calm.rmdir {path : CStr} {w : World} (hdir : w.disk.look (locate path) = some .dir)
    (hlength : 2 ≤ (locate path).length) (hempty : w.disk.children (locate path) = []) : ∃ disk,
    sceIoRmdir env path w = .ok 0 (w.did (.rmdir (locate path) 0) disk) ∧
      disk.look = Function.update w.disk.look (locate path) none := by
  have hop : removeDir (locate path) w.disk = .ok (w.disk.erase (locate path)) := by
    rw [removeDir, hdir]
    dsimp only
    rw [if_neg (by omega), if_pos hempty]
  exact ⟨_, hcalm.changing hop, (removeDir_ok hop).2.2⟩

theorem Calm.mkdir_root {path : CStr} (w : World) (hroot : locate path = []) :
    sceIoMkdir env path w = .ok einval.1 (w.did (.mkdir [] einval.1) w.disk) := by
  have hop : makeDir (locate path) w.disk = .error einval := by
    rw [makeDir, hroot]
    exact if_pos (by decide)
  unfold sceIoMkdir Files.changing
  rw [hcalm.unlessFails, hop, hroot]
  rfl

theorem Calm.rmdir_device {path : CStr} {w : World} (hdir : w.disk.look (locate path) = some .dir)
    (hlength : ¬ 2 ≤ (locate path).length) : ∃ w', sceIoRmdir env path w = .ok einval.1 w' := by
  have hop : removeDir (locate path) w.disk = .error einval := by
    rw [removeDir, hdir]
    dsimp only
    rw [if_pos (by omega)]
  refine ⟨w.did (.rmdir (locate path) einval.1) w.disk, ?_⟩
  unfold sceIoRmdir Files.changing
  rw [hcalm.unlessFails, hop]
  rfl

end Calm

theorem sum_listed {d : Disk} {l : Loc} {entries : List DirEntry} (h : entries.Perm (entriesOf d l))
    (g : Name → ℕ) : (entries.map fun entry => g entry.name).sum = ((d.children l).map g).sum := by
  have hperm := (h.map DirEntry.name).map g
  rw [map_name_entriesOf, List.map_map] at hperm
  exact hperm.sum_eq

/-! ## `getPathInfo` -/

def PathInfo.plus (info : PathInfo) (size folders files : ℕ) : PathInfo where
  size := info.size + UInt64.ofNat size
  folders := info.folders + UInt32.ofNat folders
  files := info.files + UInt32.ofNat files

theorem PathInfo.plus_plus (info : PathInfo) (s f n s' f' n' : ℕ) :
    (info.plus s f n).plus s' f' n' = info.plus (s + s') (f + f') (n + n') := by
  unfold PathInfo.plus
  dsimp only
  rw [UInt64.ofNat_add, UInt32.ofNat_add, UInt32.ofNat_add, UInt64.add_assoc, UInt32.add_assoc,
    UInt32.add_assoc]

theorem PathInfo.plus_zero (info : PathInfo) : info.plus 0 0 0 = info := by
  have hsize : UInt64.ofNat 0 = 0 := rfl
  have hcount : UInt32.ofNat 0 = 0 := rfl
  unfold PathInfo.plus
  rw [hsize, hcount, UInt64.add_zero, UInt32.add_zero, UInt32.add_zero]

def PathInfo.plusTotals (info : PathInfo) (d : Disk) (p : Loc) : PathInfo :=
  info.plus (d.total fileSize p) (d.total isFolder p) (d.total isFile p)

/-- All pointers are there. -/
def allPointers : InfoPointers := ⟨true, true, true⟩

theorem addFile_addSize (info : PathInfo) (size : ℕ) :
    (info.addSize allPointers size).addFile allPointers = info.plus size 0 1 := by
  have hcount : UInt32.ofNat 0 = 0 := rfl
  unfold PathInfo.plus
  rw [hcount, UInt32.add_zero]
  rfl

theorem addFolder_plus (info : PathInfo) (size folders files : ℕ) :
    (info.plus size folders files).addFolder allPointers = info.plus size (1 + folders) files := by
  unfold PathInfo.plus
  rw [Nat.add_comm, UInt32.ofNat_add, ← UInt32.add_assoc]
  rfl

/-- What the listed entries of the directory at `p` add up to. -/
def listedTotal (d : Disk) (p : Loc) (weight : Entry (List Byte) → ℕ) (entries : List DirEntry) : ℕ :=
  (entries.map fun entry => d.total weight (p ++ [entry.name])).sum

theorem listedTotal_concat (d : Disk) (p : Loc) (weight : Entry (List Byte) → ℕ) (done : List DirEntry)
    (entry : DirEntry) : listedTotal d p weight (done ++ [entry]) =
      listedTotal d p weight done + d.total weight (p ++ [entry.name]) := by
  rw [listedTotal, List.map_append, List.sum_append, List.map_singleton, List.sum_singleton, listedTotal]

theorem total_dir {d : Disk} {p : Loc} {entries : List DirEntry} (weight : Entry (List Byte) → ℕ)
    (hdir : d.look p = some .dir) (hlisted : entries.Perm (entriesOf d p)) :
    d.total weight p = weight .dir + listedTotal d p weight entries := by
  rw [FileSystem.total_entry weight hdir, listedTotal, sum_listed hlisted fun n => d.total weight (p ++ [n])]

/-- What `getPathInfo` counts at `p`. -/
def Counts (d : Disk) (p : Loc) (w : World) (ret : ℤ) (w' : World) : Prop :=
  ret = 1 ∧ w'.disk = d ∧ w'.info = w.info.plusTotals d p

/-- The entries done have been counted, from `w` on. -/
def CountedEach (w : World) (p : Loc) (done : List DirEntry) (u : World) : Prop :=
  u.disk = w.disk ∧ u.info = w.info.plus (listedTotal w.disk p fileSize done)
    (listedTotal w.disk p isFolder done) (listedTotal w.disk p isFile done)

/-- The rounds of `getPathInfo` over the listed entries. -/
theorem countRounds_ends {p : Loc} {entries : List DirEntry} {f : DirEntry → FileM ℤ} {w w' : World}
    (hstill : Still w w')
    (hround : ∀ entry ∈ entries, ∀ u, u.disk = w.disk →
      Ends (fun _ => False) (Counts w.disk (p ++ [entry.name]) u) (f entry u)) :
    Ends (fun _ => False) (fun ret u => ret = 1 ∧ CountedEach w p entries u) (untilRefused f entries w') := by
  have hrule : Triple (fun _ => False) (CountedEach w p []) (untilRefused f entries) fun ret u =>
      Continues (CountedEach w p entries) (fun _ _ => False) ret u ∧ (0 < ret → ret = 1) := by
    refine triple_untilRefused (P := CountedEach w p) ?_
    rintro done entry rest hentries u ⟨hdisk, hinfo⟩
    have hmem : entry ∈ entries := by
      rw [hentries]
      exact List.mem_append_right done List.mem_cons_self
    refine ends_mono (hround entry hmem u hdisk) ?_
    rintro ret u' ⟨rfl, hdisk', hinfo'⟩
    rw [continues_of_pos one_pos, CountedEach, listedTotal_concat, listedTotal_concat, listedTotal_concat]
    exact ⟨hdisk', by rw [hinfo', hinfo, PathInfo.plusTotals, PathInfo.plus_plus]⟩
  have hstart : CountedEach w p [] w' :=
    ⟨hstill.disk, by rw [hstill.info]; exact (PathInfo.plus_zero w.info).symm⟩
  refine ends_mono (hrule w' hstart) fun ret u ⟨hcontinues, hone⟩ => ?_
  by_cases hret : 0 < ret
  · exact ⟨hone hret, (continues_of_pos hret).mp hcontinues⟩
  · exact ((continues_of_not_pos hret).mp hcontinues).elim

theorem counts_file {d : Disk} {p : Loc} {content : List Byte} {w w' : World}
    (hfile : d.look p = some (.file content)) (hdisk : w'.disk = d) (hinfo : w'.info = w.info) :
    Counts d p w 1 { w' with info := (w'.info.addSize allPointers content.length).addFile allPointers } := by
  refine ⟨rfl, hdisk, ?_⟩
  show (w'.info.addSize allPointers content.length).addFile allPointers = _
  rw [addFile_addSize, hinfo, PathInfo.plusTotals, FileSystem.total_file _ hfile,
    FileSystem.total_file _ hfile, FileSystem.total_file _ hfile]
  rfl

section Count
variable {env : Env} {d : Disk}

/-- A round of `getPathInfo` counts one entry of the directory. -/
theorem countRound_ends {fuel : ℕ} {path : CStr} {entry : DirEntry} {u : World}
    (hmem : entry ∈ entriesOf d (locate path)) (hfits : FitsAs d (locate path) path) (hdisk : u.disk = d)
    (hrec : Ends (fun _ => False) (Counts d (locate path ++ [entry.name]) u)
      (getPathInfo env none allPointers fuel (joined path entry.name.1) u)) :
    Ends (fun _ => False) (Counts d (locate path ++ [entry.name]) u)
      ((if (none : Option (CStr → Bool)).any (· (newPath path entry.name.1)) then pure 1
        else if entry.isDir then getPathInfo env none allPointers fuel (newPath path entry.name.1)
        else do
          editInfo fun info => (info.addSize allPointers entry.size).addFile allPointers
          pure 1 : FileM ℤ) u) := by
  rw [hfits.newPath (mem_entriesOf hmem)]
  refine ends_ite (fun h => absurd h Bool.false_ne_true) fun _ => ?_
  rcases entriesOf_kind hmem with ⟨htrue, -⟩ | ⟨hfalse, content, hfile, hsize⟩
  · rw [htrue]
    exact hrec
  · rw [hfalse, hsize]
    exact counts_file hfile hdisk rfl

theorem getPathInfo_ends (hcalm : Calm env) (fuel : ℕ) {path : CStr} {p : Loc} {w : World}
    (hpath : locate path = p) (hne : p ≠ []) (hexists : w.disk.look p ≠ none) (hfits : FitsAs w.disk p path)
    (hfuel : maxPathLength ≤ path.length + fuel) (hpos : 0 < fuel) :
    Ends (fun _ => False) (Counts w.disk p w) (getPathInfo env none allPointers fuel path w) := by
  induction fuel generalizing path p w with
  | zero => exact absurd hpos (lt_irrefl 0)
  | succ fuel ih =>
    subst hpath
    obtain ⟨e, he⟩ := Option.ne_none_iff_exists'.mp hexists
    cases e with
    | file content =>
      obtain ⟨code, w', hopen, hstill⟩ := hcalm.dopen_file he
      refine ends_of_ok hopen (ends_ite (fun h => absurd h Bool.false_ne_true) fun _ => ?_)
      have hstat : sceIoGetstat env path w'
          = .ok (.ok (false, content.length)) { w' with tick := w'.tick + 1 } := by
        rw [sceIoGetstat, hcalm.unlessFails, statAt, if_neg hne, hstill.disk, he]
      exact ends_of_ok hstat (counts_file he hstill.disk hstill.info)
    | dir =>
      obtain ⟨entries, w', hopen, hstill, hlisted⟩ := hcalm.dopen hne he
      refine ends_of_ok hopen (ends_bind (countRounds_ends (p := locate path) hstill ?_) fun ret u hends => ?_)
      · intro entry hmem u hdisk
        have hmem' := hlisted.subset hmem
        obtain ⟨hfuel', hpos'⟩ := fuel_joined hfuel (hfits [entry.name] (mem_entriesOf hmem'))
        refine countRound_ends hmem' hfits hdisk ?_
        have hrec := ih (locate_joined hne entry.name)
          (List.append_ne_nil_of_right_ne_nil _ (List.cons_ne_nil _ _)) (w := u)
          (by rw [hdisk]; exact mem_entriesOf hmem') (by rw [hdisk]; exact hfits.joined entry.name) hfuel' hpos'
        rwa [hdisk] at hrec
      · obtain ⟨rfl, hdisk, hinfo⟩ := hends
        refine ends_ite (fun h => absurd h (by decide)) fun _ => ⟨rfl, hdisk, ?_⟩
        show u.info.addFolder allPointers = _
        rw [hinfo, addFolder_plus, PathInfo.plusTotals, total_dir fileSize he hlisted,
          total_dir isFolder he hlisted, total_dir isFile he hlisted]
        show w.info.plus _ _ _ = w.info.plus (0 + _) _ (0 + _)
        rw [Nat.zero_add, Nat.zero_add]
        rfl

end Count

end VitaConnect.Files

import VitaConnect.Licenses.Walk

/-! # Which files the walk calls its callback on

`license_file_callback` is called on the files `max_depth` directories below the root, in their order, and
on no other; the depth counter comes back.
-/
namespace VitaConnect.Licenses
open CString Rif Storage
set_option autoImplicit false

/-! ## Calls in order -/

/-- The directory and the file name that the names below `path` are called with. -/
def callOf (path : CStr) : List CStr → CStr × CStr
  | [] => (path, [])
  | [file] => (path, file)
  | subdir :: names => callOf (joinPath path subdir) names

/-- The regular files `d` directories below `path`. -/
def filesAt (d : ℕ) (path : CStr) (tree : Directory) : List (CStr × CStr) :=
  ((tree.leavesAt d).filter fun leaf => leaf.2 = .reg).map fun leaf => callOf path leaf.1

section Files
variable {path name : CStr} {entries rest : Directory} {d : ℕ}

theorem callOf_cons {names : List CStr} (h : names ≠ []) :
    callOf path (name :: names) = callOf (joinPath path name) names := by
  cases names with
  | nil => exact absurd rfl h
  | cons next names => rfl

theorem filesAt_done : filesAt d path .done = [] := by simp [filesAt, Listing.leavesAt]

theorem filesAt_zero_leaf (kind : LeafType) : filesAt 0 path (.leaf name kind rest)
    = (if kind = .reg then [(path, name)] else []) ++ filesAt 0 path rest := by
  cases kind <;> simp [filesAt, Listing.leavesAt, callOf]

theorem filesAt_zero_node : filesAt 0 path (.node name entries rest) = filesAt 0 path rest := rfl

theorem filesAt_succ_node : filesAt (d + 1) path (.node name entries rest)
    = filesAt d (joinPath path name) entries ++ filesAt (d + 1) path rest := by
  rw [filesAt, Listing.leavesAt, List.filter_append, List.map_append, ← filesAt, List.filter_map, List.map_map,
    filesAt]
  congr 1
  apply List.map_congr_left
  intro leaf hleaf
  have hmem := (Listing.mem_leavesAt_iff entries d leaf.1 leaf.2).mp (List.mem_filter.mp hleaf).1
  exact callOf_cons hmem.1.ne_nil

end Files

/-! ## The walk is the calls -/

section Walk
variable {Db Stmt : Type} (env : Environment Db Stmt) {s : Importing Db} {k : ℤ}

/-- `license_file_callback` on each of the files. -/
def callAll (files : List (CStr × CStr)) (s : Importing Db) : Importing Db :=
  files.foldl (fun s file => licenseFileCallback env file.1 file.2 s) s

theorem callAll_cons (file : CStr × CStr) (files : List (CStr × CStr)) :
    callAll env (file :: files) s = callAll env files (licenseFileCallback env file.1 file.2 s) := rfl

theorem callAll_append (files files' : List (CStr × CStr)) :
    callAll env (files ++ files') s = callAll env files' (callAll env files s) := by
  rw [callAll, List.foldl_append, callAll, callAll]

@[simp] theorem withDepth_curDepth : (s.withDepth k).data.curDepth = k := rfl

@[simp] theorem withDepth_maxDepth : (s.withDepth k).data.maxDepth = s.data.maxDepth := rfl

@[simp] theorem withDepth_withDepth (k' : ℤ) : (s.withDepth k).withDepth k' = s.withDepth k' := rfl

theorem withDepth_self (h : s.data.curDepth = k) : s.withDepth k = s := by
  subst h
  rfl

/-- A call of `license_file_callback` is noted. -/
def Importing.visit (s : Importing Db) (dir file : CStr) : Importing Db :=
  { s with calls := s.calls ++ [(dir, file)] }

/-- The three branches of `license_file_callback`. -/
theorem licenseFileCallback_other {dir file : CStr} (hrif : ¬ isRif file = true) :
    licenseFileCallback env dir file s = s.visit dir file := if_pos hrif

theorem licenseFileCallback_copies {dir file : CStr} (hrif : isRif file = true)
    (hpass : s.data.copyPass = true) : licenseFileCallback env dir file s
      = copyLicense env (joinPath dir file) (s.visit dir file) := by
  unfold licenseFileCallback
  rw [if_neg (not_not.mpr hrif)]
  exact if_pos hpass

theorem licenseFileCallback_counts {dir file : CStr} (hrif : isRif file = true)
    (hpass : ¬ s.data.copyPass = true) : licenseFileCallback env dir file s
      = { s.visit dir file with data := { s.data with count := s.data.count + 1 } } := by
  unfold licenseFileCallback
  rw [if_neg (not_not.mpr hrif)]
  exact if_neg hpass

def Importing.withDepths (s : Importing Db) (cur max : ℤ) : Importing Db :=
  { s with data := { s.data with curDepth := cur, maxDepth := max } }

theorem copyLicense_withDepths (cur max : ℤ) (path : CStr) :
    copyLicense env path (s.withDepths cur max) = (copyLicense env path s).withDepths cur max := by
  unfold copyLicense
  by_cases hopen : 0 < env.sceIoOpen path
  · rw [if_pos hopen, if_pos hopen]
    cases env.sceIoRead path with
    | error code => rfl
    | ok read =>
      by_cases hread : read.1.length = rifSize
      · simp only [hread, if_true]
        rfl
      · simp only [hread, if_false]
        rfl
  · rw [if_neg hopen, if_neg hopen]

/-- The depths are nothing to the callback of the files. -/
theorem licenseFileCallback_withDepths (cur max : ℤ) (dir file : CStr) :
    licenseFileCallback env dir file (s.withDepths cur max)
      = (licenseFileCallback env dir file s).withDepths cur max := by
  by_cases hrif : isRif file = true
  · by_cases hpass : s.data.copyPass = true
    · rw [licenseFileCallback_copies env hrif hpass, ← copyLicense_withDepths]
      exact licenseFileCallback_copies env (s := s.withDepths cur max) hrif hpass
    · rw [licenseFileCallback_counts env hrif hpass]
      exact licenseFileCallback_counts env (s := s.withDepths cur max) hrif hpass
  · rw [licenseFileCallback_other env hrif, licenseFileCallback_other env hrif]
    rfl

theorem callAll_withDepths (cur max : ℤ) (files : List (CStr × CStr)) :
    callAll env files (s.withDepths cur max) = (callAll env files s).withDepths cur max := by
  induction files generalizing s with
  | nil => rfl
  | cons file files ih => rw [callAll_cons, callAll_cons, licenseFileCallback_withDepths, ih]

/-- What the copying of a file leaves alone. -/
structure Frame (s t : Importing Db) : Prop where
  copyPass : t.data.copyPass = s.data.copyPass
  count : t.data.count = s.data.count
  curDepth : t.data.curDepth = s.data.curDepth
  maxDepth : t.data.maxDepth = s.data.maxDepth
  calls : t.calls = s.calls

theorem copyLicense_frame (path : CStr) : Frame s (copyLicense env path s) := by
  unfold copyLicense
  split
  · split
    · exact ⟨rfl, rfl, rfl, rfl, rfl⟩
    · dsimp only
      split
      · exact ⟨rfl, rfl, rfl, rfl, rfl⟩
      · exact ⟨rfl, rfl, rfl, rfl, rfl⟩
  · exact ⟨rfl, rfl, rfl, rfl, rfl⟩

/-- The number of licence files among the files. -/
def rifs (files : List (CStr × CStr)) : ℕ := files.countP fun file => isRif file.2

/-- What calls of `license_file_callback` on the files do to the fields of the walk. -/
structure Visited (files : List (CStr × CStr)) (s t : Importing Db) : Prop where
  copyPass : t.data.copyPass = s.data.copyPass
  count : t.data.count = if s.data.copyPass then s.data.count else s.data.count + rifs files
  curDepth : t.data.curDepth = s.data.curDepth
  maxDepth : t.data.maxDepth = s.data.maxDepth
  calls : t.calls = s.calls ++ files

theorem rifs_cons (file : CStr × CStr) (files : List (CStr × CStr)) :
    rifs (file :: files) = rifs files + if isRif file.2 then 1 else 0 := List.countP_cons

theorem licenseFileCallback_visited (dir file : CStr) :
    Visited [(dir, file)] s (licenseFileCallback env dir file s) := by
  by_cases hrif : isRif file = true
  · by_cases hpass : s.data.copyPass = true
    · obtain ⟨hcopyPass, hcount, hcurDepth, hmaxDepth, hcalls⟩ :=
        copyLicense_frame env (s := s.visit dir file) (joinPath dir file)
      rw [licenseFileCallback_copies env hrif hpass]
      exact ⟨hcopyPass, by rw [hcount, if_pos hpass]; rfl, hcurDepth, hmaxDepth, hcalls⟩
    · rw [licenseFileCallback_counts env hrif hpass]
      exact ⟨rfl, by rw [if_neg hpass, rifs_cons, if_pos hrif]; rfl, rfl, rfl, rfl⟩
  · rw [licenseFileCallback_other env hrif]
    refine ⟨rfl, ?_, rfl, rfl, rfl⟩
    rw [rifs_cons, if_neg hrif]
    simp [rifs, Importing.visit]

theorem callAll_visited (files : List (CStr × CStr)) : Visited files s (callAll env files s) := by
  induction files generalizing s with
  | nil => exact ⟨rfl, by simp [callAll, rifs], rfl, rfl, (List.append_nil _).symm⟩
  | cons file files ih =>
    have hfile := licenseFileCallback_visited env (s := s) file.1 file.2
    have hfiles := ih (s := licenseFileCallback env file.1 file.2 s)
    rw [callAll_cons]
    refine ⟨hfiles.copyPass.trans hfile.copyPass, ?_, hfiles.curDepth.trans hfile.curDepth,
      hfiles.maxDepth.trans hfile.maxDepth, ?_⟩
    · have hone : rifs [(file.1, file.2)] = if isRif file.2 then 1 else 0 := by simp [rifs]
      rw [hfiles.count, hfile.copyPass, hfile.count, hone, rifs_cons]
      split
      · rfl
      · push_cast
        ring
    · rw [hfiles.calls, hfile.calls, List.append_assoc, List.singleton_append]

theorem callAll_withDepth (files : List (CStr × CStr)) :
    callAll env files (s.withDepth k) = (callAll env files s).withDepth k := by
  have hmax := (callAll_visited env (s := s) files).maxDepth
  calc callAll env files (s.withDepth k) = (callAll env files s).withDepths k s.data.maxDepth :=
        callAll_withDepths env k s.data.maxDepth files
    _ = (callAll env files s).withDepth k := by rw [← hmax]; rfl

theorem parseFiles_eq (path : CStr) (entries : Directory) :
    parseFiles env path entries s = callAll env (filesAt 0 path entries) s := by
  unfold parseFiles
  induction entries generalizing s with
  | done => rfl
  | leaf name kind rest ih =>
    rw [parseDirWithCallback, ih, filesAt_zero_leaf, callAll_append]
    cases kind <;> simp [LeafType.fileType, callAll]
  | node name entries rest _ ih => rw [parseDirWithCallback, if_neg (by simp), ih, filesAt_zero_node]

/-- The counter is back behind a directory, whose files have been visited. -/
theorem parseDirs_eq_callAll (tree : Directory) (path : CStr) (d : ℕ)
    (hdepth : s.data.maxDepth = s.data.curDepth + d + 1) :
    parseDirs env tree path s = callAll env (filesAt (d + 1) path tree) s := by
  induction tree generalizing path d s with
  | done => rw [filesAt_done]; rfl
  | leaf name kind rest ih => exact ih path d hdepth
  | node name entries rest ihEntries ihRest =>
    set files := filesAt d (joinPath path name) entries with hfiles
    have hbelow : descend env (parseDirs env entries) path name entries s = callAll env files s := by
      have hvisited : (if (s.withDepth (s.data.curDepth + 1)).data.curDepth
            = (s.withDepth (s.data.curDepth + 1)).data.maxDepth
          then parseFiles env (joinPath path name) entries (s.withDepth (s.data.curDepth + 1))
          else parseDirs env entries (joinPath path name) (s.withDepth (s.data.curDepth + 1)))
            = (callAll env files s).withDepth (s.data.curDepth + 1) := by
        rw [withDepth_curDepth, withDepth_maxDepth, ← callAll_withDepth]
        cases d with
        | zero => rw [if_pos (by omega), parseFiles_eq]
        | succ d =>
          rw [if_neg (by omega), ihEntries (joinPath path name) d]
          rw [withDepth_curDepth, withDepth_maxDepth]
          omega
      have hback : (callAll env files s).data.curDepth = s.data.curDepth := (callAll_visited env files).curDepth
      unfold descend
      dsimp only
      rw [hvisited, withDepth_curDepth, withDepth_withDepth, Int.add_sub_cancel, withDepth_self hback]
    have hdepth' : (callAll env files s).data.maxDepth = (callAll env files s).data.curDepth + d + 1 := by
      rw [(callAll_visited env files).curDepth, (callAll_visited env files).maxDepth, hdepth]
    rw [parseDirs, hbelow, ihRest path d hdepth', filesAt_succ_node, callAll_append]

end Walk

/-! ## The files by their names -/

/-- The path of the entry that the names lead to. -/
def pathName (root : CStr) (names : List CStr) : CStr := root ++ names.flatMap fun name => bytes "/" ++ name

/-- `license_file_callback(data, dir, file)` for the file at a path. -/
def called (root : CStr) (path : List CStr) : CStr × CStr := (pathName root path.dropLast, path.getLastD [])

/-- Every path of the tree is shorter than `MAX_PATH_LENGTH`. -/
def Fits (root : CStr) (tree : Directory) : Prop :=
  ∀ path kind, tree.Has path kind → (pathName root path).length < maxPathLength

theorem pathName_cons (root name : CStr) (names : List CStr) :
    pathName root (name :: names) = pathName (root ++ bytes "/" ++ name) names := by
  simp only [pathName, List.flatMap_cons, List.append_assoc]

theorem callOf_eq {root : CStr} {path : List CStr} (hne : path ≠ [])
    (hfits : (pathName root path).length < maxPathLength) : callOf root path = called root path := by
  induction path generalizing root with
  | nil => exact absurd rfl hne
  | cons name names ih =>
    cases names with
    | nil => simp [callOf, called, pathName]
    | cons next names =>
      rw [pathName_cons] at hfits
      have hjoin : joinPath root name = root ++ bytes "/" ++ name := by
        refine snprintf_of_fits (lt_of_le_of_lt ?_ hfits)
        simp only [pathName, List.length_append]
        omega
      rw [callOf_cons (by simp), hjoin, ih (by simp) hfits, called, called, List.dropLast_cons_cons,
        pathName_cons]
      rfl

/-- The names that lead to the regular files `d` directories below the root. -/
def regularAt (tree : Directory) (d : ℕ) : List (List CStr) :=
  ((tree.leavesAt d).filter fun leaf => leaf.2 = .reg).map Prod.fst

theorem mem_regularAt_iff (tree : Directory) (d : ℕ) (path : List CStr) :
    path ∈ regularAt tree d ↔ tree.Has path .reg ∧ path.length = d + 1 := by
  simp only [regularAt, List.mem_map, List.mem_filter, decide_eq_true_eq, Prod.exists, exists_and_right,
    exists_eq_right, ← Listing.mem_leavesAt_iff]

theorem regularAt_nodup {tree : Directory} (h : tree.Distinct) (d : ℕ) : (regularAt tree d).Nodup :=
  (h.nodup d).sublist (List.filter_sublist.map Prod.fst)

theorem filesAt_eq {root : CStr} {tree : Directory} (hfits : Fits root tree) (d : ℕ) :
    filesAt d root tree = (regularAt tree d).map (called root) := by
  rw [filesAt, regularAt, List.map_map]
  apply List.map_congr_left
  intro leaf hleaf
  have hmem := (Listing.mem_leavesAt_iff tree d leaf.1 leaf.2).mp (List.mem_filter.mp hleaf).1
  exact callOf_eq hmem.1.ne_nil (hfits _ _ hmem.1)

/-- **The walk.** Whatever the data, `license_file_callback` is called once on each regular file whose
directory is `max_depth` directories below the root, on no other, and the depth counter comes back. -/
theorem licenseWalk_visits (root : CStr) (tree : Directory) (d : ℕ) (hd : 1 ≤ d) (hdistinct : tree.Distinct)
    (hfits : Fits root tree) :
    ∃ files : List (List CStr), files.Nodup ∧
      (∀ path, path ∈ files ↔ tree.Has path .reg ∧ path.length = d + 1) ∧
      ∀ {Db Stmt : Type} (env : Environment Db Stmt) (s : Importing Db), s.data.curDepth = 0 →
        s.data.maxDepth = d →
        (parseDirWithCallback .dir root (licenseDirCallback env) tree s).data.curDepth = 0 ∧
          (parseDirWithCallback .dir root (licenseDirCallback env) tree s).calls
            = s.calls ++ files.map (called root) := by
  refine ⟨regularAt tree d, regularAt_nodup hdistinct d, mem_regularAt_iff tree d, fun env s hcur hmax => ?_⟩
  obtain ⟨e, rfl⟩ := Nat.exists_eq_add_of_le' hd
  have hvisited := callAll_visited env (s := s) (filesAt (e + 1) root tree)
  rw [← parseDirs_eq, parseDirs_eq_callAll env tree root e (by rw [hcur, hmax]; push_cast; ring),
    hvisited.curDepth, hvisited.calls, filesAt_eq hfits]
  exact ⟨hcur, rfl⟩

/-- Two titles; the first has its licence, a note, and a directory with another file. -/
def titleTree : Directory :=
  .node (bytes "PCSB00001") (.leaf (bytes "a.rif") .reg (.leaf (bytes "note") .reg
      (.node (bytes "old") (.leaf (bytes "b.rif") .reg .done) .done)))
    (.node (bytes "PCSB00002") .done .done)

/-- Nothing can be opened, and nothing has been done. -/
def closedFiles : Environment (List (CStr × List Byte)) TableStmt where
  sql := tableSqlite
  sceIoOpen _ := -1
  sceIoRead _ := .error ⟨-1, by decide⟩
  behind := []

def countingStart : Importing (List (CStr × List Byte)) where
  data := { copyPass := false, count := 0, copied := 0, curDepth := 0, maxDepth := 1, rif := [] }
  db := []
  calls := []
  inserted := []

theorem titleTree_fits : Fits (bytes "ux0:license/app") titleTree := by
  intro path kind h
  simp only [titleTree, Listing.Has, or_false] at h
  obtain ⟨below, rfl, ⟨rfl, -⟩ | ⟨rfl, -⟩ | ⟨_, rfl, rfl, -⟩⟩ | ⟨_, _, h⟩ := h
  · decide
  · decide
  · decide
  · exact h.elim

theorem licenseWalk_visits_titles : ∃ files : List (List CStr), files.Nodup ∧
    [bytes "PCSB00001", bytes "a.rif"] ∈ files ∧
    (parseDirWithCallback .dir (bytes "ux0:license/app") (licenseDirCallback closedFiles) titleTree
      countingStart).calls = files.map (called (bytes "ux0:license/app")) := by
  obtain ⟨files, hnodup, hmem, hrun⟩ := licenseWalk_visits (bytes "ux0:license/app") titleTree 1 le_rfl
    (by simp [titleTree, Listing.Distinct, Listing.names]; decide) titleTree_fits
  refine ⟨files, hnodup, (hmem _).mpr ⟨?_, rfl⟩, (hrun closedFiles countingStart rfl rfl).2⟩
  simp [titleTree, Listing.Has]

end VitaConnect.Licenses

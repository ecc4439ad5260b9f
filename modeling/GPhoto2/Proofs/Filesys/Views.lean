import GPhoto2.Proofs.Filesys.Names
import GPhoto2.Proofs.Filesys.Total

/-!
# `GPhoto2.Proofs.Filesys.Views`: the four views of the files of a folder

`gp_filesystem_list_files`, `gp_filesystem_count`, `gp_filesystem_name` and
`gp_filesystem_number` walk the same chain of file entries. Only the first one asks the driver
for the names of a folder that is marked dirty, and the last one if the name is not found.
`count` and `name` answer from the chain as it is.

`reachable_viewsAgree_iff` says when the four agree: where the listing is loaded, where the
driver has none, and where the chain happens to have the names the driver would answer with.
-/

set_option autoImplicit false

namespace GPhoto2

open Lib
open Lib.Comp (bind_run_ok get_bind_run)

variable {σ : Type}

/-! ### Names along a chain -/

section
variable {w w' : World σ} {p : FolderAddr} {fo : CameraFilesystemFolder}

theorem map_some_filterMap {α β : Type} {name : α → Option β} {chain : List α}
    (h : ∀ a ∈ chain, name a ≠ none) : (chain.filterMap name).map some = chain.map name := by
  induction chain with
  | nil => rfl
  | cons a chain ih =>
    obtain ⟨n, hn⟩ := Option.ne_none_iff_exists'.mp (h a List.mem_cons_self)
    rw [List.filterMap_cons_some hn, List.map_cons, List.map_cons, hn,
      ih fun b hb => h b (List.mem_cons_of_mem a hb)]

theorem map_some_fileNames (hwf : w.tree.Wf) (hp : w.fs.folders p = some fo) :
    (w.fs.fileNames fo.files).map some = fo.files.map w.fs.fileName := by
  refine map_some_filterMap fun a ha => ?_
  rw [← tree_files hp] at ha
  exact hwf.file_alive ha

theorem length_fileNames (hwf : w.tree.Wf) (hp : w.fs.folders p = some fo) :
    (w.fs.fileNames fo.files).length = fo.files.length := by
  have h := congrArg List.length (map_some_fileNames hwf hp)
  rwa [List.length_map, List.length_map] at h

theorem fileNames_getElem? (hwf : w.tree.Wf) (hp : w.fs.folders p = some fo) {i : Nat}
    {name : CString} (h : (w.fs.fileNames fo.files)[i]? = some name) :
    ∃ a f, fo.files[i]? = some a ∧ w.fs.files a = some f ∧ f.name = name := by
  have hmap := congrArg (fun names => names[i]?) (map_some_fileNames hwf hp)
  simp only [List.getElem?_map, h, Option.map_some] at hmap
  cases ha : fo.files[i]? with
  | none =>
    rw [ha] at hmap
    cases hmap
  | some a =>
    simp only [ha, Option.map_some, Option.some.injEq] at hmap
    obtain ⟨f, hf, hname⟩ := Option.map_eq_some_iff.mp hmap.symm
    exact ⟨a, f, rfl, hf, hname⟩

/-! ### A listing comes to an end -/

theorem internalAppend_ends {name : CString} (hp : w.fs.folders p = some fo)
    (hnew : name ∉ w.fs.fileNames fo.files) :
    internalAppend p name w = some (.ok (), w.snocFile p fo (.new name none)) := by
  have hnone : w.tree.fileIn p name = none := by
    refine NameTree.fileIn_eq_none.mpr fun a ha hname => hnew ?_
    rw [tree_files hp] at ha
    exact List.mem_filterMap.mpr ⟨a, ha, hname⟩
  unfold internalAppend
  rw [bind_run_ok (derefFolder_run hp), get_bind_run, findFile_eq_fileIn hp, hnone]
  exact addFile_eq_some.mpr ⟨fo, hp, rfl, rfl⟩

theorem internalAppends_ends {names : List CString} (hwf : w.tree.Wf)
    (hp : w.fs.folders p = some fo) (hnodup : names.Nodup)
    (hnew : ∀ name ∈ names, name ∉ w.fs.fileNames fo.files) :
    ∃ w', (names.forM (internalAppend p) : Fs σ Unit) w = some (.ok (), w') := by
  induction names generalizing w fo with
  | nil => exact ⟨w, rfl⟩
  | cons name names ih =>
    obtain ⟨hname, hnodup⟩ := List.nodup_cons.mp hnodup
    have hfirst := hnew name List.mem_cons_self
    have happend := internalAppend_ends hp hfirst
    have hstep : TreeStep w (w.snocFile p fo (.new name none)) := by
      obtain ⟨fo', hfo', ⟨-, he, -⟩ | ⟨hnone, -, -⟩⟩ := internalAppend_eq_some happend
      · cases he
      · exact .newFile w p fo name hp hnone
    have hp' : (w.snocFile p fo (.new name none)).fs.folders p =
        some { fo with files := fo.files ++ [w.brk] } := by simp [World.snocFile]
    obtain ⟨w', h⟩ := ih (hstep.stable hwf).1 hp' hnodup fun n hn => by
      rw [fileNames_snocFile hwf hp, List.mem_append, List.mem_singleton]
      rintro (hold | rfl)
      · exact hnew n (List.mem_cons_of_mem _ hn) hold
      · exact hname hn
    refine ⟨w', ?_⟩
    show (internalAppend p name >>= fun _ => names.forM (internalAppend p)) w = _
    rw [bind_run_ok happend]
    exact h

variable (funcs : CameraFilesystemFuncs σ)

theorem listFilesClean_ends (hp : w.fs.folders p = some fo) :
    ∃ names w', listFilesClean p w = some (.ok names, w') := by
  have hp' : (w.setFolder p (some { fo with filesDirty := false })).fs.folders p =
      some { fo with filesDirty := false } := by simp
  unfold listFilesClean
  rw [bind_run_ok (modifyFolder_run hp _), bind_run_ok (derefFolder_run hp'),
    get_bind_run]
  exact ⟨_, _, rfl⟩

/-- Where the driver answers with different names, the listing succeeds. -/
theorem listFilesFound_ends {path : CString} {names : List CString}
    {fileList : CString → σ → Except Int (List CString) × σ} (hw : w.Sound)
    (hp : w.fs.folders p = some fo) (hdirty : fo.filesDirty = true)
    (hfunc : funcs.fileListFunc = some fileList) (hanswer : (fileList path w.env).1 = .ok names)
    (hnodup : names.Nodup) :
    ∃ listed w', listFilesFound funcs path p w = some (.ok listed, w') := by
  obtain ⟨w₁, h₁, -⟩ := deleteAllFiles_ends hw hp
  obtain ⟨fo', hfo', -, hsteps₁, hp₁, -⟩ := deleteAllFiles_run hw.wf h₁
  rw [hp, Option.some.injEq] at hfo'
  subst hfo'
  have henv₁ : w₁.env = w.env := (keepsEnv_deleteAllFiles p _ _ _ trivial h₁).2
  unfold listFilesFound
  rw [bind_run_ok (derefFolder_run hp)]
  simp only [hdirty, hfunc]
  rw [bind_run_ok h₁, bind_run_ok (modifyFolder_run hp₁ _), callEnv_bind_run,
    trace_bind_run, World.setFolder_env, henv₁, hanswer]
  -- The folder is empty and clean, and the driver has answered.
  generalize hw₂ : ({ (w₁.setFolder p _) with env := _, log := _ } : World σ) = w₂
  have hp₂ : w₂.fs.folders p = some { fo with files := [], filesDirty := false } := by
    rw [← hw₂]
    simp
  have hwf₂ : w₂.tree.Wf := by
    have hclean := (TreeStep.filesClean w₁ p _ hp₁).stable (hsteps₁.stable hw.wf).1
    rw [← hw₂]
    exact hclean.1
  obtain ⟨w₃, h₃⟩ := internalAppends_ends hwf₂ hp₂ hnodup fun _ _ hmem => by cases hmem
  obtain ⟨-, -, ⟨files, hp₃, -⟩, -⟩ := internalAppends_run hwf₂ hp₂ h₃
  obtain ⟨listed, w', h⟩ := listFilesClean_ends hp₃
  refine ⟨listed, w', ?_⟩
  show ((names.forM (internalAppend p)) >>= fun _ => listFilesClean p) w₂ = _
  rw [bind_run_ok h₃, h]

/-! ### The views -/

/-- What `gp_filesystem_count`, `gp_filesystem_name` and `gp_filesystem_number` return in a
world where the files of the folder are `names`. -/
structure World.ViewsAgree (w : World σ) (folder : CString) (context : GPContext)
    (names : List CString) : Prop where
  count : ∃ w', gpFilesystemCount funcs folder context w = some (.ok names.length, w')
  name : ∀ (i : Nat) (name : CString), names[i]? = some name →
    ∃ w', gpFilesystemName funcs folder i context w = some (.ok name, w')
  beyond : ∀ i : Int, i < 0 ∨ names.length ≤ i →
    ∃ e w', gpFilesystemName funcs folder i context w = some (.error e, w')
  number : ∀ (i : Nat) (name : CString), names[i]? = some name →
    ∃ w', gpFilesystemNumber funcs folder name context w = some (.ok i, w')

/-- Where the lookup finds the folder, its listing is loaded, or the driver has no listing, or
the driver would answer with the names that are cached already. -/
def World.ListingLoaded (w : World σ) (folder : CString) (context : GPContext) : Prop :=
  ∀ f w₁ fo, withFolder funcs folder context (fun f => pure f) w = some (.ok f, w₁) →
    w₁.fs.folders f = some fo → fo.filesDirty = true →
    ∀ fileList, funcs.fileListFunc = some fileList →
    ∀ names, (fileList folder w₁.env).1 = .ok names → names.Nodup →
      names = w₁.fs.fileNames fo.files

variable {context : GPContext}

/-- What the three functions do with the folder that was found: they look at its chain. -/
theorem views_of_found {folder : CString} {w₁ : World σ}
    {f : FolderAddr} (hwf : w₁.tree.Wf) (hf : w₁.fs.folders f = some fo)
    (hfound : ∀ {β : Type} (k : FolderAddr → Fs σ β),
      withFolder funcs folder context k w = k f w₁) :
    w.ViewsAgree funcs folder context (w₁.fs.fileNames fo.files) where
  count := by
    refine ⟨w₁, ?_⟩
    show withFolder funcs folder context (fun f => do
      let fo ← derefFolder f
      pure fo.files.length) w = _
    rw [hfound, bind_run_ok (derefFolder_run hf), length_fileNames hwf hf]
    rfl
  name i name hi := by
    obtain ⟨a, file, ha, hfile, rfl⟩ := fileNames_getElem? hwf hf hi
    refine ⟨w₁, ?_⟩
    show withFolder funcs folder context (nameFound i) w = _
    rw [hfound, nameFound, bind_run_ok (derefFolder_run hf), if_neg (by omega),
      Int.toNat_natCast, ha]
    show (derefFile a >>= fun file => pure file.name) w₁ = _
    rw [bind_run_ok (derefFile_run hfile)]
    rfl
  beyond i hi := by
    refine ⟨gpErrorFileNotFound, w₁, ?_⟩
    show withFolder funcs folder context (nameFound i) w = _
    have hnone : (if i < 0 then none else fo.files[i.toNat]?) = none := by
      by_cases hneg : i < 0
      · rw [if_pos hneg]
      · rw [if_neg hneg, List.getElem?_eq_none_iff, ← length_fileNames hwf hf]
        omega
    rw [hfound, nameFound, bind_run_ok (derefFolder_run hf), hnone]
    rfl
  number i name hi := by
    refine ⟨w₁, ?_⟩
    show withFolder funcs folder context (numberFound funcs folder name context _) w = _
    have hidx : (w₁.fs.fileNames fo.files).idxOf? name = some i := by
      obtain ⟨hlt, hname⟩ := List.getElem?_eq_some_iff.mp hi
      refine List.idxOf?_eq_some_iff.mpr ⟨hlt, hname, fun j hj hj' => ?_⟩
      have hij := (nodup_fileNames hwf hf).getElem_inj_iff.mp (hj'.trans hname.symm)
      omega
    rw [hfound, numberFound, bind_run_ok (derefFolder_run hf), get_bind_run, hidx]
    rfl

/-- The other three functions agree with every list `gp_filesystem_list_files` returns. -/
def World.AgreesWithList (w : World σ) (folder : CString) (context : GPContext) : Prop :=
  ∀ names w', gpFilesystemListFiles funcs folder context w = some (.ok names, w') →
    w.ViewsAgree funcs folder context names

/-- Where the listing is loaded, the list is made of the names that are cached. -/
theorem agreesWithList_of_loaded {folder : CString} (hwf : w.tree.Wf)
    (hloaded : w.ListingLoaded funcs folder context) : w.AgreesWithList funcs folder context := by
  intro names w' hlist
  obtain ⟨w₁, heffect, ⟨e, he, -⟩ | ⟨f, fo, -, hf, hlist, hfound⟩⟩ :=
    withFolder_cases (k := listFilesFound funcs folder) funcs hwf hlist
  · cases he
  have hwf₁ := heffect.wf hwf
  have hnames : names = w₁.fs.fileNames fo.files := by
    rcases listFilesFound_cases funcs hwf₁ hf hlist with ⟨-, hr, -⟩ |
        ⟨fileList, hfunc, hdirty, hsteps, -, files, hfiles, -, ⟨e, he⟩ | ⟨hr, hanswer⟩⟩
    · exact Except.ok.inj hr
    · cases he
    · -- The driver was asked: it answered with the names that were there.
      have hnodup := nodup_fileNames (TreeSteps.stable hsteps hwf₁).1 hfiles
      rw [Except.ok.inj hr]
      exact hloaded f w₁ fo (hfound _) hf hdirty fileList hfunc _ hanswer hnodup
  rw [hnames]
  exact views_of_found funcs hwf₁ hf hfound

/-- Where the views agree, the listing is loaded: a driver with other names would be asked for
them by `gp_filesystem_list_files` alone. -/
theorem loaded_of_agreesWithList {folder : CString} (hw : w.Sound)
    (hagree : w.AgreesWithList funcs folder context) : w.ListingLoaded funcs folder context := by
  intro f w₁ fo hpure hf hdirty fileList hfunc names hanswer hnodup
  obtain ⟨w₁', heffect, ⟨e, he, -⟩ | ⟨f', fo', -, -, hk, hfound⟩⟩ :=
    withFolder_cases funcs hw.wf hpure
  · cases he
  cases hk
  have hw₁ : w₁.Sound := heffect.sound hw
  obtain ⟨listed, w', hlisted⟩ :=
    listFilesFound_ends funcs hw₁ hf hdirty hfunc hanswer hnodup
  have hviews := hagree listed w' ((hfound (listFilesFound funcs folder)).trans hlisted)
  have hcached := views_of_found funcs hw₁.wf hf hfound
  -- The list has the names of the driver.
  have hlist : listed = names := by
    rcases listFilesFound_cases funcs hw₁.wf hf hlisted with ⟨hclean, -⟩ |
        ⟨_, hfunc', -, -, -, files, -, -, ⟨e, he⟩ | ⟨hr, hanswer'⟩⟩
    · rcases hclean with hclean | hnone
      · rw [hdirty] at hclean
        cases hclean
      · rw [hfunc] at hnone
        cases hnone
    · cases he
    · rw [hfunc, Option.some.injEq] at hfunc'
      subst hfunc'
      rw [hanswer] at hanswer'
      rw [Except.ok.inj hr, Except.ok.inj hanswer']
  subst hlist
  -- Both lists have one length, and one name at each place.
  have hlength : listed.length = (w₁.fs.fileNames fo.files).length := by
    obtain ⟨_, hcount⟩ := hviews.count
    obtain ⟨_, hcount'⟩ := hcached.count
    have h := hcount.symm.trans hcount'
    simp only [Option.some.injEq, Prod.mk.injEq, Except.ok.injEq] at h
    exact h.1
  refine List.ext_getElem hlength fun i hi hi' => ?_
  obtain ⟨_, hname⟩ := hviews.name i _ (List.getElem?_eq_getElem hi)
  obtain ⟨_, hname'⟩ := hcached.name i _ (List.getElem?_eq_getElem hi')
  have h := hname.symm.trans hname'
  simp only [Option.some.injEq, Prod.mk.injEq, Except.ok.injEq] at h
  exact h.1

/-- In every world of a run the views of a folder agree if and only if its listing is loaded. A
world in which they would not agree has to be sound for its list to be returned. -/
theorem reachable_viewsAgree_iff (h : Reachable funcs w) (folder : CString)
    (context : GPContext) :
    (w.ListingLoaded funcs folder context → w.AgreesWithList funcs folder context) ∧
    (w.Sound → w.AgreesWithList funcs folder context → w.ListingLoaded funcs folder context) :=
  ⟨agreesWithList_of_loaded funcs (h.wf funcs), loaded_of_agreesWithList funcs⟩

end

/-- A driver with one file in every folder. -/
def oneFileFuncs : CameraFilesystemFuncs Unit :=
  { CameraFilesystemFuncs.none with fileListFunc := some fun _ s => (.ok [['a']], s) }

/-- After a listing the views of the root folder agree. -/
theorem reachable_viewsAgree_iff_listed : ∃ w,
    (runOps oneFileFuncs [.listFiles ['/'] .null] (World.new ())).map Prod.snd = some w ∧
    w.AgreesWithList oneFileFuncs ['/'] .null := by
  obtain ⟨rs, w, hrun, hclean⟩ : ∃ rs w,
      runOps oneFileFuncs [.listFiles ['/'] .null] (World.new ()) = some (rs, w) ∧
      (w.fs.folders rootfolder).map (·.filesDirty) = some false := ⟨_, _, rfl, rfl⟩
  refine ⟨w, by rw [hrun]; rfl, (reachable_viewsAgree_iff oneFileFuncs
    ⟨_, _, rs, World.new_isNew (), hrun⟩ ['/'] .null).1 ?_⟩
  intro f w₁ fo hfound hf hdirty
  have hroot : withFolder oneFileFuncs ['/'] .null (fun f => pure f) w =
      some (.ok rootfolder, w) := rfl
  rw [hroot] at hfound
  cases hfound
  rw [hf, Option.map_some, hdirty] at hclean
  cases hclean

/-- A folder that has not been listed yet: the list has a file, and the count is zero. -/
theorem unlisted_views_disagree :
    ¬ ∀ w, Reachable oneFileFuncs w → ∀ folder context,
      w.AgreesWithList oneFileFuncs folder context := by
  intro h
  have hreach : Reachable oneFileFuncs (World.new ()) := ⟨_, [], [], World.new_isNew (), rfl⟩
  obtain ⟨w', hlist⟩ : ∃ w',
      gpFilesystemListFiles oneFileFuncs ['/'] .null (World.new ()) = some (.ok [['a']], w') :=
    ⟨_, rfl⟩
  obtain ⟨_, hcount⟩ := (h _ hreach ['/'] .null _ w' hlist).count
  have hzero : gpFilesystemCount oneFileFuncs ['/'] .null (World.new ()) =
      some (.ok 0, World.new ()) := rfl
  rw [hzero] at hcount
  cases hcount

/-! ## What a lookup leaves of the file entries

A lookup that lists a dirty folder anew drops the entries of the folder, with their cached
contents and whatever their place on the LRU list. `Dropped` says what is left: the other entries
keep their contents, new entries have none, and the list has lost the entries that are gone.

The end of `gp_filesystem_set_file_noop` looks the file up once more, for its modification time
(`keepsDropped_setFileMtime`).
-/

open Lib Relation
open CameraFilesystem (lruNext lruPrev)

/-- The cached content of one type of the entry at an address. -/
def World.slotAt (w : World σ) (a : FileAddr) (type : CameraFileType) : Option CameraFileRef :=
  (w.fs.files a).bind (·.slot type)

/-- Is there an entry at the address? -/
def World.alive (w : World σ) (a : FileAddr) : Bool := (w.fs.files a).isSome

/-- Does the entry hold data that counts? -/
def World.holdsData (w : World σ) (a : FileAddr) : Bool :=
  (w.fs.files a).any fun f => f.normal.isSome || f.raw.isSome || f.audio.isSome

/-- Some entries are gone. The others kept their contents, new ones have none, and the LRU list
has lost the entries that are gone. -/
structure Dropped (w w' : World σ) : Prop where
  brk_le : w.brk ≤ w'.brk
  gone : ∀ a, a < w.brk → w.fs.files a = none → w'.fs.files a = none
  slot : ∀ a type, a < w.brk → w'.fs.files a ≠ none → w'.slotAt a type = w.slotAt a type
  fresh : ∀ a type, w.brk ≤ a → w.slotAt a type = none → w'.slotAt a type = none
  keep : w'.picturesToKeep = w.picturesToKeep
  chain : ∀ l, w.fs.LruChain l → (∀ a ∈ l, a < w.brk) → w'.fs.LruChain (l.filter w'.alive)
  tree : w.tree.Wf → w'.tree.Wf ∧ w.tree.Stable w'.tree

section
variable {w w' w'' : World σ} {a : FileAddr}

theorem slotAt_of_dead (h : w.fs.files a = none) (type : CameraFileType) :
    w.slotAt a type = none := by
  rw [World.slotAt, h, Option.bind_none]

theorem alive_iff : w.alive a = true ↔ w.fs.files a ≠ none := by
  rw [World.alive, Option.isSome_iff_ne_none]

theorem filter_alive {l : List FileAddr} (h : w.fs.LruChain l) : l.filter w.alive = l := by
  refine List.filter_eq_self.mpr fun a ha => ?_
  obtain ⟨f, hf⟩ := h.isSome ha
  rw [World.alive, hf, Option.isSome_some]

theorem Dropped.alive (h : Dropped w w') (ha : a < w.brk)
    (halive : w'.alive a = true) : w.alive a = true := by
  rw [alive_iff] at halive ⊢
  intro hnone
  exact halive (h.gone a ha hnone)

theorem Dropped.refl (w : World σ) : Dropped w w where
  brk_le := Nat.le_refl _
  gone _ _ h := h
  slot _ _ _ _ := rfl
  fresh _ _ _ h := h
  keep := rfl
  chain l h _ := by rwa [filter_alive h]
  tree hwf := ⟨hwf, .refl _⟩

theorem Dropped.trans (h : Dropped w w') (h' : Dropped w' w'') : Dropped w w'' where
  brk_le := Nat.le_trans h.brk_le h'.brk_le
  gone a ha hnone := h'.gone a (Nat.lt_of_lt_of_le ha h.brk_le) (h.gone a ha hnone)
  slot a type ha halive := by
    have ha' := Nat.lt_of_lt_of_le ha h.brk_le
    have halive' : w'.fs.files a ≠ none := fun hnone => halive (h'.gone a ha' hnone)
    rw [h'.slot a type ha' halive, h.slot a type ha halive']
  fresh a type ha hnone := by
    have hnone' := h.fresh a type ha hnone
    by_cases ha' : a < w'.brk
    · by_cases hdead : w''.fs.files a = none
      · exact slotAt_of_dead hdead type
      · rw [h'.slot a type ha' hdead, hnone']
    · exact h'.fresh a type (Nat.le_of_not_lt ha') hnone'
  keep := h'.keep.trans h.keep
  chain l hl hlt := by
    have hchain := h'.chain _ (h.chain l hl hlt) fun a ha =>
      Nat.lt_of_lt_of_le (hlt a (List.mem_of_mem_filter ha)) h.brk_le
    rw [List.filter_filter] at hchain
    have hsame : l.filter (fun a => w''.alive a && w'.alive a) = l.filter w''.alive := by
      refine List.filter_congr fun a ha => ?_
      by_cases halive : w''.alive a = true
      · rw [halive, h'.alive (Nat.lt_of_lt_of_le (hlt a ha) h.brk_le) halive]
        rfl
      · simp [halive]
    rwa [← hsame]
  tree hwf := by
    obtain ⟨hwf', hstable⟩ := h.tree hwf
    obtain ⟨hwf'', hstable'⟩ := h'.tree hwf'
    exact ⟨hwf'', hstable.trans hwf hstable'⟩

instance : IsPreorder (World σ) Dropped where
  refl := Dropped.refl
  trans _ _ _ := Dropped.trans

theorem Dropped.of_files (hfiles : w'.fs.files = w.fs.files)
    (hfirst : w'.fs.lruFirst = w.fs.lruFirst) (hlast : w'.fs.lruLast = w.fs.lruLast)
    (hkeep : w'.picturesToKeep = w.picturesToKeep)
    (htree : w'.tree.Wf ∧ w.tree.Stable w'.tree) : Dropped w w' where
  brk_le := htree.2.brk_le
  gone a _ hnone := by rwa [hfiles]
  slot a type _ _ := by rw [World.slotAt, hfiles, World.slotAt]
  fresh a type _ hnone := by rwa [World.slotAt, hfiles]
  keep := hkeep
  chain l hl _ := by
    have halive : w'.alive = w.alive := by
      funext a
      rw [World.alive, hfiles, World.alive]
    rw [halive, filter_alive hl]
    refine hl.congr (fun a => ?_) (fun a => ?_) hfirst hlast
    · rw [lruNext, hfiles, lruNext]
    · rw [lruPrev, hfiles, lruPrev]
  tree _ := htree

section
variable (h : (w'.fs.files a).map (·.unlinked) = (w.fs.files a).map (·.unlinked))
include h

theorem slotAt_of_unlinked (type : CameraFileType) : w'.slotAt a type = w.slotAt a type := by
  have hslot := congrArg (fun o => o.bind fun f : CameraFilesystemFile => f.slot type) h
  simp only [Option.bind_map, Function.comp_def, CameraFilesystemFile.slot_unlinked] at hslot
  exact hslot

theorem files_eq_none_of_unlinked :
    w'.fs.files a = none ↔ w.fs.files a = none := by
  rw [← Option.map_eq_none_iff (f := (·.unlinked)), h, Option.map_eq_none_iff]

end

theorem Dropped.of_dropFile {p : FolderAddr} {file : FileAddr} {r : Except Int Unit}
    (htree : w'.tree.Wf ∧ w.tree.Stable w'.tree)
    (h : dropFile p file w = some (r, w')) : Dropped w w' := by
  obtain ⟨f, w₁, fo, r₁, hf, hfo, -, h₁, hw'⟩ := dropFile_eq_some h
  have hframe := LruFrame.of_dropFile h₁
  have hdead : w'.fs.files file = none := by
    rw [hw']
    simp
  have hother : ∀ a, a ≠ file →
      (w'.fs.files a).map (·.unlinked) = (w.fs.files a).map (·.unlinked) := by
    intro a ha
    rw [hw']
    simp only [World.setFile_fs_files, Function.update_of_ne ha]
    exact hframe.files a
  have hbrk : w'.brk = w.brk := by
    rw [hw']
    exact hframe.brk
  refine ⟨Nat.le_of_eq hbrk.symm, fun a _ hnone => ?_, fun a type _ halive => ?_,
    fun a type _ hnone => ?_, ?_, fun l hl _ => ?_, fun _ => htree⟩
  · by_cases ha : a = file
    · rw [ha, hdead]
    · exact (files_eq_none_of_unlinked (hother a ha)).mpr hnone
  · refine slotAt_of_unlinked (hother a ?_) type
    rintro rfl
    exact halive hdead
  · by_cases ha : a = file
    · exact slotAt_of_dead (by rw [ha, hdead]) type
    · rw [slotAt_of_unlinked (hother a ha), hnone]
  · rw [hw']
    exact hframe.picturesToKeep
  · -- The list without the entry is the list of those that are left.
    have hleft : l.filter w'.alive = l.erase file := by
      rw [hl.nodup.erase_eq_filter]
      refine List.filter_congr fun a ha => ?_
      by_cases haf : a = file
      · subst haf
        simp [World.alive, hdead]
      · have halive : w'.alive a = true := by
          rw [alive_iff, Ne, files_eq_none_of_unlinked (hother a haf)]
          exact Option.ne_none_iff_exists'.mpr (hl.isSome ha)
        simp [halive, haf]
    rw [hleft]
    exact (dropFile_lruChain hl h).1

theorem LookupStep.dropped (h : LookupStep w w') (hwf : w.tree.Wf) : Dropped w w' := by
  have htree := h.stable hwf
  cases h with
  | env s => exact .of_files rfl rfl rfl rfl htree
  | folderListFunc path answer => exact .of_files rfl rfl rfl rfl htree
  | foldersClean p fo hp => exact .of_files rfl rfl rfl rfl htree
  | dropFile _ p a ha hdrop => exact .of_dropFile htree hdrop
  | dropFolder p c fo hp hc hfolders hfiles => exact .of_files rfl rfl rfl rfl htree
  | relist _ p path names hlog hempty h =>
    rcases appendFolders_alive hwf h with rfl | ⟨fo, hp⟩
    · cases h
      exact .refl w
    · obtain ⟨-, -, ⟨_, _, rfl⟩, -⟩ := appendFolders_run hwf hp h
      exact .of_files rfl rfl rfl rfl htree

theorem Dropped.of_snocFile (hwf : w.tree.Wf) {p : FolderAddr} {fo : CameraFilesystemFolder}
    {name : CString} (htree : (w.snocFile p fo (.new name none)).tree.Wf ∧
      w.tree.Stable (w.snocFile p fo (.new name none)).tree) :
    Dropped w (w.snocFile p fo (.new name none)) := by
  have hother : ∀ a, a ≠ w.brk →
      (w.snocFile p fo (.new name none)).fs.files a = w.fs.files a := by
    intro a ha
    simp [World.snocFile, ha]
  have hfresh : ∀ type, (w.snocFile p fo (.new name none)).slotAt w.brk type = none := by
    intro type
    cases type <;> simp [World.slotAt, World.snocFile, CameraFilesystemFile.new,
      CameraFilesystemFile.slot]
  refine ⟨Nat.le_succ _, fun a ha hnone => ?_, fun a type ha _ => ?_, fun a type _ hnone => ?_,
    rfl, fun l hl hlt => ?_, fun _ => htree⟩
  · rw [hother a (Nat.ne_of_lt ha), hnone]
  · rw [World.slotAt, hother a (Nat.ne_of_lt ha), World.slotAt]
  · by_cases ha : a = w.brk
    · rw [ha, hfresh]
    · rwa [World.slotAt, hother a ha]
  · have hleft : l.filter (w.snocFile p fo (.new name none)).alive = l := by
      refine List.filter_eq_self.mpr fun a ha => ?_
      rw [alive_iff, hother a (Nat.ne_of_lt (hlt a ha))]
      exact Option.ne_none_iff_exists'.mpr (hl.isSome ha)
    rw [hleft]
    exact lruChain_snocFile hl hwf p fo name

theorem TreeStep.dropped (h : TreeStep w w') (hwf : w.tree.Wf) : Dropped w w' := by
  have htree := h.stable hwf
  cases h with
  | lookup h => exact h.dropped hwf
  | fileListFunc path answer => exact .of_files rfl rfl rfl rfl htree
  | filesClean p fo hp => exact .of_files rfl rfl rfl rfl htree
  | newFile p fo name hp hnone => exact .of_snocFile hwf htree

theorem TreeSteps.dropped (h : TreeSteps w w') (hwf : w.tree.Wf) : Dropped w w' := by
  induction h with
  | refl => exact .refl w
  | tail hsteps hstep ih => exact ih.trans (hstep.dropped (TreeSteps.stable hsteps hwf).1)

/-! ### The end of a store -/

/-- The file information is written, and entries are dropped. -/
abbrev KeepsDropped {α : Type} (m : Fs σ α) : Prop := Comp.Keeps (fun w => w.tree.Wf) Dropped m

theorem keepsDropped_of_tree {α : Type} {m : Fs σ α}
    (h : ∀ w r w', w.tree.Wf → m w = some (r, w') → TreeSteps w w') : KeepsDropped m := by
  intro w r w' hwf hm
  have hsteps := h w r w' hwf hm
  exact ⟨(TreeSteps.stable hsteps hwf).1, hsteps.dropped hwf⟩

theorem keepsDropped_modifyInfo (a : FileAddr)
    {g : CameraFilesystemFile → CameraFilesystemFile}
    (hg : ∀ f, ∃ info dirty, g f = { f with info := info, infoDirty := dirty }) :
    KeepsDropped (modifyFile a g : Fs σ Unit) := by
  intro w r w' hwf h
  obtain ⟨f, hf, -, rfl⟩ := modifyFile_eq_some.mp h
  obtain ⟨info, dirty, hgf⟩ := hg f
  have hslot : ∀ b type, (w.setFile a (some (g f))).slotAt b type = w.slotAt b type := by
    intro b type
    by_cases hb : b = a
    · subst hb
      simp only [World.slotAt, World.setFile_fs_files, Function.update_self, hf, hgf]
      cases type <;> rfl
    · simp [World.slotAt, hb]
  have hnone : ∀ b, (w.setFile a (some (g f))).fs.files b = none ↔ w.fs.files b = none := by
    intro b
    by_cases hb : b = a
    · subst hb
      simp [hf]
    · simp [hb]
  have htree := tree_setFile_of_name hf (g f) (by rw [hgf])
  refine ⟨?_, ⟨Nat.le_refl _, fun b _ h => (hnone b).mpr h, fun b type _ _ => hslot b type,
    fun b type _ h => by rw [hslot, h], rfl, fun l hl _ => ?_, fun hwf => ?_⟩⟩
  · show (w.setFile a (some (g f))).tree.Wf
    rwa [htree]
  · have halive : (w.setFile a (some (g f))).alive = w.alive := by
      funext b
      rw [Bool.eq_iff_iff, alive_iff, alive_iff, Ne, hnone]
    rw [halive, filter_alive hl]
    refine hl.congr (fun b => ?_) (fun b => ?_) rfl rfl
    · by_cases hb : b = a
      · subst hb
        simp [lruNext, hf, hgf]
      · simp [lruNext, hb]
    · by_cases hb : b = a
      · subst hb
        simp [lruPrev, hf, hgf]
      · simp [lruPrev, hb]
  · rw [htree]
    exact ⟨hwf, .refl _⟩

theorem keepsDropped_modifyCameraFile (r : CameraFileRef) (g : CameraFile → CameraFile) :
    KeepsDropped (modifyCameraFile r g : Fs σ Unit) :=
  .modify fun _ hwf => ⟨hwf, .of_files rfl rfl rfl rfl ⟨hwf, .refl _⟩⟩

variable (funcs : CameraFilesystemFuncs σ) (folder filename : CString) (context : GPContext)

theorem keepsDropped_lookupFolderFile :
    KeepsDropped (lookupFolderFile funcs folder filename context) :=
  keepsDropped_of_tree fun _ _ _ hwf h => (lookupFolderFile_run funcs hwf h).1

theorem keepsDropped_checks {α : Type} {m : Fs σ α} (hm : KeepsDropped m)
    (context : GPContext) (path : CString) :
    KeepsDropped (do checkCancel funcs context; checkAbsolute path; m) := by
  intro w r w' hwf h
  obtain ⟨w₀, ⟨s, rfl⟩, ⟨rfl, -⟩ | h⟩ := checks_bind_eq_some funcs h
  · exact ⟨hwf, .of_files rfl rfl rfl rfl ⟨hwf, .refl _⟩⟩
  · have hstart : Dropped w { w with env := s } := .of_files rfl rfl rfl rfl ⟨hwf, .refl _⟩
    obtain ⟨hwf', hdropped⟩ := hm { w with env := s } r w' hwf h
    exact ⟨hwf', hstart.trans hdropped⟩

theorem keepsDropped_derefFile (a : FileAddr) :
    KeepsDropped (derefFile a : Fs σ CameraFilesystemFile) := by
  intro w r w' hwf h
  obtain ⟨_, -, -, rfl⟩ := derefFile_eq_some.mp h
  exact ⟨hwf, .refl w'⟩

theorem keepsDropped_getInfo :
    KeepsDropped (gpFilesystemGetInfo funcs folder filename context) := by
  refine keepsDropped_checks funcs ?_ _ _
  cases funcs.getInfoFunc with
  | none => exact .throw _
  | some getInfo =>
    refine (keepsDropped_lookupFolderFile funcs folder filename context).bind
      fun (_, file) => ?_
    refine (keepsDropped_derefFile file).bind fun f => ?_
    have hend : KeepsDropped (do
        let f ← derefFile file
        pure f.info : Fs σ CameraFileInfo) :=
      (keepsDropped_derefFile file).bind fun _ => .pure _
    have hcall : ∀ g : σ → (Except Int Unit × CameraFileInfo) × σ,
        KeepsDropped (callEnv g : Fs σ _) := by
      intro g w r w' hwf h
      cases h
      exact ⟨hwf, .of_files rfl rfl rfl rfl ⟨hwf, .refl _⟩⟩
    refine .ite (fun _ => ?_) fun _ => hend
    refine (hcall _).bind fun (answer, info) => ?_
    refine (keepsDropped_modifyInfo file fun f => ⟨info, f.infoDirty, rfl⟩).bind fun _ =>
      (Comp.Keeps.ofExcept _).bind fun _ => ?_
    exact (keepsDropped_modifyInfo file fun f => ⟨f.info, false, rfl⟩).bind fun _ => hend

theorem keepsDropped_setFileMtime (file : CameraFileRef) :
    KeepsDropped (setFileMtime funcs folder filename file) := by
  refine Comp.Keeps.get.bind fun w =>
    .ite (fun _ => ?_) fun _ => keepsDropped_modifyCameraFile file _
  refine (keepsDropped_getInfo funcs folder filename .null).attempt.bind fun r => ?_
  cases r with
  | error e => exact .pure _
  | ok info =>
    exact .ite (fun _ => keepsDropped_modifyCameraFile file _) fun _ =>
      .pure _

end

end GPhoto2

import GPhoto2.Proofs.Filesys.LruSize
import GPhoto2.Proofs.Filesys.Names

/-!
# `GPhoto2.Proofs.Filesys.CacheCoherent`: the cache answers with what was stored last

`lastStored` reads off the trace what was stored last for a folder, a file name and a type.
The invariant is that every cached content is what was stored last for its place and type
(`World.Coherent`). It is lost when `gp_filesystem_put_file` puts content of another type
into the normal slot, when `gp_filesystem_reset` leaves cached content in the root folder,
when two entries share a name, and when a cached object is filled on behalf of a caller.
`reachable_cacheCoherent` is the statement for runs without these events.
-/

set_option autoImplicit false

namespace GPhoto2

open Lib Relation
open List (append_cons append_nil mem_cons_self)
open NameTree (at_of_walk fileIn_eq_none fileIn_eq_some locate_eq_ok)

variable {σ : Type}

/-- What is stored for a place and a type after one more event. -/
def Event.storedAfter (path : List CString) (name : CString) (type : CameraFileType)
    (stored : Option (List UInt8)) : Event → Option (List UInt8)
  | .setFileNoop folder filename type' data | .putFile folder filename type' data =>
    if components folder = path ∧ filename = name ∧ type' = type then some data else stored
  | .deletedFile folder filename =>
    if components folder = path ∧ filename = name then none else stored
  | .deletedAll folder => if components folder = path then none else stored
  | .resetDone => none
  | _ => stored

/-- What was stored last for a place and a type, and not deleted since. -/
def lastStored (log : List Event) (path : List CString) (name : CString)
    (type : CameraFileType) : Option (List UInt8) :=
  log.foldl (Event.storedAfter path name type) none

/-- Every answer from the cache is what was stored last. -/
def CacheCoherent (log : List Event) : Prop :=
  ∀ before folder filename type data,
    before ++ [.lruUsed folder filename type data] <+: log →
    lastStored before (components folder) filename type = some data

/-- The step keeps the cache coherent: an upload is of the normal type, a reset finds no
cached content in the root folder, no cached object is filled, and names are new. -/
def Event.keepsContent : Event → Bool
  | .putFile _ _ type _ => decide (type = .normal)
  | .resetCall cached => !cached
  | .getFile _ cached => !cached
  | e => e.namesNew

/-- A cached content of a file that hangs in the tree. -/
def World.Caches (w : World σ) (path : List CString) (name : CString) (type : CameraFileType)
    (r : CameraFileRef) : Prop :=
  ∃ a f, w.tree.FileAt path name a ∧ w.fs.files a = some f ∧ f.slot type = some r

/-- Every cached content is what was stored last, and so was every answer so far. -/
structure World.Coherent (w : World σ) : Prop where
  stored : ∀ path name type r, w.Caches path name type r →
    lastStored w.log path name type = some (w.cameraFile r).data
  answers : CacheCoherent w.log

/-- The invariant of a run: the cache is coherent, and each place holds one file. -/
structure World.CoherentPlaces (w : World σ) : Prop where
  distinct : w.tree.Distinct
  coherent : w.Coherent

/-- An event that neither stores, deletes nor answers anything. -/
def Event.silent : Event → Bool
  | .setFileNoop _ _ _ _ | .putFile _ _ _ _ | .deletedFile _ _ | .deletedAll _ | .resetDone
  | .lruUsed _ _ _ _ => false
  | _ => true

/-! ### The trace -/

section
variable {log es : List Event} {path : List CString} {name : CString} {type : CameraFileType}

theorem lastStored_concat (log : List Event) (e : Event) :
    lastStored (log ++ [e]) path name type =
      e.storedAfter path name type (lastStored log path name type) := by
  simp [lastStored]

theorem Event.silent.storedAfter {e : Event} (h : e.silent) (stored : Option (List UInt8)) :
    e.storedAfter path name type stored = stored := by
  cases e <;> first | rfl | cases h

theorem lastStored_append (hsilent : ∀ e ∈ es, e.silent) :
    lastStored (log ++ es) path name type = lastStored log path name type := by
  induction es generalizing log with
  | nil => rw [append_nil]
  | cons e es ih =>
    rw [append_cons, ih fun e he => hsilent e (List.mem_cons_of_mem _ he),
      lastStored_concat, Event.silent.storedAfter (hsilent e mem_cons_self)]

theorem CacheCoherent.concat {e : Event} (h : CacheCoherent log)
    (he : ∀ folder filename type data, e = .lruUsed folder filename type data →
      lastStored log (components folder) filename type = some data) :
    CacheCoherent (log ++ [e]) := by
  intro before folder filename type data hpre
  rcases List.prefix_concat_iff.mp hpre with heq | hpre
  · obtain ⟨hbefore, hlast⟩ := List.append_inj' heq rfl
    rw [hbefore]
    exact he _ _ _ _ (List.singleton_inj.mp hlast).symm
  · exact h before folder filename type data hpre

theorem CacheCoherent.append (h : CacheCoherent log) (hsilent : ∀ e ∈ es, e.silent) :
    CacheCoherent (log ++ es) := by
  induction es generalizing log with
  | nil => rwa [append_nil]
  | cons e es ih =>
    rw [append_cons]
    refine ih (h.concat ?_) fun e he => hsilent e (List.mem_cons_of_mem _ he)
    rintro folder filename type data rfl
    cases hsilent _ mem_cons_self

theorem Event.ofListing.silent {e : Event} (h : e.ofListing) : e.silent := by
  cases e <;> first | rfl | cases h

theorem Event.keepsContent.namesNew {e : Event} (h : e.keepsContent) : e.namesNew := by
  cases e <;> first | rfl | exact h

end

/-! ### Steps that store nothing -/

section
variable {w w' : World σ}

theorem World.Coherent.quiet (h : w.Coherent) {es : List Event} (hlog : w'.log = w.log ++ es)
    (hsilent : ∀ e ∈ es, e.silent)
    (hold : ∀ path name type r, w'.Caches path name type r → w.Caches path name type r ∧
      (w'.cameraFile r).data = (w.cameraFile r).data) : w'.Coherent := by
  constructor
  · intro path name type r hr
    obtain ⟨hr, hdata⟩ := hold path name type r hr
    rw [hlog, lastStored_append hsilent, hdata]
    exact h.stored path name type r hr
  · rw [hlog]
    exact h.answers.append hsilent

variable {path : List CString} {name : CString} {type : CameraFileType}

/-- Contents that are there after a step of the cache maintenance were there before. -/
theorem CacheFrame.caches (h : CacheFrame w w')
    {r : CameraFileRef} (hr : w'.Caches path name type r) :
    w.Caches path name type r ∧ (w'.cameraFile r).data = (w.cameraFile r).data := by
  obtain ⟨a, f', hat, hf', hslot⟩ := hr
  obtain ⟨f, hf, hfewer⟩ := h.file a f' hf'
  exact ⟨⟨a, f, h.tree ▸ hat, hf, hfewer.slot type r hslot⟩, by rw [h.cameraFile]⟩

theorem LookupStep.fileAt (h : LookupStep w w') (hwf : w.tree.Wf)
    {a : FileAddr} (ha : w'.tree.FileAt path name a) :
    w.tree.FileAt path name a := by
  rcases h.tree_cases hwf with ht | ⟨p, b, hb, ht⟩ | ⟨p, c, hc, hfolders, hfiles, ht⟩ |
      ⟨p, _, names, -, hempty, hp, ht⟩ <;> rw [ht] at ha
  · exact ha
  · exact (hwf.fileAt_eraseFile hb ha).1
  · exact hwf.fileAt_eraseFolder hc ha
  · exact hwf.fileAt_consFolders hp ha

theorem LookupStep.caches (h : LookupStep w w') (hwf : w.tree.Wf)
    {r : CameraFileRef}
    (hr : w'.Caches path name type r) : w.Caches path name type r := by
  obtain ⟨a, f', hat, hf', hslot⟩ := hr
  obtain ⟨f, hf, heq⟩ := h.file hwf hf'
  refine ⟨a, f, h.fileAt hwf hat, hf, ?_⟩
  rw [← f.slot_unlinked, ← heq, f'.slot_unlinked, hslot]

theorem caches_snocFile (hwf : w.tree.Wf) {p : FolderAddr} {fo : CameraFilesystemFolder}
    (hp : w.fs.folders p = some fo) {f : CameraFilesystemFile}
    {r : CameraFileRef}
    (hr : (w.snocFile p fo f).Caches path name type r) :
    w.Caches path name type r ∨ f.slot type = some r ∧ name = f.name ∧ w.tree.At p path := by
  obtain ⟨a, f', hat, hf', hslot⟩ := hr
  rw [snocFile_tree hp] at hat
  rcases hwf.fileAt_snocFile hat with ⟨hold, hne⟩ | ⟨rfl, rfl, hpath⟩
  · have hne' : a ≠ w.brk := hne
    simp only [World.snocFile, World.setFolder_fs_files, World.setFile_fs_files,
      Function.update_of_ne hne'] at hf'
    exact Or.inl ⟨a, f', hold, hf', hslot⟩
  · have hself : f' = f := by
      simpa [World.snocFile, World.tree, eq_comm] using hf'
    subst hself
    exact Or.inr ⟨hslot, rfl, hpath⟩

theorem TreeStep.coherent (h : TreeStep w w') (hwf : w.tree.Wf) (hw : w.Coherent) :
    w'.Coherent := by
  obtain ⟨es, hlog, hes⟩ := h.events hwf
  refine hw.quiet hlog (fun e he => Event.ofListing.silent (hes e he)) fun path name type r hr => ?_
  rw [h.cameraFile hwf]
  refine ⟨?_, rfl⟩
  cases h with
  | lookup h => exact h.caches hwf hr
  | fileListFunc path answer => exact hr
  | filesClean p fo hp =>
    obtain ⟨a, f, hat, hf, hslot⟩ := hr
    rw [tree_setFolder_of_same hp { fo with filesDirty := false } rfl rfl rfl] at hat
    exact ⟨a, f, hat, hf, hslot⟩
  | newFile p fo n hp hnone =>
    rcases caches_snocFile hwf hp hr with hr | ⟨hslot, -, -⟩
    · exact hr
    · cases type <;> cases hslot

theorem CacheFrame.coherent {es : List Event} (h : CacheFrame { w with log := w.log ++ es } w')
    (hsilent : ∀ e ∈ es, e.silent) (hw : w.Coherent) : w'.Coherent :=
  hw.quiet h.log hsilent fun _ _ _ _ hr => h.caches hr

/-- A step that writes folder entries only, and adds no file to the tree. -/
theorem World.Coherent.of_files (hw : w.Coherent) {es : List Event}
    (hfiles : w'.fs.files = w.fs.files) (hcam : w'.cameraFile = w.cameraFile)
    (hlog : w'.log = w.log ++ es) (hsilent : ∀ e ∈ es, e.silent)
    (hat : ∀ path name a, w'.tree.FileAt path name a → w.tree.FileAt path name a) :
    w'.Coherent := by
  refine hw.quiet hlog hsilent fun path name type r hr => ?_
  obtain ⟨a, f, ha, hf, hslot⟩ := hr
  exact ⟨⟨a, f, hat path name a ha, by rwa [← hfiles], hslot⟩, by rw [hcam]⟩

/-! ### Steps that store and delete -/

variable {filename : CString} {file : CameraFileRef}

theorem World.Coherent.setSlot (hw : w.Coherent) (hwf : w.tree.Wf) (hd : w.tree.Distinct)
    {folder : CString} {x : FileAddr} {f : CameraFilesystemFile}
    (hat : w.tree.FileAt (components folder) filename x) (hf : w.fs.files x = some f)
    (htype : ∀ n, type ≠ .unknown n)
    (hw' : w' = { w.setFile x (some (f.setSlot (some file) type)) with
      log := w.log ++ [.setFileNoop folder filename type (w.cameraFile file).data] }) :
    w'.Coherent := by
  subst hw'
  constructor
  · rintro path name type' r ⟨a, f', hplace, hf', hslot⟩
    have hat' : w.tree.FileAt path name a := by
      rwa [← tree_setFile_of_name hf (f.setSlot (some file) type) (setSlot_name f _ _)]
    show lastStored (w.log ++ [_]) path name type' = some (w.cameraFile r).data
    rw [lastStored_concat]
    by_cases hax : a = x
    · subst hax
      obtain ⟨hpath, hname⟩ := hwf.place_unique hat' hat
      simp only [World.setFile_fs_files, Function.update_self, Option.some.injEq] at hf'
      subst hf' hpath hname
      by_cases heq : type' = type
      · subst heq
        rw [f.slot_setSlot_self _ htype, Option.some.injEq] at hslot
        subst hslot
        exact if_pos ⟨rfl, rfl, rfl⟩
      · rw [f.slot_setSlot_of_ne _ heq] at hslot
        exact (if_neg fun h => heq h.2.2.symm).trans (hw.stored _ _ _ _ ⟨a, f, hat, hf, hslot⟩)
    · simp only [World.setFile_fs_files, Function.update_of_ne hax] at hf'
      refine (if_neg ?_).trans (hw.stored _ _ _ _ ⟨a, f', hat', hf', hslot⟩)
      rintro ⟨rfl, rfl, -⟩
      exact hax (hd.file_unique hwf hat' hat)
  · exact hw.answers.concat fun _ _ _ _ he => (by cases he)

theorem World.Coherent.putFile (hw : w.Coherent) (hwf : w.tree.Wf) (hd : w.tree.Distinct)
    {folder : CString} {p : FolderAddr} {fo : CameraFilesystemFolder}
    (hat : w.tree.walk rootfolder (components folder) = some p)
    (hp : w.fs.folders p = some fo) (hnone : w.tree.fileIn p filename = none)
    (hw' : w' = { w.snocFile p fo (.new filename (some file)) with
      log := w.log ++ [.putFile folder filename .normal (w.cameraFile file).data] }) :
    w'.Coherent := by
  subst hw'
  have hatp := at_of_walk hat
  constructor
  · intro path name type r hr
    show lastStored (w.log ++ [_]) path name type = some (w.cameraFile r).data
    rw [lastStored_concat]
    rcases caches_snocFile hwf hp hr with hr | ⟨hslot, rfl, hpath⟩
    · refine (if_neg ?_).trans (hw.stored _ _ _ _ hr)
      rintro ⟨rfl, rfl, -⟩
      obtain ⟨a, f, ⟨q, hq, hmem, hname⟩, -⟩ := hr
      obtain rfl := hd.at_unique hatp hq
      exact fileIn_eq_none.mp hnone a hmem hname
    · obtain rfl := hwf.path_unique hatp hpath
      cases type <;> cases hslot
      exact if_pos ⟨rfl, rfl, rfl⟩
  · exact hw.answers.concat fun _ _ _ _ he => (by cases he)

/-- Deletions: there is no cached content in the places that are cleared. -/
theorem World.Coherent.deleted (hw : w.Coherent) {e : Event}
    (hused : ∀ folder filename type data, e ≠ .lruUsed folder filename type data)
    (hcleared : ∀ path name type r, w.Caches path name type r →
      ∀ stored, e.storedAfter path name type stored = stored)
    (hcaches : ∀ path name type r, w'.Caches path name type r → w.Caches path name type r)
    (hcam : w'.cameraFile = w.cameraFile) (hlog : w'.log = w.log ++ [e]) : w'.Coherent := by
  constructor
  · intro path name type r hr
    have hr := hcaches path name type r hr
    rw [hlog, lastStored_concat, hcleared path name type r hr, hcam]
    exact hw.stored path name type r hr
  · rw [hlog]
    exact hw.answers.concat fun _ _ _ _ he => absurd he (hused _ _ _ _)

/-- Filling an object that no entry holds, after an answer from the cache or from the
driver. -/
theorem World.Coherent.getFile (hw : w.Coherent) (hwf : w.tree.Wf)
    {content : CameraFile} {s : σ} {used : List Event} (hcached : w.isCached file = false)
    (hused : UsedCache w used) (hw' : w' = { w.setCameraFile file content with
      env := s, log := w.log ++ .getFile file (w.isCached file) :: used }) : w'.Coherent := by
  subst hw'
  have hsilent : ∀ e ∈ [Event.getFile file (w.isCached file)], e.silent := by simp [Event.silent]
  have hlast : ∀ path name type, lastStored (w.log ++ [.getFile file (w.isCached file)]) path name
      type = lastStored w.log path name type := fun _ _ _ => lastStored_append hsilent
  have hdata : ∀ path name type r, w.Caches path name type r →
      ((w.setCameraFile file content).cameraFile r).data = (w.cameraFile r).data := by
    rintro path name type r ⟨a, f, -, hf, hslot⟩
    simp [ne_of_isCached_eq_false hwf hcached hf hslot]
  rcases hused with rfl | ⟨folder, filename, type, f, a, entry, r, hat, hentry, hslot, rfl⟩
  · exact hw.quiet rfl hsilent fun path name type r hr => ⟨hr, hdata path name type r hr⟩
  · obtain ⟨hwalk, hfile⟩ := locate_eq_ok.mp hat
    obtain ⟨hmem, hname⟩ := fileIn_eq_some hfile
    have hcaches : w.Caches (components folder) filename type r :=
      ⟨a, entry, ⟨f, at_of_walk hwalk, hmem, hname⟩, hentry, hslot⟩
    have hanswer := hw.stored _ _ _ _ hcaches
    constructor
    · intro path name type' r' hr'
      show lastStored (w.log ++ _ :: [_]) path name type' =
        some ((w.setCameraFile file content).cameraFile r').data
      rw [append_cons, lastStored_concat, hdata _ _ _ _ hr']
      exact (hlast _ _ _).trans (hw.stored _ _ _ _ hr')
    · show CacheCoherent (w.log ++ _ :: [_])
      rw [append_cons]
      refine (hw.answers.append hsilent).concat fun folder' filename' type' data he => ?_
      cases he
      exact (hlast _ _ _).trans hanswer

theorem Step.coherent (hstep : Step w w') (hwf : w.tree.Wf) (hd : w.tree.Distinct)
    (hgood : ∀ e ∈ w'.log, e.keepsContent) (hw : w.Coherent) : w'.Coherent := by
  have hnil : ∀ e ∈ ([] : List Event), e.silent := fun _ he => (by cases he)
  have hone : ∀ {e : Event}, e.silent → ∀ e' ∈ [e], e'.silent := fun he _ he' =>
    List.mem_singleton.mp he' ▸ he
  have hquiet : w'.log = w.log → (∀ path name type r, w'.Caches path name type r →
      w.Caches path name type r ∧ (w'.cameraFile r).data = (w.cameraFile r).data) → w'.Coherent :=
    fun hlog hold => hw.quiet (show w'.log = w.log ++ [] by rw [hlog, append_nil]) hnil hold
  have hlast : ∀ {e : Event}, e ∈ w.log ++ [e] :=
    List.mem_append_right _ (List.mem_singleton_self _)
  cases hstep with
  | tree hstep => exact hstep.coherent hwf hw
  | filesDirty p fo hp =>
    refine hw.of_files rfl rfl (append_nil w.log).symm hnil fun path name a ha => ?_
    rwa [tree_setFolder_of_same hp { fo with filesDirty := true } rfl rfl rfl] at ha
  | newFolder p fo name hp hnone =>
    refine hw.of_files rfl rfl (append_nil w.log).symm hnil fun path n a ha => ?_
    rw [consFolder_tree hwf hp name] at ha
    exact hwf.fileAt_consFolder ha
  | makeDir p fo folder name hp =>
    refine hw.of_files rfl rfl rfl (hone rfl) fun path n a ha => ?_
    have htree := consFolder_tree hwf hp name
    exact hwf.fileAt_consFolder (htree ▸ ha)
  | removeDirFunc folder name =>
    exact hw.of_files rfl rfl rfl (hone rfl) fun _ _ _ ha => ha
  | info a f info dirty hf =>
    refine hquiet rfl fun path name type r hr => ⟨?_, rfl⟩
    obtain ⟨b, f', hat, hf', hslot⟩ := hr
    rw [tree_setFile_of_name hf { f with info := info, infoDirty := dirty } rfl] at hat
    by_cases hb : b = a
    · subst hb
      simp only [World.setFile_fs_files, Function.update_self, Option.some.injEq] at hf'
      subst hf'
      exact ⟨b, f, hat, hf, by cases type <;> exact hslot⟩
    · simp only [World.setFile_fs_files, Function.update_of_ne hb] at hf'
      exact ⟨b, f', hat, hf', hslot⟩
  | touch r c hdata hsize =>
    refine hquiet rfl fun path name type r' hr => ⟨hr, ?_⟩
    by_cases hr' : r' = r
    · subst hr'
      simp [hdata]
    · simp [hr']
  | pictures n cached => exact hquiet rfl fun _ _ _ _ hr => ⟨hr, rfl⟩
  | lruClear _ r h =>
    have hframe := (keepsLruFrame_lruClear w r w' trivial h).2
    exact hquiet hframe.log fun _ _ _ _ hr => hframe.cacheFrame.caches hr
  | lruFree _ r h =>
    rcases lruFree_cases h with ⟨-, rfl⟩ | ⟨ptr, f, -, -, hframe⟩
    · exact hw
    · exact hframe.coherent (hone rfl) hw
  | lruInsert _ xfile type file size r hbig hsize h hfail =>
    obtain ⟨f, -, hframe⟩ := lruInsert_cases h
    exact hframe.cacheFrame.coherent (hone rfl) hw
  | store _ folder filename f x type file size hat htype hsize h =>
    obtain ⟨w₁, f₁, hcase, -, hf₁, hw'⟩ := storeContent_cases h
    obtain ⟨hwalk, hfile⟩ := locate_eq_ok.mp hat
    obtain ⟨hmem, hname⟩ := fileIn_eq_some hfile
    have hplace : w.tree.FileAt (components folder) filename x :=
      ⟨f, at_of_walk hwalk, hmem, hname⟩
    have hsame : w₁.tree = w.tree ∧ w₁.Coherent := by
      rcases hcase with ⟨-, hinsert⟩ | ⟨-, rfl⟩
      · obtain ⟨g, -, hframe⟩ := lruInsert_cases hinsert
        exact ⟨hframe.tree, hframe.cacheFrame.coherent (hone rfl) hw⟩
      · exact ⟨rfl, hw⟩
    obtain ⟨htree, hw₁⟩ := hsame
    rw [← htree] at hwf hd hplace
    exact hw₁.setSlot hwf hd hplace hf₁ htype hw'
  | putFile folder filename type p fo file hat hp hnone =>
    have htype : type = .normal := by simpa [Event.keepsContent] using hgood _ hlast
    subst htype
    exact hw.putFile hwf hd hat hp hnone rfl
  | putFileRefused folder filename type data hother =>
    have htype : type = .normal := by simpa [Event.keepsContent] using hgood _ hlast
    exact absurd htype hother
  | getFile file content s used hused =>
    have hcached : w.isCached file = false := by
      simpa [Event.keepsContent] using hgood _ (List.mem_append_right _ mem_cons_self)
    exact hw.getFile hwf hcached hused rfl
  | deletedFile folder filename p hat hnone =>
    refine hw.deleted (e := .deletedFile folder filename) (fun _ _ _ _ he => (by cases he))
      (fun path name type r hr stored => if_neg ?_) (fun _ _ _ _ hr => hr) rfl rfl
    rintro ⟨rfl, rfl⟩
    obtain ⟨a, f, ⟨q, hq, hmem, hname⟩, -⟩ := hr
    obtain rfl := hd.at_unique (at_of_walk hat) hq
    exact fileIn_eq_none.mp hnone a hmem hname
  | deletedAll folder p hat hnone =>
    refine hw.deleted (e := .deletedAll folder) (fun _ _ _ _ he => (by cases he))
      (fun path name type r hr stored => if_neg ?_) (fun _ _ _ _ hr => hr) rfl rfl
    rintro rfl
    obtain ⟨a, f, ⟨q, hq, hmem, -⟩, -⟩ := hr
    obtain rfl := hd.at_unique (at_of_walk hat) hq
    rw [hnone] at hmem
    cases hmem
  | resetCall fo hroot => exact hw.of_files rfl rfl rfl (hone rfl) fun _ _ _ ha => ha
  | resetDone fo hroot hcall hempty =>
    have hcached : w.fs.cachesAny fo.files = false := by
      simpa [Event.keepsContent] using hgood _ (List.mem_append_left _ hcall)
    -- Only the root folder is left, and no file in it holds content.
    have hgone : ∀ path name type r, ¬ w.Caches path name type r := by
      rintro path name type r ⟨a, f, ⟨q, hq, hmem, -⟩, hf, hslot⟩
      have hqroot : q = rootfolder := by
        by_contra hne
        obtain ⟨fo', hfo'⟩ := folderName_ne_none.mp (hwf.owner_alive hmem)
        rw [hempty q hne] at hfo'
        cases hfo'
      rw [hqroot, tree_files hroot] at hmem
      have hany : w.fs.cachesAny fo.files = true := List.any_eq_true.mpr
        ⟨a, hmem, by rw [hf, Option.any_some]; exact f.hasContent_of_slot hslot⟩
      rw [hcached] at hany
      cases hany
    refine hw.deleted (e := .resetDone) (fun _ _ _ _ he => (by cases he))
      (fun path name type r hr => absurd hr (hgone path name type r))
      (fun path name type r hr => ?_) rfl rfl
    obtain ⟨a, f, hat, hf, hslot⟩ := hr
    have htree := tree_setFolder_of_same hroot
      { fo with filesDirty := true, foldersDirty := true } rfl rfl rfl
    exact ⟨a, f, htree ▸ hat, hf, hslot⟩

theorem Step.coherentPlaces (hstep : Step w w') (hwf : w.tree.Wf)
    (hgood : ∀ e ∈ w'.log, e.keepsContent) (hw : w.CoherentPlaces) : w'.CoherentPlaces where
  distinct := hstep.distinct hwf (fun e he => Event.keepsContent.namesNew (hgood e he)) hw.distinct
  coherent := hstep.coherent hwf hw.distinct hgood hw.coherent

theorem World.IsNew.coherentPlaces (h : w.IsNew) : w.CoherentPlaces where
  distinct := by
    rw [h.tree]
    exact NameTree.new_distinct _
  coherent := by
    constructor
    · rintro path name type r ⟨a, f, -, hf, -⟩
      rw [h.fs] at hf
      cases hf
    · rw [h.log]
      intro before folder filename type data hpre
      simpa using List.prefix_nil.mp hpre

/-! ### Answers -/

variable (funcs : CameraFilesystemFuncs σ)

/-- A call that ends with an answer from the cache: the answer is to what was asked for, it is
a success, and the content is copied to a destination in memory. -/
theorem getFile_answered {folder folder' filename' : CString}
    {type' : CameraFileType} {context : GPContext}
    {r : Except Int Unit} {before : List Event} {data : List UInt8} (hwf : w.tree.Wf)
    (h : gpFilesystemGetFile funcs folder filename type file context w = some (r, w'))
    (hlog : w'.log = before ++ [.lruUsed folder' filename' type' data])
    (hnew : w.log <+: before) :
    folder' = folder ∧ filename' = filename ∧ type' = type ∧ r = .ok () ∧
      ((w.cameraFile file).accesstype = .memory → (w'.cameraFile file).data = data) := by
  -- The answer is an event of this call, and not a silent one.
  have hquiet : ∀ es, (∀ e ∈ es, e.silent) → w'.log ≠ w.log ++ es := by
    intro es hes heq
    obtain ⟨t, rfl⟩ := hnew
    rw [hlog, List.append_assoc, List.append_cancel_left_eq] at heq
    have hused := hes _ (heq ▸ List.mem_append_right t (List.mem_singleton_self _))
    cases hused
  have hnil : w'.log ≠ w.log := by simpa using hquiet [] (by simp)
  obtain ⟨w₀, ⟨s, hw₀⟩, ⟨rfl, -⟩ | h⟩ := checks_bind_eq_some funcs h
  · exact absurd (by rw [hw₀]) hnil
  rw [Comp.bind_run_ok (modifyCameraFile_run _ _ _)] at h
  generalize hw₁ : w₀.setCameraFile file (gpFileSetName (w₀.cameraFile file) filename) = w₁ at h
  have hlog₁ : w₁.log = w.log := by rw [← hw₁, hw₀]; rfl
  have htree₁ : w₁.tree = w.tree := by rw [← hw₁, hw₀]; rfl
  have haccess₁ : (w₁.cameraFile file).accesstype = (w.cameraFile file).accesstype := by
    rw [← hw₁, hw₀]
    simp [gpFileSetName]
  rw [← htree₁] at hwf
  cases hfunc : funcs.getFileFunc with
  | none =>
    rw [hfunc] at h
    cases h
    exact absurd hlog₁ hnil
  | some getFile =>
    simp only [hfunc] at h
    obtain ⟨w₂, hsteps, hwf₂, hcase⟩ := lookupFolderFile_bind_eq_some funcs hwf h
    obtain ⟨es, hlog₂, hes⟩ := hsteps.events hwf
    have hes := fun e he => Event.ofListing.silent (hes e he)
    rw [hlog₁] at hlog₂
    rcases hcase with ⟨rfl, -⟩ | ⟨f, a, -, h⟩
    · exact absurd hlog₂ (hquiet es hes)
    obtain ⟨entry, -, h⟩ := derefFile_bind_eq_some.mp h
    rw [Comp.get_bind_run, trace_bind_run] at h
    generalize hw₃ : ({ w₂ with log := _ } : World σ) = w₃ at h
    have hlog₃ : w₃.log = w.log ++ (es ++ [.getFile file (w₂.isCached file)]) := by
      rw [← hw₃, ← List.append_assoc, ← hlog₂]
    have hes₃ : ∀ e ∈ es ++ [Event.getFile file (w₂.isCached file)], e.silent := by
      intro e he
      rcases List.mem_append.mp he with he | he
      · exact hes e he
      · rw [List.mem_singleton.mp he]
        rfl
    have hcam₃ : w₃.cameraFile = w₁.cameraFile := by
      rw [← hw₃]
      exact hsteps.cameraFile hwf
    have hmain :
        getFileEnd funcs getFile folder filename type file (entry.slot type) w₃ = some (r, w') →
        folder' = folder ∧ filename' = filename ∧ type' = type ∧ r = .ok () ∧
          ((w.cameraFile file).accesstype = .memory → (w'.cameraFile file).data = data) := by
      intro h
      obtain ⟨ret, w₄, h₄, h⟩ := (Comp.bind_eq_some.mp h).resolve_left (by
        rintro ⟨e, he, -⟩
        obtain ⟨_, ret, hret, -⟩ := getFileFromCache_run funcs he
        cases hret)
      obtain ⟨used, _, hret, ⟨content, s₄, hfilled⟩, hcase⟩ := getFileFromCache_run funcs h₄
      cases hret
      rcases hcase with rfl | ⟨c, -, rfl, rfl, hcopy⟩
      · -- The cache was not asked, or the copy failed: no event.
        refine absurd ?_ (hquiet _ hes₃)
        rw [← hlog₃]
        cases ret with
        | ok _ =>
          cases h
          rw [hfilled]
          exact append_nil _
        | error e =>
          obtain ⟨_, _, hdriver⟩ :=
            (keepsFilled_getFileFromDriver getFile folder filename type file _ _ _ trivial h).2
          rw [hdriver, hfilled]
          simp
      · cases h
        have hend : w'.log = w₃.log ++ [.lruUsed folder filename type (w₃.cameraFile c).data] := by
          rw [hfilled]
        rw [hlog] at hend
        obtain ⟨-, heq⟩ := List.append_inj' hend rfl
        cases heq
        refine ⟨rfl, rfl, rfl, rfl, fun hmem => hcopy ?_⟩
        rw [hcam₃, haccess₁, hmem]
    cases type with
    | unknown n =>
      cases h
      exact absurd hlog₃ (hquiet _ hes₃)
    | preview | normal | raw | audio | exif | metadata => exact hmain h

/-- As long as uploads are of the normal type, a reset finds no cached content in the root
folder, no cached object is filled and names are new, every answer from the cache was what had
been stored last for the very place and type, and it is what the call copied out. -/
theorem reachable_cacheCoherent (h : Reachable funcs w)
    (hgood : ∀ e ∈ w.log, e.keepsContent) :
    CacheCoherent w.log ∧
    ∀ folder filename type file context r w' before folder' filename' type' data,
      gpFilesystemGetFile funcs folder filename type file context w = some (r, w') →
      (∀ e ∈ w'.log, e.keepsContent) →
      w'.log = before ++ [.lruUsed folder' filename' type' data] → w.log <+: before →
      r = .ok () ∧ lastStored before (components folder) filename type = some data ∧
        ((w.cameraFile file).accesstype = .memory → (w'.cameraFile file).data = data) := by
  have hinv : w.CoherentPlaces := h.induction funcs (fun _ hnew => hnew.coherentPlaces)
    (fun _ _ hwf hstep => hstep.coherentPlaces hwf) hgood
  have hwf := h.wf funcs
  refine ⟨hinv.coherent.answers, fun folder filename type file context r w' before folder'
    filename' type' data hget hgood' hlog hnew => ?_⟩
  obtain ⟨rfl, rfl, rfl, hr, hcopy⟩ := getFile_answered funcs hwf hget hlog hnew
  have hop : FsOp.exec funcs (.getFile folder' filename' type' file context) w =
      some (.ok .unit, w') := Comp.bind_run_ok (hr ▸ hget)
  have hinv' : w'.CoherentPlaces := (exec_steps funcs hwf hop).keeps
    (fun _ _ hwf hstep => hstep.coherentPlaces hwf) hwf hgood' hinv
  refine ⟨hr, hinv'.coherent.answers _ _ _ _ _ ?_, hcopy⟩
  rw [hlog]

end

/-! ### An uploaded preview -/

/-- A driver that takes every upload, and has no file to give. -/
def uploadFuncs : CameraFilesystemFuncs Unit :=
  { putFileFuncs with getFileFunc := some fun _ _ _ file s => ((.error gpError, file), s) }

/-- A preview that was uploaded is handed out as the file itself. -/
theorem uploading_a_preview :
    ¬ ∀ w, Reachable uploadFuncs w → CacheCoherent w.log := by
  intro h
  obtain ⟨rs, w, hrun, hlog⟩ : ∃ rs w, runOps uploadFuncs
      [.putFile ['/'] ['a'] .preview 1 .null, .getFile ['/'] ['a'] .normal 2 .null] dataWorld =
        some (rs, w) ∧
      w.log = [.putFile ['/'] ['a'] .preview [1, 2, 3], .getFile 2 false] ++
        [.lruUsed ['/'] ['a'] .normal [1, 2, 3]] := ⟨_, _, rfl, rfl⟩
  have hcoherent := h w ⟨dataWorld, _, rs, ⟨rfl, Nat.one_pos, rfl⟩, hrun⟩
  rw [hlog] at hcoherent
  cases hcoherent _ _ _ _ _ (List.prefix_refl _)

/-- An uploaded file, and a preview stored for it, each read back. -/
theorem reachable_cacheCoherent_upload : ∃ w, (runOps uploadFuncs
      [.putFile ['/'] ['a'] .normal 1 .null, .setFileNoop ['/'] ['a'] .preview 3 .null,
        .getFile ['/'] ['a'] .normal 2 .null, .getFile ['/'] ['a'] .preview 2 .null]
      dataWorld).map Prod.snd = some w ∧
      .lruUsed ['/'] ['a'] .preview [1, 2, 3] ∈ w.log ∧ CacheCoherent w.log := by
  obtain ⟨rs, w, hrun, hlast, hlog⟩ : ∃ rs w, runOps uploadFuncs
      [.putFile ['/'] ['a'] .normal 1 .null, .setFileNoop ['/'] ['a'] .preview 3 .null,
        .getFile ['/'] ['a'] .normal 2 .null, .getFile ['/'] ['a'] .preview 2 .null]
      dataWorld = some (rs, w) ∧
      w.log.getLast? = some (.lruUsed ['/'] ['a'] .preview [1, 2, 3]) ∧
      w.log.all Event.keepsContent = true := ⟨_, _, rfl, rfl, rfl⟩
  exact ⟨w, by rw [hrun]; rfl, List.mem_of_getLast? hlast, (reachable_cacheCoherent uploadFuncs
    ⟨_, _, rs, ⟨rfl, Nat.one_pos, rfl⟩, hrun⟩ (List.all_eq_true.mp hlog)).1⟩

end GPhoto2

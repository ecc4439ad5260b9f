import GPhoto2.Proofs.Filesys.Steps

/-!
# `GPhoto2.Proofs.Filesys.LruFree`: eviction and accounting on a list

The two functions that keep `lru_size` in step with the list. On a well-formed list
`gp_filesystem_lru_free` drops the first entry, if all its contents can tell their size
(`lruFree_run`), and the end of `gp_filesystem_lru_update` moves the entry to the end, unless
the content it replaces cannot tell its size (`lruInsert_run`). Both lemmas say what becomes
of `lru_size` when the numbers stay in range.
-/

set_option autoImplicit false

/-! ## What cache maintenance leaves alone

Making room in the cache and accounting for new content write LRU pointers, `lru_size`, and
drop contents. `CacheFrame` says what they leave alone: the tree of names, the file
information, the `CameraFile` objects; and that no entry gains a content.
-/

namespace GPhoto2

open Lib

variable {σ : Type}

/-- The entry kept its name and info, and gained no content. -/
structure CameraFilesystemFile.Fewer (f f' : CameraFilesystemFile) : Prop where
  name : f'.name = f.name
  info : f'.info = f.info
  infoDirty : f'.infoDirty = f.infoDirty
  slot : ∀ type r, f'.slot type = some r → f.slot type = some r

namespace CameraFilesystemFile

variable (f : CameraFilesystemFile) (r : Option CameraFileRef)

theorem Fewer.refl : f.Fewer f := ⟨rfl, rfl, rfl, fun _ _ h => h⟩

theorem Fewer.trans {f f' f'' : CameraFilesystemFile} (h : f.Fewer f') (h' : f'.Fewer f'') :
    f.Fewer f'' :=
  ⟨h'.name.trans h.name, h'.info.trans h.info, h'.infoDirty.trans h.infoDirty,
    fun type r hr => h.slot type r (h'.slot type r hr)⟩

@[simp] theorem slot_unlinked (type : CameraFileType) :
    f.unlinked.slot type = f.slot type := by
  cases type <;> rfl

theorem Fewer.of_unlinked {f f' : CameraFilesystemFile} (h : f'.unlinked = f.unlinked) :
    f.Fewer f' where
  name := congrArg (·.name) h
  info := congrArg (·.info) h
  infoDirty := congrArg (·.infoDirty) h
  slot type r hr := by
    rw [← slot_unlinked, ← h, slot_unlinked]
    exact hr

variable {type : CameraFileType}

theorem slot_setSlot_self (h : ∀ n, type ≠ .unknown n) : (f.setSlot r type).slot type = r := by
  cases type <;> first | rfl | exact absurd rfl (h _)

theorem slot_setSlot_of_ne {type' : CameraFileType} (h : type' ≠ type) :
    (f.setSlot r type).slot type' = f.slot type' := by
  cases type <;> cases type' <;> first | rfl | exact absurd rfl h

theorem hasContent_of_slot {r : CameraFileRef} (h : f.slot type = some r) : f.hasContent := by
  cases type <;> simp [slot] at h <;> simp [hasContent, h]

theorem fewer_setSlot_none (type : CameraFileType) :
    f.Fewer (f.setSlot none type) where
  name := by cases type <;> rfl
  info := by cases type <;> rfl
  infoDirty := by cases type <;> rfl
  slot type' r hr := by
    by_cases h : type' = type
    · subst h
      cases type' <;> simp [slot, setSlot] at hr
    · rwa [slot_setSlot_of_ne f none h] at hr

end CameraFilesystemFile

/-- The tree of names, the file information and the `CameraFile`s are left alone, and no
entry gains a content. -/
structure CacheFrame (w w' : World σ) : Prop where
  folders : w'.fs.folders = w.fs.folders
  isSome : ∀ a, (w'.fs.files a).isSome = (w.fs.files a).isSome
  file : ∀ a f', w'.fs.files a = some f' → ∃ f, w.fs.files a = some f ∧ f.Fewer f'
  cameraFile : w'.cameraFile = w.cameraFile
  picturesToKeep : w'.picturesToKeep = w.picturesToKeep
  cachedImages : w'.cachedImages = w.cachedImages
  brk : w'.brk = w.brk
  env : w'.env = w.env
  log : w'.log = w.log

section
variable {w w' w'' : World σ}

theorem CacheFrame.refl (w : World σ) : CacheFrame w w :=
  ⟨rfl, fun _ => rfl, fun _ f h => ⟨f, h, .refl f⟩, rfl, rfl, rfl, rfl, rfl, rfl⟩

theorem CacheFrame.trans (h : CacheFrame w w') (h' : CacheFrame w' w'') : CacheFrame w w'' where
  folders := h'.folders.trans h.folders
  isSome a := (h'.isSome a).trans (h.isSome a)
  file a f'' hf'' := by
    obtain ⟨f', hf', hfewer'⟩ := h'.file a f'' hf''
    obtain ⟨f, hf, hfewer⟩ := h.file a f' hf'
    exact ⟨f, hf, hfewer.trans hfewer'⟩
  cameraFile := h'.cameraFile.trans h.cameraFile
  picturesToKeep := h'.picturesToKeep.trans h.picturesToKeep
  cachedImages := h'.cachedImages.trans h.cachedImages
  brk := h'.brk.trans h.brk
  env := h'.env.trans h.env
  log := h'.log.trans h.log

instance : IsPreorder (World σ) CacheFrame where
  refl := CacheFrame.refl
  trans _ _ _ h h' := h.trans h'

theorem LruFrame.cacheFrame (h : LruFrame w w') : CacheFrame w w' where
  folders := h.folders
  isSome := h.isSome
  file a f' hf' := by
    obtain ⟨f, hf, heq⟩ := h.file hf'
    exact ⟨f, hf, .of_unlinked heq⟩
  cameraFile := h.cameraFile
  picturesToKeep := h.picturesToKeep
  cachedImages := h.cachedImages
  brk := h.brk
  env := h.env
  log := h.log

theorem CacheFrame.tree (h : CacheFrame w w') : w'.tree = w.tree := by
  refine tree_congr (fun a => by rw [h.folders]) ?_ h.brk
  funext a
  have hs := h.isSome a
  unfold CameraFilesystem.fileName
  cases hf' : w'.fs.files a with
  | none =>
    rw [hf', Option.isSome_none] at hs
    rw [Option.isNone_iff_eq_none.mp (Option.isSome_eq_false_iff.mp hs.symm)]
  | some f' =>
    obtain ⟨f, hf, hfewer⟩ := h.file a f' hf'
    rw [hf, Option.map_some, Option.map_some, hfewer.name]

theorem cacheFrame_setFile {a : FileAddr} {f f' : CameraFilesystemFile}
    (hf : w.fs.files a = some f) (h : f.Fewer f') : CacheFrame w (w.setFile a (some f')) := by
  refine ⟨rfl, fun b => ?_, fun b g hg => ?_, rfl, rfl, rfl, rfl, rfl, rfl⟩
  · by_cases hb : b = a
    · subst hb
      simp [hf]
    · simp [hb]
  · by_cases hb : b = a
    · subst hb
      simp only [World.setFile_fs_files, Function.update_self, Option.some.injEq] at hg
      subst hg
      exact ⟨f, hf, h⟩
    · simp only [World.setFile_fs_files, Function.update_of_ne hb] at hg
      exact ⟨g, hg, .refl g⟩

theorem ne_of_isCached_eq_false (hwf : w.tree.Wf) {file r : CameraFileRef}
    (hcached : w.isCached file = false) {a : FileAddr} {f : CameraFilesystemFile}
    (hf : w.fs.files a = some f) {type : CameraFileType} (hslot : f.slot type = some r) :
    r ≠ file := by
  rintro rfl
  have hlt := hwf.file_lt (fileName_ne_none.mpr ⟨f, hf⟩)
  have hholds : f.holds r = true := by
    cases type <;> simp [CameraFilesystemFile.slot] at hslot <;>
      simp [CameraFilesystemFile.holds, hslot]
  have hany : w.isCached r = true :=
    List.any_eq_true.mpr ⟨a, List.mem_range.mpr hlt, by simp [hf, hholds]⟩
  rw [hcached] at hany
  cases hany

/-- The step of `gp_filesystem_lru_free` that makes the next entry the first. -/
theorem keepsLruFrame_lruDropFirst (next : Option FileAddr) :
    KeepsLruFrame (lruDropFirst next : Fs σ Unit) := by
  refine Comp.Keeps.get.bind fun w => ?_
  cases next with
  | none => exact keepsLruFrame_setLru fun _ => (none, none)
  | some next =>
    refine (keepsLruFrame_setLru fun _ => (some next, w.fs.lruLast)).bind fun _ => ?_
    exact keepsLruFrame_modifyFile next fun _ => rfl

/-- Keeping nothing but the frame. -/
abbrev KeepsCacheFrame {α : Type} (m : Fs σ α) : Prop := Comp.Keeps (fun _ => True) CacheFrame m

theorem KeepsLruFrame.cacheFrame {α : Type} {m : Fs σ α} (h : KeepsLruFrame m) :
    KeepsCacheFrame m := fun w r w' _ hm => ⟨trivial, (h w r w' trivial hm).2.cacheFrame⟩

theorem keepsCacheFrame_lruFreeSlot (ptr : FileAddr) (type : CameraFileType) :
    KeepsCacheFrame (lruFreeSlot ptr type : Fs σ Unit) := by
  refine (keepsLruFrame_derefFile ptr).cacheFrame.bind fun f => ?_
  cases f.slot type with
  | none => exact .pure _
  | some r =>
    refine (keepsLruFrame_cameraFileSize r).cacheFrame.bind fun size =>
      (keepsLruFrame_setLruSize fun w => ulongSub w.fs.lruSize size).cacheFrame.bind fun _ => ?_
    intro w r w' _ h
    obtain ⟨f, hf, -, rfl⟩ := modifyFile_eq_some.mp h
    exact ⟨trivial, cacheFrame_setFile hf (f.fewer_setSlot_none type)⟩

variable {r : Except Int Unit}

/-- `gp_filesystem_lru_free` on a list that is not empty: one event, and behind it nothing
but LRU pointers, `lru_size` and dropped contents. -/
theorem lruFree_cases (h : gpFilesystemLruFree w = some (r, w')) :
    (w.fs.lruFirst = none ∧ w' = w) ∨
    ∃ ptr f, w.fs.lruFirst = some ptr ∧ w.fs.files ptr = some f ∧
      CacheFrame { w with log := w.log ++ [.lruFree (w.lruEntry ptr f)] } w' := by
  unfold gpFilesystemLruFree at h
  rw [Comp.get_bind_run] at h
  cases hfirst : w.fs.lruFirst with
  | none =>
    rw [hfirst] at h
    cases h
    exact Or.inl ⟨rfl, rfl⟩
  | some ptr =>
    rw [hfirst] at h
    obtain ⟨f, hf, h⟩ := derefFile_bind_eq_some.mp h
    rw [trace_bind_run] at h
    refine Or.inr ⟨ptr, f, rfl, hf, ?_⟩
    have hkeeps : KeepsCacheFrame (do
        lruDropFirst f.lruNext
        lruFreeSlot ptr .normal
        lruFreeSlot ptr .raw
        lruFreeSlot ptr .audio
        modifyFile ptr fun f => { f with lruPrev := none, lruNext := none } : Fs σ Unit) := by
      refine (keepsLruFrame_lruDropFirst _).cacheFrame.bind fun _ =>
        (keepsCacheFrame_lruFreeSlot ptr .normal).bind fun _ =>
        (keepsCacheFrame_lruFreeSlot ptr .raw).bind fun _ =>
        (keepsCacheFrame_lruFreeSlot ptr .audio).bind fun _ => ?_
      exact KeepsLruFrame.cacheFrame (keepsLruFrame_modifyFile ptr fun _ => rfl)
    exact (hkeeps _ r w' trivial h).2

/-- `gp_filesystem_lru_update` behind its lookup: one event, and behind it nothing but LRU
pointers and `lru_size`. -/
theorem lruInsert_cases {xfile : FileAddr} {type : CameraFileType} {file : CameraFileRef}
    {size : Nat}
    (h : lruInsert xfile type file size w = some (r, w')) :
    ∃ f, w.fs.files xfile = some f ∧ LruFrame { w with
      log := w.log ++ [.lruUpdate (w.lruEntry xfile f) type size w.fs.lruSize] } w' := by
  obtain ⟨f, hf, h⟩ := derefFile_bind_eq_some.mp h
  rw [Comp.get_bind_run, trace_bind_run] at h
  refine ⟨f, hf, ?_⟩
  have hkeeps : KeepsLruFrame (do
      lruDetach xfile type
      lruAttach xfile
      let size ← cameraFileSize file
      Comp.modify fun w => w.setLruSize (ulongAdd w.fs.lruSize size) : Fs σ Unit) :=
    (keepsLruFrame_lruDetach xfile type).bind fun _ =>
      (keepsLruFrame_lruAttach xfile).bind fun _ =>
      (keepsLruFrame_cameraFileSize file).bind fun size =>
      keepsLruFrame_setLruSize fun w => ulongAdd w.fs.lruSize size
  exact (hkeeps _ r w' trivial h).2

theorem lruCheck_eq_some (h : gpFilesystemLruCheck w = some (r, w')) :
    w' = w ∧ (r = .ok () ∨ r = .error gpError) := by
  unfold gpFilesystemLruCheck at h
  cases hfirst : w.fs.lruFirst with
  | none =>
    rw [hfirst] at h
    cases h
    exact ⟨rfl, Or.inl rfl⟩
  | some first =>
    simp only [hfirst, Option.map_eq_some_iff, Prod.mk.injEq] at h
    obtain ⟨ok, -, rfl, rfl⟩ := h
    exact ⟨rfl, by cases ok <;> simp⟩

theorem lruCount_eq_some {r : Except Int Nat} (h : gpFilesystemLruCount w = some (r, w')) :
    w' = w ∧ ∃ n, r = .ok n := by
  simp only [gpFilesystemLruCount, Option.map_eq_some_iff, Prod.mk.injEq] at h
  obtain ⟨n, -, rfl, rfl⟩ := h
  exact ⟨rfl, n, rfl⟩

end

open Lib.Comp (bind_eq_ok bind_run_ok get_bind_run)
open SelfHeadedList (first_eq next_mem next_ne_self prev_ne_none_iff)

theorem ulongSub_eq {a b : Nat} (hb : b ≤ a) (ha : a < 2 ^ 64) : ulongSub a b = a - b := by
  unfold ulongSub
  rw [Nat.mod_eq_of_lt (Nat.lt_of_le_of_lt hb ha)]
  omega

theorem ulongAdd_eq {a b : Nat} (h : a + b < 2 ^ 64) : ulongAdd a b = a + b :=
  Nat.mod_eq_of_lt h

/-- What the trace keeps of the content of one type. -/
def World.content (w : World σ) (f : CameraFilesystemFile) (type : CameraFileType) :
    Option (Except Int Nat) :=
  (f.slot type).map fun r => gpFileGetSize (w.cameraFile r)

theorem CameraFilesystemFile.setSlot_slot (f : CameraFilesystemFile) (type : CameraFileType) :
    f.setSlot (f.slot type) type = f := by
  cases type <;> rfl

section
variable {w w' : World σ} {l : List FileAddr}

open CameraFilesystem World

variable {f : CameraFilesystemFile} {type : CameraFileType}

theorem lruEntry_content {a : FileAddr}
    (hbig : type.big) : (w.lruEntry a f).content type = w.content f type := by
  rcases hbig with rfl | rfl | rfl <;> rfl

/-! ### Eviction -/

variable {ptr : FileAddr}

theorem lruFreeSlot_run (type : CameraFileType)
    (hf : w.fs.files ptr = some f) (hsized : contentSized (w.content f type)) :
    ∃ w', lruFreeSlot ptr type w = some (.ok (), w') ∧
      w'.fs.files = Function.update w.fs.files ptr (some (f.setSlot none type)) ∧
      w'.fs.lruFirst = w.fs.lruFirst ∧ w'.fs.lruLast = w.fs.lruLast ∧
      w'.cameraFile = w.cameraFile ∧
      (contentSize (w.content f type) ≤ w.fs.lruSize → w.fs.lruSize < 2 ^ 64 →
        w'.fs.lruSize = w.fs.lruSize - contentSize (w.content f type)) := by
  unfold lruFreeSlot
  rw [bind_run_ok (derefFile_run hf)]
  cases hslot : f.slot type with
  | none =>
    have hsame : f.setSlot none type = f := hslot ▸ f.setSlot_slot type
    refine ⟨w, rfl, ?_, rfl, rfl, rfl, fun _ _ => ?_⟩
    · rw [hsame, ← hf, Function.update_eq_self]
    · simp [content, hslot, contentSize]
  | some r =>
    have hcontent : w.content f type = some (gpFileGetSize (w.cameraFile r)) := by
      simp [content, hslot]
    rw [hcontent] at hsized ⊢
    cases hsize : gpFileGetSize (w.cameraFile r) with
    | error e =>
      rw [hsize] at hsized
      cases hsized
    | ok n =>
      have hf' : (w.setLruSize (ulongSub w.fs.lruSize n)).fs.files ptr = some f := hf
      refine ⟨(w.setLruSize (ulongSub w.fs.lruSize n)).setFile ptr (some (f.setSlot none type)),
        ?_, rfl, rfl, rfl, rfl, fun hle hlt => ulongSub_eq hle hlt⟩
      simp only
      rw [bind_run_ok (cameraFileSize_ok hsize),
        Comp.modify_bind_run, modifyFile_run hf']

theorem lruDropFirst_run (w₁ : World σ) {rest : List FileAddr}
    (h : w.fs.LruChain (ptr :: rest)) (hf : w.fs.files ptr = some f)
    (hfs : w₁.fs = w.fs) :
    ∃ w', lruDropFirst f.lruNext w₁ = some (.ok (), w') ∧
      w'.fs.lruNext = w.fs.lruNext ∧
      (∀ x, w'.fs.lruPrev x =
        if w.fs.lruNext ptr = some x then some x else w.fs.lruPrev x) ∧
      w'.fs.lruFirst = w.fs.lruNext ptr ∧
      w'.fs.lruLast = (if w.fs.lruLast = some ptr then none else w.fs.lruLast) ∧
      w'.fs.files ptr = some f ∧ w'.cameraFile = w₁.cameraFile ∧
      w'.fs.lruSize = w.fs.lruSize := by
  unfold lruDropFirst
  rw [get_bind_run, hfs, ← lruNext_eq hf]
  have hlast := SelfHeadedList.last_eq_some_iff h (a := ptr)
  cases hn : w.fs.lruNext ptr with
  | none =>
    refine ⟨w₁.setLru none none, rfl, ?_, fun x => ?_, rfl, ?_, ?_, rfl, ?_⟩
    · rw [lruNext_setLru, hfs]
    · simp [hfs]
    · rw [if_pos (hlast.mpr ⟨List.mem_cons_self, hn⟩)]
      rfl
    · simpa [hfs] using hf
    · simp [hfs]
  | some next =>
    have hne : ptr ≠ next := fun e => next_ne_self h ptr (hn.trans (by rw [e]))
    obtain ⟨g, hg⟩ := h.isSome (next_mem h hn)
    have hg' : (w₁.setLru (some next) w.fs.lruLast).fs.files next = some g := by
      simpa [hfs] using hg
    refine ⟨(w₁.setLru (some next) w.fs.lruLast).setPrev next (some next), ?_, ?_, fun x => ?_,
      rfl, ?_, ?_, rfl, ?_⟩
    · simp only
      rw [Comp.modify_bind_run, modifyFile_lruPrev_run hg']
    · rw [lruNext_setPrev, lruNext_setLru, hfs]
    · rw [lruPrev_setPrev hg', lruPrev_setLru, hfs]
      by_cases hx : x = next
      · simp [hx]
      · simp [hx, Ne.symm hx]
    · rw [if_neg fun hl => by rw [(hlast.mp hl).2] at hn; cases hn]
      rfl
    · simp [setPrev, hne, hfs, hf]
    · simp [setPrev, hfs]

theorem lruNext_setSlot (fs fs' : CameraFilesystem)
    (hf : fs.files ptr = some f)
    {r : Option CameraFileRef}
    (hfiles : fs'.files = Function.update fs.files ptr (some (f.setSlot r type))) :
    fs'.lruNext = fs.lruNext ∧ fs'.lruPrev = fs.lruPrev := by
  have hnext : (f.setSlot r type).lruNext = f.lruNext := by cases type <;> rfl
  have hprev : (f.setSlot r type).lruPrev = f.lruPrev := by cases type <;> rfl
  constructor
  · funext x
    by_cases hx : x = ptr
    · subst hx
      simp [lruNext, hfiles, hf, hnext]
    · simp [lruNext, hfiles, hx]
  · funext x
    by_cases hx : x = ptr
    · subst hx
      simp [lruPrev, hfiles, hf, hprev]
    · simp [lruPrev, hfiles, hx]

/-- An entry without the contents that count, and off the list. -/
def CameraFilesystemFile.evicted (f : CameraFilesystemFile) : CameraFilesystemFile :=
  { f.unlinked with normal := none, raw := none, audio := none }

/-- Evicting the first entry, when all its contents can tell their size. -/
theorem lruFree_run {rest : List FileAddr}
    (h : w.fs.LruChain (ptr :: rest)) (hf : w.fs.files ptr = some f)
    (hsized : (w.lruEntry ptr f).sized) :
    ∃ w', gpFilesystemLruFree w = some (.ok (), w') ∧ w'.fs.LruChain rest ∧
      (∀ b, b ≠ ptr →
        (w'.fs.files b).map (·.unlinked) = (w.fs.files b).map (·.unlinked)) ∧
      w'.fs.files ptr = some f.evicted ∧ w'.cameraFile = w.cameraFile ∧
      ((w.lruEntry ptr f).total ≤ w.fs.lruSize → w.fs.lruSize < 2 ^ 64 →
        w'.fs.lruSize = w.fs.lruSize - (w.lruEntry ptr f).total) := by
  have hfirst : w.fs.lruFirst = some ptr := first_eq h
  obtain ⟨w₁, h₁, hnext₁, hprev₁, hfirst₁, hlast₁, hf₁, hcam₁, hsize₁⟩ :=
    lruDropFirst_run { w with log := w.log ++ [.lruFree (w.lruEntry ptr f)] } h hf rfl
  -- The three contents go, one after the other.
  have hsized' : (contentSized (w.content f .normal) ∧ contentSized (w.content f .raw)) ∧
      contentSized (w.content f .audio) := by
    simp only [LruEntry.sized, Bool.and_eq_true] at hsized
    exact hsized
  have hcontent : ∀ (w₀ : World σ) (g : CameraFilesystemFile) (type : CameraFileType),
      w₀.cameraFile = w.cameraFile → g.slot type = f.slot type →
      w₀.content g type = w.content f type := fun w₀ g type hcam hslot => by
    unfold World.content
    rw [hcam, hslot]
  have hc₁ := hcontent w₁ f .normal hcam₁ rfl
  obtain ⟨w₂, h₂, hfiles₂, hfirst₂, hlast₂, hcam₂, hsize₂⟩ :=
    lruFreeSlot_run .normal hf₁ (hc₁ ▸ hsized'.1.1)
  have hf₂ : w₂.fs.files ptr = some (f.setSlot none .normal) := by simp [hfiles₂]
  have hc₂ := hcontent w₂ (f.setSlot none .normal) .raw (hcam₂.trans hcam₁) rfl
  obtain ⟨w₃, h₃, hfiles₃, hfirst₃, hlast₃, hcam₃, hsize₃⟩ :=
    lruFreeSlot_run .raw hf₂ (hc₂ ▸ hsized'.1.2)
  have hf₃ : w₃.fs.files ptr = some ((f.setSlot none .normal).setSlot none .raw) := by
    simp [hfiles₃]
  have hc₃ := hcontent w₃ ((f.setSlot none .normal).setSlot none .raw) .audio
    (hcam₃.trans (hcam₂.trans hcam₁)) rfl
  obtain ⟨w₄, h₄, hfiles₄, hfirst₄, hlast₄, hcam₄, hsize₄⟩ :=
    lruFreeSlot_run .audio hf₃ (hc₃ ▸ hsized'.2)
  have hf₄ : w₄.fs.files ptr =
      some (((f.setSlot none .normal).setSlot none .raw).setSlot none .audio) := by
    simp [hfiles₄]
  obtain ⟨hn₂, hp₂⟩ := lruNext_setSlot w₁.fs w₂.fs hf₁ hfiles₂
  obtain ⟨hn₃, hp₃⟩ := lruNext_setSlot w₂.fs w₃.fs hf₂ hfiles₃
  obtain ⟨hn₄, hp₄⟩ := lruNext_setSlot w₃.fs w₄.fs hf₃ hfiles₄
  obtain ⟨f₅, hf₅⟩ := exists_setNext hf₄ ptr none
  refine ⟨(w₄.setNext ptr none).setPrev ptr none, ?_, ?_, fun b hb => ?_, ?_,
    hcam₄.trans (hcam₃.trans (hcam₂.trans hcam₁)), fun hle hlt => ?_⟩
  · unfold gpFilesystemLruFree
    rw [get_bind_run, hfirst]
    simp only
    rw [bind_run_ok (derefFile_run hf), trace_bind_run, bind_run_ok h₁,
      bind_run_ok h₂, bind_run_ok h₃, bind_run_ok h₄, modifyFile_unlink_run hf₄]
  · have hprev : w.fs.lruPrev ptr = some ptr :=
      (SelfHeadedList.first_eq_some_iff h).mp hfirst
    have hrest : (ptr :: rest).erase ptr = rest := List.erase_cons_head _ _
    rw [← hrest]
    refine SelfHeadedList.erase h List.mem_cons_self ?_ ?_ (fun x => ?_) fun x => ?_
    · show w₄.fs.lruFirst = _
      rw [hfirst₄, hfirst₃, hfirst₂, hfirst₁, if_pos hfirst]
    · show w₄.fs.lruLast = _
      rw [hlast₄, hlast₃, hlast₂, hlast₁, if_pos hfirst]
    · rw [lruNext_setPrev, lruNext_setNext hf₄, hn₄, hn₃, hn₂, hnext₁, hprev]
      by_cases hx : x = ptr
      · simp [hx]
      · simp [hx, Ne.symm hx]
    · rw [lruPrev_setPrev hf₅, lruPrev_setNext, hp₄, hp₃, hp₂, hprev₁, if_pos hfirst]
  · have hframe := (keepsLruFrame_lruDropFirst f.lruNext _ _ w₁ trivial h₁).2
    simp only [setPrev, setNext, setFile_fs_files, Function.update_of_ne hb, hfiles₄, hfiles₃,
      hfiles₂]
    exact hframe.files b
  · simp [setPrev, setNext, hf₄, CameraFilesystemFile.evicted, CameraFilesystemFile.unlinked,
      CameraFilesystemFile.setSlot]
  · have hsum : (w.lruEntry ptr f).total = contentSize (w.content f .normal) +
        contentSize (w.content f .raw) + contentSize (w.content f .audio) := rfl
    rw [hsum] at hle ⊢
    rw [hc₁] at hsize₂
    rw [hc₂] at hsize₃
    rw [hc₃] at hsize₄
    have h₂' := hsize₂ (by omega) (by omega)
    have h₃' := hsize₃ (by omega) (by omega)
    have h₄' := hsize₄ (by omega) (by omega)
    show w₄.fs.lruSize = _
    omega

/-- An entry is evicted with success only if all its contents can tell their size. -/
theorem lruFreeSlot_ok
    (hf : w.fs.files ptr = some f) (h : lruFreeSlot ptr type w = some (.ok (), w')) :
    contentSized (w.content f type) ∧
      w'.fs.files = Function.update w.fs.files ptr (some (f.setSlot none type)) ∧
      w'.cameraFile = w.cameraFile := by
  have hsized : contentSized (w.content f type) := by
    obtain ⟨f', hf', h⟩ := derefFile_bind_eq_some.mp h
    rw [hf, Option.some.injEq] at hf'
    subst hf'
    unfold World.content
    cases hslot : f.slot type with
    | none => rfl
    | some r =>
      simp only [hslot] at h
      obtain ⟨n, w₁, hsize, -⟩ := bind_eq_ok.mp h
      rw [cameraFileSize_run, Option.some.injEq, Prod.mk.injEq] at hsize
      rw [Option.map_some, hsize.1]
      rfl
  obtain ⟨w₁, h₁, hfiles, -, -, hcam, -⟩ := lruFreeSlot_run type hf hsized
  rw [h, Option.some.injEq, Prod.mk.injEq] at h₁
  obtain ⟨-, rfl⟩ := h₁
  exact ⟨hsized, hfiles, hcam⟩

/-- An eviction that succeeds takes the first entry off the list, with its contents. -/
theorem lruFree_ok (h : w.fs.LruChain l) (hrun : gpFilesystemLruFree w = some (.ok (), w')) :
    ∃ ptr rest f, l = ptr :: rest ∧ w.fs.files ptr = some f ∧ w'.fs.LruChain rest ∧
      (∀ b, b ≠ ptr →
        (w'.fs.files b).map (·.unlinked) = (w.fs.files b).map (·.unlinked)) ∧
      w'.fs.files ptr = some f.evicted ∧ w'.cameraFile = w.cameraFile := by
  have hrun' := hrun
  unfold gpFilesystemLruFree at hrun'
  rw [get_bind_run] at hrun'
  cases l with
  | nil =>
    rw [(SelfHeadedList.first_eq_none_iff h).mpr rfl] at hrun'
    cases hrun'
  | cons ptr rest =>
    have hfirst : w.fs.lruFirst = some ptr := first_eq h
    simp only [hfirst] at hrun'
    obtain ⟨f, hf, hrun'⟩ := derefFile_bind_eq_some.mp hrun'
    rw [trace_bind_run] at hrun'
    obtain ⟨w₁, h₁, -, -, -, -, hf₁, hcam₁, -⟩ := lruDropFirst_run
      { w with log := w.log ++ [.lruFree (w.lruEntry ptr f)] } h hf rfl
    rw [bind_run_ok h₁] at hrun'
    -- Each of the three contents could tell its size.
    obtain ⟨_, w₂, h₂, hrun'⟩ := bind_eq_ok.mp hrun'
    obtain ⟨hnormal, hfiles₂, hcam₂⟩ := lruFreeSlot_ok hf₁ h₂
    have hf₂ : w₂.fs.files ptr = some (f.setSlot none .normal) := by simp [hfiles₂]
    obtain ⟨_, w₃, h₃, hrun'⟩ := bind_eq_ok.mp hrun'
    obtain ⟨hraw, hfiles₃, hcam₃⟩ := lruFreeSlot_ok hf₂ h₃
    have hf₃ : w₃.fs.files ptr = some ((f.setSlot none .normal).setSlot none .raw) := by
      simp [hfiles₃]
    obtain ⟨_, w₄, h₄, -⟩ := bind_eq_ok.mp hrun'
    obtain ⟨haudio, -, -⟩ := lruFreeSlot_ok hf₃ h₄
    have hsized : (w.lruEntry ptr f).sized := by
      unfold World.content at hnormal hraw haudio
      rw [hcam₁] at hnormal
      rw [hcam₂, hcam₁] at hraw
      rw [hcam₃, hcam₂, hcam₁] at haudio
      simp only [LruEntry.sized, Bool.and_eq_true]
      exact ⟨⟨hnormal, hraw⟩, haudio⟩
    obtain ⟨w₅, h₅, hchain, hother, hptr, hcam, -⟩ := lruFree_run h hf hsized
    rw [hrun, Option.some.injEq, Prod.mk.injEq] at h₅
    obtain ⟨-, rfl⟩ := h₅
    exact ⟨ptr, rest, f, rfl, hf, hchain, hother, hptr, hcam⟩

/-! ### Accounting -/

theorem lruUncount_run (hbig : type.big) :
    (contentSized (w.content f type) = false ∧ ∃ e, lruUncount f type w = some (.error e, w)) ∨
    ∃ size, lruUncount f type w = some (.ok (), w.setLruSize size) ∧
      (contentSize (w.content f type) ≤ w.fs.lruSize → w.fs.lruSize < 2 ^ 64 →
        size = w.fs.lruSize - contentSize (w.content f type)) := by
  have hslot : lruUncount f type w = (uncountSlot (f.slot type) : Fs σ Unit) w := by
    rcases hbig with rfl | rfl | rfl <;> rfl
  rw [hslot]
  unfold World.content
  cases hc : f.slot type with
  | none => exact Or.inr ⟨w.fs.lruSize, rfl, fun _ _ => by simp [contentSize]⟩
  | some oldfile =>
    simp only [Option.map_some]
    cases hsize : gpFileGetSize (w.cameraFile oldfile) with
    | error e =>
      exact Or.inl ⟨rfl, e, Comp.bind_run_error (cameraFileSize_error hsize)⟩
    | ok n =>
      refine Or.inr ⟨ulongSub w.fs.lruSize n, ?_, fun hle hlt => ulongSub_eq hle hlt⟩
      exact (bind_run_ok (cameraFileSize_ok hsize)).trans (Comp.modify_run _ _)

theorem lruDetach_run {xfile : FileAddr}
    (h : w.fs.LruChain l) (hf : w.fs.files xfile = some f) (hbig : type.big) :
    (xfile ∈ l ∧ contentSized (w.content f type) = false ∧
      ∃ e, lruDetach xfile type w = some (.error e, w)) ∨
    ∃ w', lruDetach xfile type w = some (.ok (), w') ∧ w'.fs.LruChain (l.erase xfile) ∧
      (xfile ∉ l → w'.fs.lruSize = w.fs.lruSize) ∧
      (xfile ∈ l → contentSize (w.content f type) ≤ w.fs.lruSize → w.fs.lruSize < 2 ^ 64 →
        w'.fs.lruSize = w.fs.lruSize - contentSize (w.content f type)) := by
  unfold lruDetach
  rw [bind_run_ok (derefFile_run hf), ← lruPrev_eq hf]
  by_cases hmem : xfile ∈ l
  · rw [if_pos ((prev_ne_none_iff h xfile).mpr hmem)]
    rcases lruUncount_run (w := w) (f := f) hbig with ⟨hsized, e, he⟩ | ⟨size, hrun, hsize⟩
    · exact Or.inl ⟨hmem, hsized, e, Comp.bind_run_error he⟩
    · obtain ⟨w', hremove, hchain, hsame⟩ := lruRemoveOne_run (w := w.setLruSize size) h hmem
      refine Or.inr ⟨w', by rw [bind_run_ok hrun, hremove], hchain,
        fun hn => absurd hmem hn, fun _ hle hlt => ?_⟩
      rw [hsame]
      exact hsize hle hlt
  · rw [if_neg fun hp => hmem ((prev_ne_none_iff h xfile).mp hp)]
    exact Or.inr ⟨w, rfl, by rwa [List.erase_of_not_mem hmem], fun _ => rfl,
      fun hm => absurd hm hmem⟩

/-- The accounting puts the entry at the end of the list, or fails without a change because
the content it is to replace cannot tell its size. -/
theorem lruInsert_run {xfile : FileAddr}
    {file : CameraFileRef} {size : Nat} (h : w.fs.LruChain l)
    (hf : w.fs.files xfile = some f) (hbig : type.big)
    (hsize : gpFileGetSize (w.cameraFile file) = .ok size) :
    (xfile ∈ l ∧ contentSized (w.content f type) = false ∧
      ∃ e, lruInsert xfile type file size w = some (.error e,
        { w with log := w.log ++ [.lruUpdate (w.lruEntry xfile f) type size w.fs.lruSize] })) ∨
    ∃ w', lruInsert xfile type file size w = some (.ok (), w') ∧
      w'.fs.LruChain (l.erase xfile ++ [xfile]) ∧
      (xfile ∉ l → w.fs.lruSize + size < 2 ^ 64 → w'.fs.lruSize = w.fs.lruSize + size) ∧
      (xfile ∈ l → contentSize (w.content f type) ≤ w.fs.lruSize → w.fs.lruSize < 2 ^ 64 →
        w.fs.lruSize - contentSize (w.content f type) + size < 2 ^ 64 →
        w'.fs.lruSize = w.fs.lruSize - contentSize (w.content f type) + size) := by
  have hrun : lruInsert xfile type file size w = (do
      lruDetach xfile type
      lruAttach xfile
      let size ← cameraFileSize file
      Comp.modify fun w => w.setLruSize (ulongAdd w.fs.lruSize size) : Fs σ Unit)
        { w with log := w.log ++ [.lruUpdate (w.lruEntry xfile f) type size w.fs.lruSize] } := by
    unfold lruInsert
    rw [bind_run_ok (derefFile_run hf), get_bind_run, trace_bind_run]
  rw [hrun]
  generalize hw₀ : ({ w with log := _ } : World σ) = w₀
  have hfs : w₀.fs = w.fs := by rw [← hw₀]
  have hcam : w₀.cameraFile = w.cameraFile := by rw [← hw₀]
  have hcontent : w₀.content f type = w.content f type := by
    unfold World.content
    rw [hcam]
  rw [← hfs] at h hf
  rcases lruDetach_run h hf hbig with
    ⟨hmem, hsized, e, he⟩ | ⟨w₁, hdetach, hchain₁, hoff, hon⟩
  · exact Or.inl ⟨hmem, hcontent ▸ hsized, e, Comp.bind_run_error he⟩
  · have hframe₁ := (keepsLruFrame_lruDetach xfile type w₀ _ w₁ trivial hdetach).2
    obtain ⟨f₁, hf₁⟩ := Option.isSome_iff_exists.mp ((hframe₁.isSome xfile).trans (by simp [hf]))
    obtain ⟨w₂, hattach, hchain₂, hsize₂⟩ := lruAttach_run hchain₁ hf₁
      fun hm => (h.nodup.mem_erase_iff.mp hm).1 rfl
    have hframe₂ := (keepsLruFrame_lruAttach xfile w₁ _ w₂ trivial hattach).2
    have hfile : gpFileGetSize (w₂.cameraFile file) = .ok size := by
      rw [hframe₂.cameraFile, hframe₁.cameraFile, hcam, hsize]
    refine Or.inr ⟨w₂.setLruSize (ulongAdd w₂.fs.lruSize size), ?_, hchain₂, ?_, ?_⟩
    · rw [bind_run_ok hdetach, bind_run_ok hattach,
        bind_run_ok (cameraFileSize_ok hfile),
        Comp.modify_run]
    · intro hmem hlt
      show ulongAdd w₂.fs.lruSize size = _
      rw [hsize₂, hoff hmem, hfs, ulongAdd_eq hlt]
    · intro hmem hle hlt hlt'
      have hsub := hon hmem (by rw [hcontent, hfs]; exact hle) (by rw [hfs]; exact hlt)
      rw [hcontent, hfs] at hsub
      show ulongAdd w₂.fs.lruSize size = _
      rw [hsize₂, hsub, ulongAdd_eq hlt']

end

end GPhoto2

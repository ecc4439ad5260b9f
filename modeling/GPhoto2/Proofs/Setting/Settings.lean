import GPhoto2.Lib.KeyedList
import GPhoto2.Setting.Setting

/-!
# `GPhoto2.Proofs.Setting.Settings`: the array of settings over a run

`fileSettings` is what `load_settings` finds in the file. `SettingOp.exec_cases` describes
every call by the texts in the array before and after: the call has a defined outcome if and
only if all it copies has room (`SettingOp.Copies`).

`settings_intact_iff`: over a run that starts with an empty array, every call has a defined
outcome, the pairs of frontend and key stay unique and `gp_setting_get` answers with the value
accepted last, if and only if each call has the room it needs and the files that are loaded hold
no pair twice.
-/

set_option autoImplicit false

namespace GPhoto2

open Lib
open Lib.Comp (bind_assoc bind_run_none bind_run_ok get_bind_run)

/-! ### Texts -/

/-- The three texts of an entry. -/
structure SettingText where
  id : CString
  key : CString
  value : CString
deriving DecidableEq

namespace SettingText

/-- What an entry is found by. -/
def pair (t : SettingText) : CString × CString := (t.id, t.key)

/-- Each text has room in a `char [256]`. -/
def Fits (t : SettingText) : Prop := t.id.length < 256 ∧ t.key.length < 256 ∧ t.value.length < 256

instance (t : SettingText) : Decidable t.Fits := inferInstanceAs (Decidable (_ ∧ _ ∧ _))

end SettingText

/-- The texts of an entry. -/
def Setting.text (x : Setting) : SettingText := ⟨x.id.text, x.key.text, x.value.text⟩

/-- The texts in the array. -/
def SettingWorld.texts (w : SettingWorld) : List SettingText := w.glob.entries.map Setting.text

theorem Setting.text_fits (x : Setting) : x.text.Fits := ⟨x.id.fits, x.key.fits, x.value.fits⟩

theorem SettingWorld.length_texts (w : SettingWorld) :
    w.texts.length = w.glob.entries.length := List.length_map ..

variable {w : SettingWorld}

theorem SettingWorld.texts_eq_nil : w.texts = [] ↔ w.glob.entries = [] :=
  List.map_eq_nil_iff

/-- The array now holds these texts, and the file is as it was. -/
structure SettingWorld.Holds (w w' : SettingWorld) (ts : List SettingText) : Prop where
  texts : w'.texts = ts
  file : w'.file = w.file
  writable : w'.writable = w.writable

/-- There is room for the texts behind so many entries. -/
def Copied (ts : List SettingText) (n : Nat) : Prop :=
  (∀ t ∈ ts, t.Fits) ∧ n + ts.length ≤ 512

instance (ts : List SettingText) (n : Nat) : Decidable (Copied ts n) :=
  inferInstanceAs (Decidable (_ ∧ _))

/-! ### Copying -/

/-- Copy the texts of a new entry. -/
def addText (t : SettingText) : SettingM Unit := do
  let id ← strcpyField t.id
  let key ← strcpyField t.key
  let value ← strcpyField t.value
  addSetting ⟨id, key, value⟩

theorem strcpyField_run {s : CString} (h : s.length < 256) (w : SettingWorld) :
    strcpyField s w = some (.ok ⟨s, h⟩, w) := by
  unfold strcpyField
  rw [dif_pos h]
  rfl

theorem strcpyField_none {s : CString} (h : ¬ s.length < 256) (w : SettingWorld) :
    strcpyField s w = none := by
  unfold strcpyField
  rw [dif_neg h]
  rfl

theorem addText_run {t : SettingText} (h : Copied [t] w.texts.length) :
    ∃ w', addText t w = some (.ok (), w') ∧ w.Holds w' (w.texts ++ [t]) := by
  obtain ⟨hfits, hroom⟩ := h
  obtain ⟨hid, hkey, hvalue⟩ := hfits t (List.mem_singleton_self t)
  have hlt : w.glob.entries.length < 512 := by
    rw [← w.length_texts]
    exact hroom
  unfold addText
  rw [bind_run_ok (strcpyField_run hid w), bind_run_ok (strcpyField_run hkey w),
    bind_run_ok (strcpyField_run hvalue w)]
  unfold addSetting
  rw [get_bind_run, dif_pos hlt]
  refine ⟨_, rfl, ?_, rfl, rfl⟩
  simp [SettingWorld.texts, Setting.text]

theorem addText_none {t : SettingText} (h : ¬ Copied [t] w.texts.length) :
    addText t w = none := by
  unfold addText
  by_cases hid : t.id.length < 256
  swap
  · exact bind_run_none (strcpyField_none hid w)
  rw [bind_run_ok (strcpyField_run hid w)]
  by_cases hkey : t.key.length < 256
  swap
  · exact bind_run_none (strcpyField_none hkey w)
  rw [bind_run_ok (strcpyField_run hkey w)]
  by_cases hvalue : t.value.length < 256
  swap
  · exact bind_run_none (strcpyField_none hvalue w)
  rw [bind_run_ok (strcpyField_run hvalue w)]
  have hfull : ¬ w.glob.entries.length < 512 := by
    intro hlt
    refine h ⟨fun u hu => ?_, ?_⟩
    · rw [List.mem_singleton.mp hu]
      exact ⟨hid, hkey, hvalue⟩
    · rw [w.length_texts]
      exact hlt
  unfold addSetting
  rw [get_bind_run, dif_neg hfull]
  rfl

/-! ### Loading -/

/-- What a line of the file says: nothing if it is short, and `none` if a token is missing. -/
def lineSettings (line : List Char) : Option (List SettingText) :=
  let buf := cstr line
  if 2 < buf.length then
    (strtok ['='] buf.dropLast).bind fun p => (strtok ['='] p.2).map fun q =>
      [⟨p.1, q.1, ((strtok [] q.2).map Prod.fst).getD []⟩]
  else some []

/-- What the lines of the file say. -/
def linesSettings : List (List Char) → Option (List SettingText)
  | [] => some []
  | line :: lines => (lineSettings line).bind fun ts => (linesSettings lines).map (ts ++ ·)

/-- The file can be read, and passes `verify_settings`. -/
def verified (content : List Char) : Bool := (fgetsLines 1022 content).all verifiesLine

/-- What the settings file says. A file that does not pass is dropped. -/
def fileSettings (file : Option (List Char)) : Option (List SettingText) :=
  match file with
  | none => some []
  | some content => if verified content then linesSettings (fgetsLines 1022 content) else some []

/-- The settings file after it was looked at. -/
def keptFile (file : Option (List Char)) : Option (List Char) := file.filter verified

theorem loadLine_cases (line : List Char) (w : SettingWorld) :
    (∃ ts w', lineSettings line = some ts ∧ Copied ts w.texts.length ∧
      loadLine line w = some (.ok (), w') ∧ w.Holds w' (w.texts ++ ts)) ∨
    ((∀ ts, lineSettings line = some ts → ¬ Copied ts w.texts.length) ∧
      loadLine line w = none) := by
  unfold lineSettings loadLine
  by_cases hlen : 2 < (cstr line).length
  swap
  · simp only [if_neg hlen]
    refine Or.inl ⟨[], w, rfl, ⟨fun t ht => absurd ht List.not_mem_nil, ?_⟩, rfl, ?_, rfl, rfl⟩
    · rw [w.length_texts]
      exact w.glob.count_le
    · rw [List.append_nil]
  simp only [if_pos hlen]
  cases hid : strtok ['='] (cstr line).dropLast with
  | none => exact Or.inr ⟨fun ts h => (by cases h), rfl⟩
  | some p =>
    obtain ⟨id, rest⟩ := p
    simp only [Option.bind_some]
    cases hkey : strtok ['='] rest with
    | none =>
      refine Or.inr ⟨fun ts h => (by cases h), ?_⟩
      by_cases hfits : id.length < 256
      · exact (bind_run_ok (strcpyField_run hfits w)).trans rfl
      · exact bind_run_none (strcpyField_none hfits w)
    | some q =>
      obtain ⟨key, rest⟩ := q
      simp only [Option.map_some]
      by_cases hcopied : Copied [⟨id, key, ((strtok [] rest).map Prod.fst).getD []⟩]
          w.texts.length
      · obtain ⟨w', hrun, hholds⟩ := addText_run hcopied
        exact Or.inl ⟨_, w', rfl, hcopied, hrun, hholds⟩
      · refine Or.inr ⟨fun ts h => ?_, addText_none hcopied⟩
        cases h
        exact hcopied

theorem loadLines_cases (lines : List (List Char)) (w : SettingWorld) :
    (∃ ts w', linesSettings lines = some ts ∧ Copied ts w.texts.length ∧
      lines.forM loadLine w = some (.ok (), w') ∧ w.Holds w' (w.texts ++ ts)) ∨
    ((∀ ts, linesSettings lines = some ts → ¬ Copied ts w.texts.length) ∧
      lines.forM loadLine w = none) := by
  induction lines generalizing w with
  | nil =>
    refine Or.inl ⟨[], w, rfl, ⟨fun t ht => absurd ht List.not_mem_nil, ?_⟩, rfl, ?_, rfl, rfl⟩
    · rw [w.length_texts]
      exact w.glob.count_le
    · rw [List.append_nil]
  | cons line lines ih =>
    show (∃ ts w', (lineSettings line).bind _ = some ts ∧ _ ∧
      (loadLine line >>= fun _ => lines.forM loadLine) w = some (.ok (), w') ∧ _) ∨
      ((∀ ts, (lineSettings line).bind _ = some ts → _) ∧
        (loadLine line >>= fun _ => lines.forM loadLine) w = none)
    rcases loadLine_cases line w with ⟨ts, w₁, hts, hcopied, hrun, hholds⟩ | ⟨hnot, hrun⟩
    swap
    · -- the line has no room, or a token is missing
      refine Or.inr ⟨fun ts h hcopied => ?_, bind_run_none hrun⟩
      obtain ⟨ts₁, hts₁, h⟩ := Option.bind_eq_some_iff.mp h
      obtain ⟨ts₂, -, rfl⟩ := Option.map_eq_some_iff.mp h
      refine hnot ts₁ hts₁ ⟨fun t ht => hcopied.1 t (List.mem_append_left _ ht), ?_⟩
      have hroom := hcopied.2
      rw [List.length_append] at hroom
      omega
    rw [bind_run_ok hrun, hts, Option.bind_some]
    have hlen : w₁.texts.length = w.texts.length + ts.length := by
      rw [hholds.texts, List.length_append]
    rcases ih w₁ with ⟨ts', w₂, hts', hcopied', hrun', hholds'⟩ | ⟨hnot, hrun'⟩
    · refine Or.inl ⟨ts ++ ts', w₂, by rw [hts']; rfl, ⟨fun t ht => ?_, ?_⟩, hrun', ?_,
        hholds'.file.trans hholds.file, hholds'.writable.trans hholds.writable⟩
      · exact (List.mem_append.mp ht).elim (hcopied.1 t) (hcopied'.1 t)
      · have hroom := hcopied'.2
        rw [List.length_append]
        omega
      · rw [hholds'.texts, hholds.texts, List.append_assoc]
    · refine Or.inr ⟨fun all h hcopied => ?_, hrun'⟩
      obtain ⟨ts', hts', rfl⟩ := Option.map_eq_some_iff.mp h
      refine hnot ts' hts' ⟨fun t ht => hcopied.1 t (List.mem_append_right _ ht), ?_⟩
      have hroom := hcopied.2
      rw [List.length_append] at hroom
      omega

/-- The file can be loaded: no token is missing and there is room for all entries. -/
def Loads (file : Option (List Char)) : Prop := ∃ ts, fileSettings file = some ts ∧ Copied ts 0

/-- `load_settings`: the array holds what the file says. -/
theorem loadSettings_cases (w : SettingWorld) :
    (∃ ts r w', fileSettings w.file = some ts ∧ Copied ts 0 ∧
      loadSettings w = some (.ok r, w') ∧ w'.texts = ts ∧ w'.file = keptFile w.file ∧
      w'.writable = w.writable) ∨
    (¬ Loads w.file ∧ loadSettings w = none) := by
  have hnil : Copied [] 0 := ⟨fun t ht => absurd ht List.not_mem_nil, Nat.zero_le _⟩
  unfold loadSettings
  rw [Comp.modify_bind_run]
  generalize hw₀ : ({ w with glob := ⟨[], Nat.zero_le _⟩ } : SettingWorld) = w₀
  have hfile : w₀.file = w.file := by rw [← hw₀]
  have hwritable : w₀.writable = w.writable := by rw [← hw₀]
  have htexts : w₀.texts = [] := by rw [← hw₀]; rfl
  unfold Loads
  rw [← hfile, ← hwritable]
  cases hcontent : w₀.file with
  | none =>
    have hverify : verifySettings w₀ = some (.ok 0, w₀) := by
      unfold verifySettings
      rw [get_bind_run, hcontent]
      rfl
    refine Or.inl ⟨[], gpError, w₀, rfl, hnil, ?_, htexts, hcontent, rfl⟩
    rw [bind_run_ok hverify, if_neg (by simp), get_bind_run, hcontent]
    rfl
  | some content =>
    by_cases hok : verified content = true
    · have hverify : verifySettings w₀ = some (.ok 0, w₀) := by
        unfold verifySettings
        rw [get_bind_run, hcontent]
        exact congrFun (if_pos hok) w₀
      have hsettings : fileSettings (some content) = linesSettings (fgetsLines 1022 content) :=
        if_pos hok
      have hkept : keptFile (some content) = some content := by
        simp [keptFile, hok]
      rw [bind_run_ok hverify, if_neg (by simp), get_bind_run, hcontent, hsettings,
        hkept]
      rcases loadLines_cases (fgetsLines 1022 content) w₀ with
        ⟨ts, w', hts, hcopied, hrun, hholds⟩ | ⟨hnot, hrun⟩
      · rw [htexts] at hcopied
        have htexts' := hholds.texts
        rw [htexts, List.nil_append] at htexts'
        exact Or.inl ⟨ts, 0, w', hts, hcopied, bind_run_ok hrun, htexts',
          hholds.file.trans hcontent, hholds.writable⟩
      · rw [htexts] at hnot
        exact Or.inr ⟨fun ⟨ts, hts, hcopied⟩ => hnot ts hts hcopied, bind_run_none hrun⟩
    · have hverify : verifySettings w₀ = some (.ok gpError, { w₀ with file := none }) := by
        unfold verifySettings
        rw [get_bind_run, hcontent]
        exact congrFun (if_neg hok) w₀
      have hkept : keptFile (some content) = none := by
        simp [keptFile, hok]
      refine Or.inl ⟨[], 0, { w₀ with file := none }, if_neg hok, hnil, ?_, htexts, hkept.symm,
        rfl⟩
      rw [bind_run_ok hverify, if_pos (by decide)]
      rfl

/-! ### Storing -/

variable {id key : CString}

theorem Setting.isFor_iff {x : Setting} :
    x.isFor id key = true ↔ x.text.pair = (id, key) := by
  simp [Setting.isFor, Setting.text, SettingText.pair]

variable {entries : List Setting}

theorem put_of_findIdx_some {x : Nat}
    (h : entries.findIdx? (·.isFor id key) = some x) (value : Field) :
    (entries.modify x fun s => { s with value := value }).map Setting.text =
      KeyedList.put SettingText.pair ⟨id, key, value.text⟩ (entries.map Setting.text) := by
  induction entries generalizing x with
  | nil => cases h
  | cons e entries ih =>
    rw [List.findIdx?_cons] at h
    by_cases he : e.isFor id key = true
    · rw [if_pos he] at h
      cases h
      have hpair : e.text.pair = SettingText.pair ⟨id, key, value.text⟩ := Setting.isFor_iff.mp he
      show { e with value := value }.text :: entries.map Setting.text =
        if e.text.pair = _ then _ else _
      rw [if_pos hpair]
      have hid : e.id.text = id := congrArg Prod.fst hpair
      have hkey : e.key.text = key := congrArg Prod.snd hpair
      rw [Setting.text, hid, hkey]
    · rw [if_neg he] at h
      obtain ⟨y, hy, rfl⟩ := Option.map_eq_some_iff.mp h
      have hpair : ¬ e.text.pair = SettingText.pair ⟨id, key, value.text⟩ :=
        fun hp => he (Setting.isFor_iff.mpr hp)
      show e.text :: (entries.modify y _).map Setting.text = if e.text.pair = _ then _ else _
      rw [if_neg hpair, ih hy]

theorem not_mem_of_findIdx_none (h : entries.findIdx? (·.isFor id key) = none) :
    (id, key) ∉ (entries.map Setting.text).map SettingText.pair := by
  intro hmem
  obtain ⟨t, ht, hpair⟩ := List.mem_map.mp hmem
  obtain ⟨e, he, rfl⟩ := List.mem_map.mp ht
  have hnot := List.findIdx?_eq_none_iff.mp h e he
  rw [Setting.isFor_iff.mpr hpair] at hnot
  cases hnot

theorem mem_of_findIdx_some {x : Nat}
    (h : entries.findIdx? (·.isFor id key) = some x) :
    (id, key) ∈ (entries.map Setting.text).map SettingText.pair := by
  obtain ⟨hlt, hfor, -⟩ := List.findIdx?_eq_some_iff_getElem.mp h
  rw [← Setting.isFor_iff.mp hfor]
  exact List.mem_map_of_mem (List.mem_map_of_mem (List.getElem_mem hlt))

/-- There is room for the value, and for a new entry if the pair is new. -/
def HasRoom (t : SettingText) (ts : List SettingText) : Prop :=
  t.value.length < 256 ∧ (t.pair ∈ ts.map SettingText.pair ∨ Copied [t] ts.length)

theorem storeSetting_cases (t : SettingText) (w : SettingWorld) :
    (∃ w', HasRoom t w.texts ∧ storeSetting t.id t.key t.value w = some (.ok (), w') ∧
      w.Holds w' (KeyedList.put SettingText.pair t w.texts)) ∨
    (¬ HasRoom t w.texts ∧ storeSetting t.id t.key t.value w = none) := by
  unfold storeSetting
  rw [get_bind_run]
  cases hfind : w.glob.entries.findIdx? (·.isFor t.id t.key) with
  | some x =>
    have hmem : t.pair ∈ w.texts.map SettingText.pair := mem_of_findIdx_some hfind
    by_cases hvalue : t.value.length < 256
    · refine Or.inl ⟨_, ⟨hvalue, Or.inl hmem⟩,
        bind_run_ok (strcpyField_run hvalue w), ?_, rfl, rfl⟩
      exact put_of_findIdx_some hfind ⟨t.value, hvalue⟩
    · exact Or.inr ⟨fun h => hvalue h.1, bind_run_none (strcpyField_none hvalue w)⟩
  | none =>
    have hmem : t.pair ∉ w.texts.map SettingText.pair := not_mem_of_findIdx_none hfind
    have hput : KeyedList.put SettingText.pair t w.texts = w.texts ++ [t] :=
      KeyedList.put_of_not_mem SettingText.pair hmem
    rw [hput]
    by_cases hcopied : Copied [t] w.texts.length
    · obtain ⟨w', hrun, hholds⟩ := addText_run hcopied
      have hvalue := (hcopied.1 t (List.mem_singleton_self t)).2.2
      exact Or.inl ⟨w', ⟨hvalue, Or.inr hcopied⟩, hrun, hholds⟩
    · exact Or.inr ⟨fun h => h.2.elim hmem hcopied, addText_none hcopied⟩

/-! ### Calls -/

/-- `save_settings` leaves the array alone. -/
theorem saveSettings_run (w : SettingWorld) :
    ∃ w', saveSettings w = some (.ok 0, w') ∧ w'.glob = w.glob ∧ w'.writable = w.writable ∧
      (w.writable = true → w'.file = some (w.glob.entries.flatMap settingLine)) := by
  unfold saveSettings
  rw [get_bind_run]
  by_cases hw : w.writable = true
  · rw [if_pos hw]
    exact ⟨_, rfl, rfl, rfl, fun _ => rfl⟩
  · rw [if_neg hw]
    exact ⟨w, rfl, rfl, rfl, fun h => absurd h hw⟩

/-- What `gp_setting_get` answers when the array holds these texts. -/
def answerOf (id key : CString) (ts : List SettingText) : Int × CString :=
  match KeyedList.lookup SettingText.pair (id, key) ts with
  | some t => (0, t.value)
  | none => (gpError, [])

theorem find_isFor (entries : List Setting) (id key : CString) :
    KeyedList.lookup SettingText.pair (id, key) (entries.map Setting.text) =
      (entries.find? (·.isFor id key)).map Setting.text := by
  have hfor : ((fun t : SettingText => decide (t.pair = (id, key))) ∘ Setting.text) =
      fun x : Setting => x.isFor id key := by
    funext x
    rw [Bool.eq_iff_iff, Setting.isFor_iff]
    exact decide_eq_true_iff
  unfold KeyedList.lookup
  rw [List.find?_map, hfor]

namespace SettingOp

/-- The call reads the settings file. -/
def loads (op : SettingOp) (w : SettingWorld) : Bool :=
  match op with
  | set (some _) (some _) _ | get (some _) (some _) => w.glob.entries = []
  | load => true
  | _ => false

/-- What the array holds when the call looks at it. -/
def found (op : SettingOp) (w : SettingWorld) : Option (List SettingText) :=
  if op.loads w then fileSettings w.file else some w.texts

/-- The entry a call stores. -/
def stores : SettingOp → Option SettingText
  | set (some id) (some key) value => some ⟨id, key, value⟩
  | _ => none

/-- What the array holds after the call. -/
def after (op : SettingOp) (ts : List SettingText) : List SettingText :=
  match op.stores with
  | some t => KeyedList.put SettingText.pair t ts
  | none => ts

/-- There is room for all the call copies. -/
def Copies (op : SettingOp) (w : SettingWorld) : Prop :=
  (op.loads w = true → Loads w.file) ∧
    ∀ ts t, op.found w = some ts → op.stores = some t → HasRoom t ts

/-- The answer is that of the array. -/
def Answers (op : SettingOp) (r : Except Int (Option (Int × CString)))
    (ts : List SettingText) : Prop :=
  ∀ id key, op = get (some id) (some key) → r = .ok (some (answerOf id key ts))

end SettingOp

/-- What `gp_setting_get` and `gp_setting_set` begin with. -/
def loadIfEmpty : SettingM Unit := do
  let w ← Comp.get
  if w.glob.entries = [] then do
    let _ ← loadSettings

theorem loadIfEmpty_cases (w : SettingWorld) :
    (∃ ts w', (if w.glob.entries = [] then fileSettings w.file else some w.texts) = some ts ∧
      (w.glob.entries = [] → Loads w.file) ∧ loadIfEmpty w = some (.ok (), w') ∧
      w'.texts = ts) ∨
    ((w.glob.entries = [] ∧ ¬ Loads w.file) ∧ loadIfEmpty w = none) := by
  unfold loadIfEmpty
  rw [get_bind_run]
  by_cases hempty : w.glob.entries = []
  · simp only [if_pos hempty]
    rcases loadSettings_cases w with ⟨ts, r, w', hts, hcopied, hrun, htexts, -, -⟩ | ⟨hnot, hrun⟩
    · exact Or.inl ⟨ts, w', hts, fun _ => ⟨ts, hts, hcopied⟩, bind_run_ok hrun, htexts⟩
    · exact Or.inr ⟨⟨hempty, hnot⟩, bind_run_none hrun⟩
  · simp only [if_neg hempty]
    exact Or.inl ⟨w.texts, w, rfl, fun h => absurd h hempty, rfl, rfl⟩

theorem gpSettingSet_eq (id key value : CString) :
    gpSettingSet (some id) (some key) value = loadIfEmpty >>= fun _ =>
      storeSetting id key value >>= fun _ => saveSettings >>= fun _ => pure () := by
  funext w
  unfold gpSettingSet loadIfEmpty
  by_cases hempty : w.glob.entries = []
  · simp only [bind_assoc, get_bind_run, if_pos hempty]
    rfl
  · simp only [bind_assoc, get_bind_run, if_neg hempty]
    rfl

/-- The loop of `gp_setting_get`, and its end. -/
theorem answerOf_texts (id key : CString) (w : SettingWorld) :
    answerOf id key w.texts =
      ((w.glob.entries.find? (·.isFor id key)).map fun x => (0, x.value.text)).getD
        (gpError, []) := by
  unfold answerOf SettingWorld.texts
  rw [find_isFor]
  cases w.glob.entries.find? (·.isFor id key) with
  | some x => rfl
  | none => rfl

theorem gpSettingGet_eq (id key : CString) :
    gpSettingGet (some id) (some key) = loadIfEmpty >>= fun _ => Comp.get >>= fun w =>
      pure (answerOf id key w.texts) := by
  funext w
  unfold gpSettingGet loadIfEmpty
  simp only [answerOf_texts]
  by_cases hempty : w.glob.entries = []
  · simp only [bind_assoc, get_bind_run, if_pos hempty]
    refine congrFun (congrArg _ (funext fun _ => funext fun w' => ?_)) w
    rw [get_bind_run, Comp.pure_bind_run, get_bind_run]
    cases w'.glob.entries.find? (·.isFor id key) with
    | some x => rfl
    | none => rfl
  · simp only [bind_assoc, get_bind_run, if_neg hempty]
    rw [Comp.pure_bind_run, get_bind_run]
    cases w.glob.entries.find? (·.isFor id key) with
    | some x => rfl
    | none => rfl

namespace SettingOp

/-- A call has a defined outcome if and only if there is room for what it copies. -/
theorem exec_cases (op : SettingOp) (w : SettingWorld) :
    (∃ ts r w', op.found w = some ts ∧ op.Copies w ∧ op.exec w = some (r, w') ∧
      w'.texts = op.after ts ∧ op.Answers r ts) ∨
    (¬ op.Copies w ∧ op.exec w = none) := by
  have hother : op.loads w = false → op.stores = none →
      (∃ r w', op.exec w = some (r, w') ∧ w'.texts = w.texts) →
      (∀ id key, op ≠ get (some id) (some key)) →
      ∃ ts r w', op.found w = some ts ∧ op.Copies w ∧ op.exec w = some (r, w') ∧
        w'.texts = op.after ts ∧ op.Answers r ts := by
    rintro hloads hstores ⟨r, w', hrun, htexts⟩ hget
    refine ⟨w.texts, r, w', ?_, ⟨fun h => ?_, fun ts t _ h => ?_⟩, hrun, ?_, ?_⟩
    · rw [found, hloads]
      rfl
    · rw [hloads] at h
      cases h
    · rw [hstores] at h
      cases h
    · rw [after, hstores, htexts]
    · intro id key he
      exact absurd he (hget id key)
  cases op with
  | set id key value =>
    rcases id with _ | id
    · exact Or.inl (hother rfl rfl ⟨_, w, rfl, rfl⟩ fun _ _ h => by cases h)
    rcases key with _ | key
    · exact Or.inl (hother rfl rfl ⟨_, w, rfl, rfl⟩ fun _ _ h => by cases h)
    have hfound : found (set (some id) (some key) value) w =
        if w.glob.entries = [] then fileSettings w.file else some w.texts := by
      simp [found, loads]
    have hexec : exec (set (some id) (some key) value) = loadIfEmpty >>= fun _ =>
        storeSetting id key value >>= fun _ => saveSettings >>= fun _ => pure none := by
      show (gpSettingSet (some id) (some key) value >>= fun _ => pure none) = _
      rw [gpSettingSet_eq]
      simp only [bind_assoc]
      rfl
    rw [hexec, hfound]
    rcases loadIfEmpty_cases w with ⟨ts, w₁, hts, hloads, hrun, rfl⟩ | ⟨⟨hempty, hnot⟩, hrun⟩
    swap
    · refine Or.inr ⟨fun h => hnot (h.1 ?_), bind_run_none hrun⟩
      simpa [loads] using hempty
    rw [bind_run_ok hrun]
    rcases storeSetting_cases ⟨id, key, value⟩ w₁ with ⟨w₂, hroom, hstore, hholds⟩ | ⟨hno, hstore⟩
    · obtain ⟨w₃, hsave, hglob, -⟩ := saveSettings_run w₂
      refine Or.inl ⟨w₁.texts, _, w₃, hts, ⟨fun h => hloads ?_, ?_⟩,
        (bind_run_ok hstore).trans (bind_run_ok hsave), ?_, fun _ _ h => by cases h⟩
      · simpa [loads] using h
      · intro ts t hts' ht
        rw [hfound, hts] at hts'
        cases hts'
        cases ht
        exact hroom
      · show w₃.glob.entries.map Setting.text = _
        rw [hglob]
        exact hholds.texts
    · refine Or.inr ⟨fun h => hno (h.2 _ _ ?_ rfl), bind_run_none hstore⟩
      rw [hfound, hts]
  | get id key =>
    rcases id with _ | id
    · exact Or.inl (hother rfl rfl ⟨_, w, rfl, rfl⟩ fun _ _ h => by cases h)
    rcases key with _ | key
    · exact Or.inl (hother rfl rfl ⟨_, w, rfl, rfl⟩ fun _ _ h => by cases h)
    have hfound : found (get (some id) (some key)) w =
        if w.glob.entries = [] then fileSettings w.file else some w.texts := by
      simp [found, loads]
    have hexec : exec (get (some id) (some key)) = loadIfEmpty >>= fun _ => Comp.get >>=
        fun w => pure (some (answerOf id key w.texts)) := by
      show (gpSettingGet (some id) (some key) >>= fun answer => pure (some answer)) = _
      rw [gpSettingGet_eq]
      simp only [bind_assoc]
      rfl
    rw [hexec, hfound]
    rcases loadIfEmpty_cases w with ⟨ts, w₁, hts, hloads, hrun, rfl⟩ | ⟨⟨hempty, hnot⟩, hrun⟩
    · refine Or.inl ⟨w₁.texts, _, w₁, hts, ⟨fun h => hloads ?_, fun _ _ _ h => by cases h⟩,
        bind_run_ok hrun, rfl, ?_⟩
      · simpa [loads] using h
      · intro id' key' he
        cases he
        rfl
    · refine Or.inr ⟨fun h => hnot (h.1 ?_), bind_run_none hrun⟩
      simpa [loads] using hempty
  | load =>
    rcases loadSettings_cases w with ⟨ts, r, w', hts, hcopied, hrun, htexts, -⟩ | ⟨hnot, hrun⟩
    · exact Or.inl ⟨ts, _, w', hts, ⟨fun _ => ⟨ts, hts, hcopied⟩, fun _ _ _ h => by cases h⟩,
        bind_run_ok hrun, htexts, fun _ _ h => by cases h⟩
    · exact Or.inr ⟨fun h => hnot (h.1 rfl), bind_run_none hrun⟩
  | edit file writable =>
    exact Or.inl (hother rfl rfl ⟨_, _, rfl, rfl⟩ fun _ _ h => by cases h)

end SettingOp

/-! ### Runs -/

namespace SettingOp

/-- What has been accepted since the last time the file was read, oldest first, after the
call. -/
def accepted (op : SettingOp) (w : SettingWorld) (history : List SettingText) :
    List SettingText :=
  (if op.loads w then (fileSettings w.file).getD [] else history) ++ op.stores.toList

/-- The value accepted last for a frontend and key, as `gp_setting_get` has to answer. -/
def latestAnswer (id key : CString) (history : List SettingText) : Int × CString :=
  match KeyedList.latest SettingText.pair (id, key) history with
  | some t => (0, t.value)
  | none => (gpError, [])

/-- The call writes nowhere it has no room, and after it each pair is there once, with the
value accepted last. This is also what `gp_setting_get` answers. That no more than 512 entries
and no longer texts are there is part of their types. -/
def Intact (op : SettingOp) (w : SettingWorld) (history : List SettingText) : Prop :=
  ∃ r w', op.exec w = some (r, w') ∧ (w'.texts.map SettingText.pair).Nodup ∧
    (∀ id key, answerOf id key w'.texts = latestAnswer id key (op.accepted w history)) ∧
    ∀ id key, op = get (some id) (some key) →
      r = .ok (some (latestAnswer id key (op.accepted w history)))

/-- There is room for all the call copies, and a file it reads holds no pair twice. -/
def Within (op : SettingOp) (w : SettingWorld) : Prop :=
  op.Copies w ∧ (op.loads w = true →
    ∀ ts, fileSettings w.file = some ts → (ts.map SettingText.pair).Nodup)

end SettingOp

/-- Every call of the run leaves the settings intact. -/
def RunIntact : List SettingOp → SettingWorld → List SettingText → Prop
  | [], _, _ => True
  | op :: ops, w, history => op.Intact w history ∧
    ∀ r w', op.exec w = some (r, w') → RunIntact ops w' (op.accepted w history)

/-- Every call of the run has what it needs. -/
def RunWithin : List SettingOp → SettingWorld → Prop
  | [], _ => True
  | op :: ops, w => op.Within w ∧ ∀ r w', op.exec w = some (r, w') → RunWithin ops w'

/-- Each pair is there once, with what has been accepted for it last. -/
structure Current (ts history : List SettingText) : Prop where
  nodup : (ts.map SettingText.pair).Nodup
  latest : ∀ pair, KeyedList.lookup SettingText.pair pair ts =
    KeyedList.latest SettingText.pair pair history

variable {ts history : List SettingText}

theorem Current.answer (h : Current ts history)
    (id key : CString) : answerOf id key ts = SettingOp.latestAnswer id key history := by
  unfold answerOf SettingOp.latestAnswer
  rw [h.latest]

theorem Current.loaded (h : (ts.map SettingText.pair).Nodup) :
    Current ts ts := ⟨h, KeyedList.lookup_eq_latest SettingText.pair h⟩

theorem Current.after (h : Current ts history)
    (op : SettingOp) : Current (op.after ts) (history ++ op.stores.toList) := by
  unfold SettingOp.after
  cases op.stores with
  | none =>
    rw [Option.toList_none, List.append_nil]
    exact h
  | some t =>
    refine ⟨KeyedList.nodup_put SettingText.pair t h.nodup, fun pair => ?_⟩
    rw [Option.toList_some, KeyedList.lookup_put, KeyedList.latest_concat, h.latest]

theorem SettingOp.nodup_of_after {op : SettingOp}
    (h : ((op.after ts).map SettingText.pair).Nodup) : (ts.map SettingText.pair).Nodup := by
  unfold SettingOp.after at h
  cases hstores : op.stores with
  | none =>
    rw [hstores] at h
    exact h
  | some t =>
    rw [hstores] at h
    simp only [KeyedList.map_put] at h
    by_cases hmem : t.pair ∈ ts.map SettingText.pair
    · rwa [if_pos hmem] at h
    · rw [if_neg hmem] at h
      exact (List.nodup_append.mp h).1

section
variable {op : SettingOp} {w w' : SettingWorld} {history : List SettingText}

theorem Current.exec (h : Current w.texts history) (hwithin : op.Within w)
    {r : Except Int (Option (Int × CString))} (hrun : op.exec w = some (r, w')) :
    Current w'.texts (op.accepted w history) ∧
      ∀ id key, op = .get (some id) (some key) →
        r = .ok (some (SettingOp.latestAnswer id key (op.accepted w history))) := by
  rcases op.exec_cases w with ⟨ts, r', w₁, hts, -, hrun', htexts, hanswers⟩ | ⟨hnot, -⟩
  swap
  · exact absurd hwithin.1 hnot
  rw [hrun'] at hrun
  cases hrun
  -- the array and its history when the call looks at it
  have hbase : Current ts
      (if op.loads w = true then (fileSettings w.file).getD [] else history) := by
    unfold SettingOp.found at hts
    by_cases hloads : op.loads w = true
    · rw [if_pos hloads] at hts
      rw [if_pos hloads, hts]
      exact .loaded (hwithin.2 hloads ts hts)
    · rw [if_neg hloads] at hts
      cases hts
      rw [if_neg hloads]
      exact h
  have hafter := hbase.after op
  rw [← htexts] at hafter
  refine ⟨hafter, fun id key he => ?_⟩
  subst he
  have hanswer : answerOf id key ts =
      SettingOp.latestAnswer id key (SettingOp.accepted (.get (some id) (some key)) w history) := by
    rw [htexts] at hafter
    exact hafter.answer id key
  rw [hanswers id key rfl, hanswer]

/-- A call leaves the settings intact if and only if it has what it needs. -/
theorem SettingOp.intact_iff (h : Current w.texts history) :
    op.Intact w history ↔ op.Within w := by
  constructor
  · rintro ⟨r, w', hrun, hnodup, -⟩
    rcases op.exec_cases w with ⟨ts, r', w₁, hts, hcopies, hrun', htexts, -⟩ | ⟨-, hnone⟩
    · rw [hrun'] at hrun
      cases hrun
      refine ⟨hcopies, fun hloads ts' hts' => ?_⟩
      unfold SettingOp.found at hts
      rw [if_pos hloads, hts'] at hts
      cases hts
      rw [htexts] at hnodup
      exact SettingOp.nodup_of_after hnodup
    · rw [hnone] at hrun
      cases hrun
  · intro hwithin
    rcases op.exec_cases w with ⟨ts, r, w', -, -, hrun, -⟩ | ⟨hnot, -⟩
    · obtain ⟨hcurrent, hanswer⟩ := h.exec hwithin hrun
      exact ⟨r, w', hrun, hcurrent.nodup, hcurrent.answer, hanswer⟩
    · exact absurd hwithin.1 hnot

end

theorem runIntact_iff {ops : List SettingOp}
    (h : Current w.texts history) : RunIntact ops w history ↔ RunWithin ops w := by
  induction ops generalizing w history with
  | nil => exact Iff.rfl
  | cons op ops ih =>
    constructor
    · rintro ⟨hintact, hrest⟩
      have hwithin := (SettingOp.intact_iff h).mp hintact
      refine ⟨hwithin, fun r w' hrun => ?_⟩
      exact (ih (h.exec hwithin hrun).1).mp (hrest r w' hrun)
    · rintro ⟨hwithin, hrest⟩
      refine ⟨(SettingOp.intact_iff h).mpr hwithin, fun r w' hrun => ?_⟩
      exact (ih (h.exec hwithin hrun).1).mpr (hrest r w' hrun)

/-- No settings, and no file. -/
def noSettings : SettingWorld := ⟨⟨[], by simp⟩, none, true⟩

end GPhoto2

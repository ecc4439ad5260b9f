import GPhoto2.Proofs.Setting.Settings

/-!
# `GPhoto2.Proofs.Setting.SettingFile`: the settings file read back

`SettingText.IsPlain`: the frontend and the key are not empty and hold no equals sign, and no
text holds a newline. The loader lets only such texts in, whatever the file says
(`fileSettings_plain`), so every entry is plain if those given to `gp_setting_set` are
(`runSettings_plain`).

`settings_roundTrip`: then `load_settings` reads back what `save_settings` has written.
-/

set_option autoImplicit false

namespace GPhoto2

open Lib
open List (mem_append mem_cons_of_mem mem_cons_self mem_map mem_singleton not_mem_nil)

/-- A text without a newline. It ends at its terminating zero, so it holds none. -/
def IsLine (s : CString) : Prop := ∀ c ∈ s, c ≠ '\n' ∧ c ≠ '\x00'

/-- The text of a frontend or of a key, which has to be found again in a line. -/
def IsName (s : CString) : Prop := IsLine s ∧ s ≠ [] ∧ '=' ∉ s

/-- A value may be empty and may hold equals signs. -/
structure SettingText.IsPlain (t : SettingText) : Prop where
  id : IsName t.id
  key : IsName t.key
  value : IsLine t.value

/-! ### What the loader lets in -/

theorem isLine_of_subset {s t : CString} (h : s ⊆ t) (ht : IsLine t) : IsLine s :=
  fun c hc => ht c (h hc)

theorem isName_of_strtok {s id rest : CString} (hs : IsLine s)
    (h : strtok ['='] s = some (id, rest)) : IsName id ∧ IsLine rest := by
  obtain ⟨hne, hdelim, hid, hrest⟩ := strtok_eq_some h
  refine ⟨⟨isLine_of_subset hid hs, hne, fun hmem => ?_⟩, isLine_of_subset hrest hs⟩
  exact hdelim '=' hmem (List.mem_singleton_self _)

theorem isLine_buf {line : List Char} (h : '\n' ∉ line.dropLast) :
    IsLine (cstr line).dropLast := by
  intro c hc
  obtain ⟨tail, htail⟩ := cstr_prefix line
  constructor
  · rintro rfl
    refine h ?_
    rw [← htail]
    cases tail with
    | nil =>
      rw [List.append_nil]
      exact hc
    | cons d tail =>
      rw [List.dropLast_append_of_ne_nil (List.cons_ne_nil d tail)]
      exact List.mem_append_left _ (List.dropLast_subset _ hc)
  · rintro rfl
    exact nul_not_mem_cstr line (List.dropLast_subset _ hc)

variable {ts : List SettingText}

theorem lineSettings_plain {line : List Char} (hline : '\n' ∉ line.dropLast)
    (h : lineSettings line = some ts) : ∀ t ∈ ts, t.IsPlain := by
  unfold lineSettings at h
  by_cases hlen : 2 < (cstr line).length
  swap
  · simp only [if_neg hlen] at h
    cases h
    intro t ht
    exact absurd ht not_mem_nil
  simp only [if_pos hlen] at h
  obtain ⟨⟨id, rest⟩, hid, h⟩ := Option.bind_eq_some_iff.mp h
  obtain ⟨⟨key, rest'⟩, hkey, rfl⟩ := Option.map_eq_some_iff.mp h
  obtain ⟨hid, hrest⟩ := isName_of_strtok (isLine_buf hline) hid
  obtain ⟨hkey, hrest'⟩ := isName_of_strtok hrest hkey
  intro t ht
  rw [mem_singleton.mp ht]
  refine ⟨hid, hkey, ?_⟩
  show IsLine (((strtok [] rest').map Prod.fst).getD [])
  rw [strtok_nil]
  by_cases hempty : rest' = []
  · rw [if_pos hempty]
    intro c hc
    exact absurd hc not_mem_nil
  · rw [if_neg hempty]
    exact hrest'

theorem linesSettings_plain {lines : List (List Char)}
    (hlines : ∀ line ∈ lines, '\n' ∉ line.dropLast)
    (h : linesSettings lines = some ts) : ∀ t ∈ ts, t.IsPlain := by
  induction lines generalizing ts with
  | nil =>
    cases h
    intro t ht
    exact absurd ht not_mem_nil
  | cons line lines ih =>
    obtain ⟨ts₁, h₁, h⟩ := Option.bind_eq_some_iff.mp h
    obtain ⟨ts₂, h₂, rfl⟩ := Option.map_eq_some_iff.mp h
    intro t ht
    rcases mem_append.mp ht with ht | ht
    · exact lineSettings_plain (hlines line mem_cons_self) h₁ t ht
    · exact ih (fun l hl => hlines l (mem_cons_of_mem line hl)) h₂ t ht

theorem fileSettings_plain {file : Option (List Char)}
    (h : fileSettings file = some ts) : ∀ t ∈ ts, t.IsPlain := by
  unfold fileSettings at h
  cases file with
  | none =>
    cases h
    intro t ht
    exact absurd ht not_mem_nil
  | some content =>
    by_cases hok : verified content = true
    · simp only [if_pos hok] at h
      exact linesSettings_plain (fun line hl => newline_not_mem_fgetsLines hl) h
    · simp only [if_neg hok] at h
      cases h
      intro t ht
      exact absurd ht not_mem_nil

theorem SettingOp.exec_plain {op : SettingOp} {w w' : SettingWorld}
    {r : Except Int (Option (Int × CString))} (hop : ∀ t, op.stores = some t → t.IsPlain)
    (h : ∀ t ∈ w.texts, t.IsPlain) (hrun : op.exec w = some (r, w')) :
    ∀ t ∈ w'.texts, t.IsPlain := by
  rcases op.exec_cases w with ⟨ts, r', w₁, hts, -, hrun', htexts, -⟩ | ⟨-, hnone⟩
  swap
  · rw [hnone] at hrun
    cases hrun
  rw [hrun'] at hrun
  cases hrun
  have hfound : ∀ t ∈ ts, t.IsPlain := by
    unfold SettingOp.found at hts
    by_cases hloads : op.loads w = true
    · rw [if_pos hloads] at hts
      exact fileSettings_plain hts
    · rw [if_neg hloads] at hts
      cases hts
      exact h
  intro t ht
  rw [htexts] at ht
  unfold SettingOp.after at ht
  cases hstores : op.stores with
  | none =>
    rw [hstores] at ht
    exact hfound t ht
  | some u =>
    rw [hstores] at ht
    rcases KeyedList.mem_put SettingText.pair ht with rfl | ht
    · exact hop t hstores
    · exact hfound t ht

theorem runSettings_plain {ops : List SettingOp} {w w' : SettingWorld}
    (hops : ∀ op ∈ ops, ∀ t, op.stores = some t → t.IsPlain)
    (h : ∀ t ∈ w.texts, t.IsPlain) (hrun : runSettings ops w = some w') :
    ∀ t ∈ w'.texts, t.IsPlain := by
  induction ops generalizing w with
  | nil =>
    cases hrun
    exact h
  | cons op ops ih =>
    obtain ⟨⟨r, w₁⟩, hexec, hrun⟩ := Option.bind_eq_some_iff.mp hrun
    refine ih (fun o ho => hops o (mem_cons_of_mem op ho)) ?_ hrun
    exact SettingOp.exec_plain (hops op mem_cons_self) h hexec

/-! ### Writing and reading back -/

/-- The line of an entry without its newline. -/
def lineOf (t : SettingText) : List Char := t.id ++ '=' :: (t.key ++ '=' :: t.value)

theorem settingLine_eq (x : Setting) : settingLine x = lineOf x.text ++ ['\n'] := by
  simp [settingLine, lineOf, Setting.text]

section
variable {t : SettingText}

theorem SettingText.IsPlain.isLine (h : t.IsPlain) : IsLine (lineOf t) := by
  intro c hc
  simp only [lineOf, mem_append, List.mem_cons] at hc
  rcases hc with hc | rfl | hc | rfl | hc
  · exact h.id.1 c hc
  · decide
  · exact h.key.1 c hc
  · decide
  · exact h.value c hc

theorem SettingText.IsPlain.cstr_line (h : t.IsPlain) :
    cstr (lineOf t ++ ['\n']) = lineOf t ++ ['\n'] := by
  refine cstr_eq_self fun hmem => ?_
  rcases mem_append.mp hmem with hmem | hmem
  · exact (h.isLine _ hmem).2 rfl
  · exact absurd (mem_singleton.mp hmem) (by decide)

theorem length_lineOf (t : SettingText) :
    (lineOf t).length = t.id.length + t.key.length + t.value.length + 2 := by
  simp [lineOf]
  omega

/-- The tokenizer takes the line apart where it was put together. -/
theorem SettingText.IsPlain.lineSettings (h : t.IsPlain) :
    lineSettings (lineOf t ++ ['\n']) = some [t] := by
  have hlen : 2 < (lineOf t ++ ['\n']).length := by
    have hid := List.length_pos_iff.mpr h.id.2.1
    rw [List.length_append, length_lineOf, List.length_singleton]
    omega
  have hnot : ∀ {s : CString}, '=' ∉ s → ∀ c ∈ s, c ∉ ['='] := by
    intro s hs c hc hmem
    rw [mem_singleton.mp hmem] at hc
    exact hs hc
  have heq : '=' ∈ ['='] := List.mem_singleton_self _
  unfold GPhoto2.lineSettings
  rw [h.cstr_line]
  simp only [if_pos hlen, List.dropLast_concat]
  unfold lineOf
  rw [strtok_token h.id.2.1 (hnot h.id.2.2) heq, Option.bind_some,
    strtok_token h.key.2.1 (hnot h.key.2.2) heq, Option.map_some, strtok_nil]
  obtain ⟨id, key, value⟩ := t
  by_cases hempty : value = []
  · subst hempty
    rfl
  · rw [if_neg hempty]
    rfl

/-- It passes `verify_settings`. -/
theorem SettingText.IsPlain.verifies (h : t.IsPlain) :
    verifiesLine (lineOf t ++ ['\n']) = true := by
  unfold verifiesLine
  rw [h.cstr_line]
  have hcount : 2 ≤ (lineOf t ++ ['\n']).count '=' := by
    simp only [lineOf, List.count_append, List.count_cons_self]
    omega
  exact Bool.or_eq_true _ _ ▸ Or.inr (decide_eq_true hcount)

end

theorem fgetsLines_flatMap (hplain : ∀ t ∈ ts, t.IsPlain)
    (hfits : ∀ t ∈ ts, t.Fits) :
    fgetsLines 1022 (ts.flatMap fun t => lineOf t ++ ['\n']) =
      ts.map fun t => lineOf t ++ ['\n'] := by
  induction ts with
  | nil => rfl
  | cons t ts ih =>
    obtain ⟨hid, hkey, hvalue⟩ := hfits t mem_cons_self
    have hlen : (lineOf t).length < 1022 := by
      rw [length_lineOf]
      omega
    have hline : '\n' ∉ lineOf t := fun hmem =>
      ((hplain t mem_cons_self).isLine _ hmem).1 rfl
    rw [List.flatMap_cons, List.append_assoc, List.singleton_append, fgetsLines_line hline hlen,
      ih (fun u hu => hplain u (mem_cons_of_mem t hu))
        fun u hu => hfits u (mem_cons_of_mem t hu)]
    rfl

theorem linesSettings_map (hplain : ∀ t ∈ ts, t.IsPlain) :
    linesSettings (ts.map fun t => lineOf t ++ ['\n']) = some ts := by
  induction ts with
  | nil => rfl
  | cons t ts ih =>
    show (lineSettings (lineOf t ++ ['\n'])).bind _ = _
    rw [(hplain t mem_cons_self).lineSettings, Option.bind_some,
      ih fun u hu => hplain u (mem_cons_of_mem t hu)]
    rfl

theorem fileSettings_saved {w : SettingWorld} (hplain : ∀ t ∈ w.texts, t.IsPlain) :
    verified (w.glob.entries.flatMap settingLine) = true ∧
      fileSettings (some (w.glob.entries.flatMap settingLine)) = some w.texts := by
  have hfits : ∀ t ∈ w.texts, t.Fits := by
    intro t ht
    obtain ⟨x, -, rfl⟩ := mem_map.mp ht
    exact x.text_fits
  have hcontent : w.glob.entries.flatMap settingLine =
      w.texts.flatMap fun t => lineOf t ++ ['\n'] := by
    unfold SettingWorld.texts
    rw [List.flatMap_map]
    exact congrArg (fun f => w.glob.entries.flatMap f) (funext settingLine_eq)
  have hverified : verified (w.glob.entries.flatMap settingLine) = true := by
    unfold verified
    rw [hcontent, fgetsLines_flatMap hplain hfits, List.all_eq_true]
    intro line hline
    obtain ⟨t, ht, rfl⟩ := mem_map.mp hline
    exact (hplain t ht).verifies
  refine ⟨hverified, ?_⟩
  show (if verified _ = true then _ else _) = _
  rw [if_pos hverified, hcontent, fgetsLines_flatMap hplain hfits, linesSettings_map hplain]

end GPhoto2

import StyledMarkup.Bundled.LayeredSettings
import StyledMarkup.Proofs.GivenFlags

/-!
# Settings under single values

The library of settings that comes with the executable keeps what the program relies on.
Single values are laid over the files and the defaults, so a value that is given for a setting
is what stands under its key, whatever the files hold: in place of a value of another kind, in a
section that no file has, or in one that a file gives as a list. Values under other keys do not
disturb it, since the keys of the program name different places in different sections.
-/
namespace StyledMarkup

namespace Setting

theorem lookup_cons (key : String) (entry : String × Setting) (rest : List (String × Setting)) :
    lookup key (entry :: rest) = if entry.1 = key then some entry.2 else lookup key rest := by
  by_cases h : entry.1 = key
  · simp [lookup, h]
  · have hother : (entry.1 == key) = false := beq_false_of_ne h
    simp [lookup, h, hother]

theorem lookup_putEntry (key other : String) (value : Setting)
    (entries : List (String × Setting)) :
    lookup other (putEntry key value entries) =
      if key = other then some value else lookup other entries := by
  induction entries with
  | nil => rw [putEntry, lookup_cons]
  | cons entry rest ih =>
      rw [putEntry]
      split
      · rename_i heq
        rw [lookup_cons, lookup_cons, heq]
        split <;> rfl
      · rename_i hne
        rw [lookup_cons, lookup_cons, ih]
        split
        · rename_i heq
          rw [if_neg fun hkey => hne (heq.trans hkey.symm)]
        · rfl

/-- What stands under a name in the section of that title. -/
def inSection (root : Setting) (title name : String) : Option Setting :=
  (lookup title root.asTable.2).bind fun child => lookup name child.asTable.2

theorem overlay_scalar (root : Setting) (name : String) (source : Option String)
    (value : SettingScalar) :
    root.overlay name (scalar source value) =
      table root.asTable.1 (putEntry (LowerCase.lower name) (scalar source value)
        root.asTable.2) := by
  rw [overlay]

/-- A key that names a setting in a section, both in lower case. -/
structure IsKey (text title name : String) : Prop where
  parsed : SettingKey.ofText text = .ok ⟨title, [.child name]⟩
  joined : text = title ++ "." ++ name
  lower_title : LowerCase.lower title = title
  lower_name : LowerCase.lower name = name

instance (text title name : String) : Decidable (IsKey text title name) :=
  decidable_of_iff (SettingKey.ofText text = .ok ⟨title, [.child name]⟩ ∧
      text = title ++ "." ++ name ∧ LowerCase.lower title = title ∧ LowerCase.lower name = name)
    ⟨fun ⟨parsed, joined, lowerTitle, lowerName⟩ => ⟨parsed, joined, lowerTitle, lowerName⟩,
      fun h => ⟨h.parsed, h.joined, h.lower_title, h.lower_name⟩⟩

theorem isKey_printRuns : IsKey "convert.print_runs" "convert" "print_runs" := by decide +kernel

theorem isKey_strict : IsKey "convert.strict" "convert" "strict" := by decide +kernel

theorem exists_isKey {text : String} (h : text ∈ Settings.keys) :
    ∃ title name, IsKey text title name := by
  have hkeys : text = "inspect.format" ∨ text = "convert.print_runs" ∨ text = "convert.strict" ∨
      text = "logging.level" := by
    simpa [Settings.keys] using h
  rcases hkeys with rfl | rfl | rfl | rfl
  · exact ⟨"inspect", "format", by decide +kernel⟩
  · exact ⟨"convert", "print_runs", isKey_printRuns⟩
  · exact ⟨"convert", "strict", isKey_strict⟩
  · exact ⟨"logging", "level", by decide +kernel⟩

section Sections

variable {text title name : String} (hkey : IsKey text title name)

include hkey

theorem valueAt?_section (root : Setting) :
    root.valueAt? [.child title, .child name] = root.inSection title name := by
  cases root with
  | scalar source value => rfl
  | list source items => rfl
  | table source entries =>
      rw [valueAt?, hkey.lower_title, inSection, asTable]
      congr 1
      funext child
      cases child with
      | scalar source value => rfl
      | list source items => rfl
      | table source entries =>
          rw [valueAt?, hkey.lower_name, asTable]
          cases lookup name entries <;> rfl

theorem get?_eq_some_iff {root : Setting} {value : SettingScalar} :
    root.get? text = some value ↔
      ∃ source, root.inSection title name = some (scalar source value) := by
  rw [get?, hkey.parsed, ← valueAt?_section hkey root]
  dsimp only
  split
  · rename_i hvalue
    rw [hvalue]
    simp
  · rename_i hother
    exact ⟨nofun, fun ⟨source, hsource⟩ => absurd hsource (hother source value)⟩

theorem set_section (root : Setting) (value : SettingScalar) :
    root.set ⟨title, [.child name]⟩ (scalar none value) =
      table root.asTable.1 (putEntry title
        (table ((lookup title root.asTable.2).getD null).asTable.1
          (putEntry name (scalar none value)
            ((lookup title root.asTable.2).getD null).asTable.2))
        root.asTable.2) := by
  simp only [set, overlayAt, updateChild, overlay_scalar, hkey.lower_title, hkey.lower_name]

/-- A single value stands in its place, and all other places are as they were. -/
theorem inSection_set (root : Setting) (value : SettingScalar) (otherTitle otherName : String) :
    (root.set ⟨title, [.child name]⟩ (scalar none value)).inSection otherTitle otherName =
      if title = otherTitle ∧ name = otherName then some (scalar none value)
      else root.inSection otherTitle otherName := by
  rw [set_section hkey, inSection, asTable, lookup_putEntry]
  by_cases htitle : title = otherTitle
  · subst htitle
    rw [if_pos rfl, Option.bind_some, asTable, lookup_putEntry, inSection]
    by_cases hname : name = otherName
    · rw [if_pos hname, if_pos ⟨rfl, hname⟩]
    · rw [if_neg hname, if_neg fun h => hname h.2]
      cases lookup title root.asTable.2 <;> rfl
  · rw [if_neg htitle, if_neg fun h => htitle h.1, inSection]

end Sections

section Values

variable {text other title name otherTitle otherName : String}

theorem get?_set_self (hkey : IsKey text title name) (root : Setting) (value : SettingScalar) :
    (root.set ⟨title, [.child name]⟩ (scalar none value)).get? text = some value :=
  (get?_eq_some_iff hkey).2 ⟨none, by rw [inSection_set hkey, if_pos ⟨rfl, rfl⟩]⟩

theorem get?_set_of_ne (hkey : IsKey text title name) (hother : IsKey other otherTitle otherName)
    (hne : text ≠ other) (root : Setting) (value : SettingScalar) :
    (root.set ⟨title, [.child name]⟩ (scalar none value)).get? other = root.get? other := by
  have hplace : ¬ (title = otherTitle ∧ name = otherName) := by
    rintro ⟨rfl, rfl⟩
    exact hne (hkey.joined.trans hother.joined.symm)
  apply Option.ext
  intro found
  rw [get?_eq_some_iff hother, get?_eq_some_iff hother, inSection_set hkey, if_neg hplace]

end Values

/-- The entries that were found carry the names of the fields, in order. -/
theorem find?_of_mapM {title : String} {values : List (String × Setting)} {fields : List Field}
    {entries : List Entry}
    (h : fields.mapM (fun field =>
      match lookup field.name values with
      | some value => Except.ok (Entry.mk field.name (title ++ "." ++ field.name) value)
      | none => .error (SettingsFault.missingField field.name)) = .ok entries)
    {field : Field} (hfield : field ∈ fields) {value : Setting}
    (hvalue : lookup field.name values = some value) :
    entries.find? (fun entry => entry.name == field.name) =
      some ⟨field.name, title ++ "." ++ field.name, value⟩ := by
  induction fields generalizing entries with
  | nil => cases hfield
  | cons first fields ih =>
      rw [List.mapM_cons] at h
      obtain ⟨entry, hentry, h⟩ := bind_eq_ok_iff.1 h
      obtain ⟨rest, hrest, h⟩ := bind_eq_ok_iff.1 h
      obtain rfl := Except.ok.inj h
      by_cases hname : first.name = field.name
      · rw [hname, hvalue] at hentry
        obtain rfl := Except.ok.inj hentry
        simp
      · split at hentry
        · obtain rfl := Except.ok.inj hentry
          have hother : (first.name == field.name) = false := beq_false_of_ne hname
          rw [List.find?_cons, hother]
          refine ih hrest ?_
          rcases List.mem_cons.1 hfield with rfl | hfield
          · exact absurd rfl hname
          · exact hfield
        · cases hentry

/-- What stands in a section is what is read from it. -/
theorem readEntry_of_readSection {α : Type} {read : String → Setting → Except SettingsFault α}
    {title kind : String} {fields : List Field} {root value : Setting} {entries : List Entry}
    (h : readSection title kind fields root = .ok entries) {field : Field}
    (hfield : field ∈ fields) (hvalue : root.inSection title field.name = some value) :
    readEntry read field.name entries = read (title ++ "." ++ field.name) value := by
  obtain ⟨child, hchild, hlookup⟩ := Option.bind_eq_some_iff.1 hvalue
  cases child with
  | scalar source value => cases hlookup
  | list source items => cases hlookup
  | table source values =>
      rw [readSection, hchild] at h
      dsimp only [ofEntries] at h
      split at h
      · cases h
      · rw [readEntry, find?_of_mapM h hfield hlookup]

end Setting

namespace Settings

open Setting

/-- The settings of conversion are read from the section `convert`. -/
theorem exists_of_ofSetting {root : Setting} {settings : Settings}
    (h : ofSetting root = .ok settings) :
    ∃ entries, readSection "convert" "struct ConvertConfig"
        [.ofReader "print_runs" readBool, .ofReader "strict" readBool] root = .ok entries ∧
      readEntry readBool "print_runs" entries = .ok settings.printRuns ∧
      readEntry readBool "strict" entries = .ok settings.strict := by
  unfold ofSetting at h
  obtain ⟨inspect, -, h⟩ := bind_eq_ok_iff.1 h
  obtain ⟨entries, hentries, h⟩ := bind_eq_ok_iff.1 h
  obtain ⟨logging, -, h⟩ := bind_eq_ok_iff.1 h
  obtain ⟨format, -, h⟩ := bind_eq_ok_iff.1 h
  obtain ⟨printRuns, hprintRuns, h⟩ := bind_eq_ok_iff.1 h
  obtain ⟨strict, hstrict, h⟩ := bind_eq_ok_iff.1 h
  obtain ⟨level, -, h⟩ := bind_eq_ok_iff.1 h
  obtain rfl := Except.ok.inj h
  exact ⟨entries, hentries, hprintRuns, hstrict⟩

/-- A truth value in a section is what is read for the setting. -/
theorem eq_of_ofSetting {root : Setting} {settings : Settings} (h : ofSetting root = .ok settings)
    (source : Option String) (value : Bool) :
    (root.inSection "convert" "print_runs" = some (.scalar source (.bool value)) →
        settings.printRuns = value) ∧
      (root.inSection "convert" "strict" = some (.scalar source (.bool value)) →
        settings.strict = value) := by
  obtain ⟨entries, hentries, hprintRuns, hstrict⟩ := exists_of_ofSetting h
  constructor
  · intro hvalue
    have hread : readEntry readBool "print_runs" entries = .ok value :=
      readEntry_of_readSection hentries List.mem_cons_self hvalue
    exact (Except.ok.inj (hread.symm.trans hprintRuns)).symm
  · intro hvalue
    have hread : readEntry readBool "strict" entries = .ok value :=
      readEntry_of_readSection hentries (List.mem_cons_of_mem _ List.mem_cons_self) hvalue
    exact (Except.ok.inj (hread.symm.trans hstrict)).symm

/-! ## Single values over files and defaults -/

/-- The key that a text is. -/
def keyOf (text : String) : SettingKey :=
  match SettingKey.ofText text with
  | .ok key => key
  | .error _ => ⟨text, []⟩

theorem keyOf_of_isKey {text title name : String} (hkey : IsKey text title name) :
    keyOf text = ⟨title, [.child name]⟩ := by
  rw [keyOf, hkey.parsed]

theorem readKey_of_mem {text : String} (h : text ∈ keys) : readKey text = .ok (keyOf text) := by
  obtain ⟨title, name, hkey⟩ := exists_isKey h
  rw [readKey, hkey.parsed, keyOf_of_isKey hkey]

theorem keyOf_inj {text other : String} (h : text ∈ keys) (hother : other ∈ keys)
    (heq : keyOf text = keyOf other) : text = other := by
  obtain ⟨title, name, hkey⟩ := exists_isKey h
  obtain ⟨otherTitle, otherName, hotherKey⟩ := exists_isKey hother
  rw [keyOf_of_isKey hkey, keyOf_of_isKey hotherKey] at heq
  obtain ⟨rfl, hsteps⟩ := SettingKey.mk.inj heq
  obtain ⟨hname, -⟩ := List.cons.inj hsteps
  obtain rfl := SettingStep.child.inj hname
  exact hkey.joined.trans hotherKey.joined.symm

theorem putOverride_of_notMem {key : SettingKey} {entries : List (SettingKey × SettingScalar)}
    (h : key ∉ entries.map Prod.fst) (value : SettingScalar) :
    putOverride key value entries = entries ++ [(key, value)] := by
  induction entries with
  | nil => rfl
  | cons entry rest ih =>
      rw [List.map_cons, List.mem_cons, not_or] at h
      rw [putOverride, if_neg fun heq => h.1 heq.symm, ih h.2, List.cons_append]

variable {values : List (String × SettingScalar)}

/-- Values under different keys are kept in their order, behind those that were there. -/
theorem foldlM_putOverride (hnodup : (values.map Prod.fst).Nodup)
    (hkeys : ∀ entry ∈ values, entry.1 ∈ keys) (before : List (SettingKey × SettingScalar))
    (hnew : ∀ entry ∈ values, keyOf entry.1 ∉ before.map Prod.fst) :
    values.foldlM
        (fun overrides entry => (readKey entry.1).map fun key => putOverride key entry.2 overrides)
        before =
      .ok (before ++ values.map fun entry => (keyOf entry.1, entry.2)) := by
  induction values generalizing before with
  | nil => simp [pure, Except.pure]
  | cons entry rest ih =>
      obtain ⟨hentry, hrest⟩ := List.nodup_cons.1 hnodup
      have hkey := hkeys entry List.mem_cons_self
      have hput := putOverride_of_notMem (hnew entry List.mem_cons_self) entry.2
      have hkeysRest := fun other hother => hkeys other (List.mem_cons_of_mem entry hother)
      rw [List.foldlM_cons, readKey_of_mem hkey, Except.map, hput]
      refine (ih hrest hkeysRest _ ?_).trans ?_
      · intro other hother hmem
        rw [List.map_append, List.mem_append] at hmem
        rcases hmem with hmem | hmem
        · exact hnew other (List.mem_cons_of_mem _ hother) hmem
        · have hsame : keyOf other.1 = keyOf entry.1 := by simpa using hmem
          exact hentry (keyOf_inj (hkeysRest other hother) hkey hsame ▸ List.mem_map_of_mem hother)
      · rw [List.append_assoc]
        rfl

/-- The values under their keys, one after the other, over a tree. -/
def overlayValues (root : Setting) (values : List (String × SettingScalar)) : Setting :=
  values.foldl (fun root entry => root.set (keyOf entry.1) (.scalar none entry.2)) root

theorem get?_overlayValues_of_notMem (hkeys : ∀ entry ∈ values, entry.1 ∈ keys) {text : String}
    (htext : text ∈ keys) (h : text ∉ values.map Prod.fst) (root : Setting) :
    (overlayValues root values).get? text = root.get? text := by
  induction values generalizing root with
  | nil => rfl
  | cons entry rest ih =>
      rw [List.map_cons, List.mem_cons, not_or] at h
      obtain ⟨title, name, hkey⟩ := exists_isKey (hkeys entry List.mem_cons_self)
      obtain ⟨otherTitle, otherName, hother⟩ := exists_isKey htext
      rw [overlayValues, List.foldl_cons, keyOf_of_isKey hkey]
      exact (ih (fun other hmem => hkeys other (List.mem_cons_of_mem _ hmem)) h.2 _).trans
        (get?_set_of_ne hkey hother (fun heq => h.1 heq.symm) root entry.2)

theorem get?_overlayValues (hnodup : (values.map Prod.fst).Nodup)
    (hkeys : ∀ entry ∈ values, entry.1 ∈ keys) {entry : String × SettingScalar}
    (hentry : entry ∈ values) (root : Setting) :
    (overlayValues root values).get? entry.1 = some entry.2 := by
  induction values generalizing root with
  | nil => cases hentry
  | cons first rest ih =>
      obtain ⟨hfirst, hrest⟩ := List.nodup_cons.1 hnodup
      have hkeysRest := fun other hmem => hkeys other (List.mem_cons_of_mem first hmem)
      rcases List.mem_cons.1 hentry with rfl | hentry
      · obtain ⟨title, name, hkey⟩ := exists_isKey (hkeys entry List.mem_cons_self)
        rw [overlayValues, List.foldl_cons, keyOf_of_isKey hkey]
        exact (get?_overlayValues_of_notMem hkeysRest (hkeys entry List.mem_cons_self) hfirst
          _).trans (get?_set_self hkey root entry.2)
      · exact ih hrest hkeysRest hentry _

/-- Layers that can be put together are the values over the files and the defaults. -/
theorem exists_of_build {read : FileReader} {defaults : List Char} {files : List String}
    {layers : Setting} (h : build read defaults files values = .ok layers)
    (hnodup : (values.map Prod.fst).Nodup) (hkeys : ∀ entry ∈ values, entry.1 ∈ keys) :
    ∃ below, layers = overlayValues below values := by
  unfold build at h
  obtain ⟨overrides, hoverrides, h⟩ := bind_eq_ok_iff.1 h
  obtain ⟨base, -, h⟩ := bind_eq_ok_iff.1 h
  obtain ⟨below, -, h⟩ := bind_eq_ok_iff.1 h
  have hvalues := foldlM_putOverride hnodup hkeys [] fun _ _ => List.not_mem_nil
  obtain rfl := Except.ok.inj (hoverrides.symm.trans hvalues)
  refine ⟨below, (Except.ok.inj h).symm.trans ?_⟩
  rw [List.nil_append, List.foldl_map, overlayValues]

end Settings

namespace SettingsLibrary

theorem isLawful_layered : layered.IsLawful where
  get?_of_build h hnodup hkeys entry hentry := by
    obtain ⟨below, rfl⟩ := Settings.exists_of_build h hnodup hkeys
    exact Settings.get?_overlayValues hnodup hkeys hentry below
  flags_of_read {layers} settings h value := by
    constructor
    · intro hvalue
      obtain ⟨source, hsource⟩ := (Setting.get?_eq_some_iff Setting.isKey_printRuns).1 hvalue
      exact (Settings.eq_of_ofSetting h source value).1 hsource
    · intro hvalue
      obtain ⟨source, hsource⟩ := (Setting.get?_eq_some_iff Setting.isKey_strict).1 hvalue
      exact (Settings.eq_of_ofSetting h source value).2 hsource

end SettingsLibrary

end StyledMarkup

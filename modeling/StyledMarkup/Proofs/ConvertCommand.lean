import StyledMarkup.CommandLine
import StyledMarkup.Proofs.OverriddenSettings
import StyledMarkup.Proofs.PrintedOutput
import StyledMarkup.Proofs.UnknownTags

/-!
# A conversion is all or nothing

The command `convert` can fail in four places: its settings, its input, a tag and, if it is
strict, a cut of the input. They come in this order, so an unknown tag is reported even where
the input is cut as well. A run in which none of them fails prints the runs, if they are asked
for, and then the markup; any other prints nothing on the first channel.

Arguments and settings may be read by any libraries that keep what the program relies on. The
two flags act through the settings alone. That a flag is given or the settings say the same
therefore comes to what the settings say.
-/
namespace StyledMarkup

theorem fromUTF8?_eq_some_iff {bytes : ByteArray} {text : String} :
    String.fromUTF8? bytes = some text ↔ bytes = text.toByteArray := by
  unfold String.fromUTF8?
  constructor
  · intro h
    split at h
    · obtain rfl := Option.some.inj h
      rfl
    · cases h
  · rintro rfl
    rw [dif_pos text.isValidUTF8]
    rfl

namespace Inputs

/-- What stands at the path, or on the standard input, is the text in UTF-8. -/
def Holds (inputs : Inputs) (path text : String) : Prop :=
  (if path = "-" then inputs.standard else inputs.file path) = .ok text.toByteArray

theorem read_eq_ok_iff {inputs : Inputs} {path text : String} :
    inputs.read path = .ok text ↔ inputs.Holds path text := by
  unfold read Holds
  split
  · rename_i fault hfault
    simp [hfault]
  · rename_i bytes hbytes
    rw [hbytes, Except.ok.injEq, ← fromUTF8?_eq_some_iff]
    cases String.fromUTF8? bytes <;> simp

end Inputs

section Conversions

variable {markup : String}

theorem exists_conversion
    (hknown : ∀ content, .opening content ∈ (tokenize markup).tokens →
      TagContent.IsKnown content) :
    ∃ conversion, convert markup = .ok conversion := by
  cases hconvert : convert markup with
  | ok conversion => exact ⟨conversion, rfl⟩
  | error unknown =>
      obtain ⟨content, hmem, hunknown⟩ := exists_convert_eq_error_iff.1 ⟨unknown, hconvert⟩
      exact absurd (hknown content hmem) hunknown

theorem isKnown_of_convert {conversion : Conversion} (h : convert markup = .ok conversion) :
    ∀ content, .opening content ∈ (tokenize markup).tokens → TagContent.IsKnown content := by
  intro content hmem
  by_contra hunknown
  obtain ⟨unknown, hfails⟩ := exists_convert_eq_error_iff.2 ⟨content, hmem, hunknown⟩
  rw [h] at hfails
  cases hfails

theorem truncation_of_convert {conversion : Conversion} (h : convert markup = .ok conversion) :
    conversion.truncation = (tokenize markup).truncation := by
  obtain ⟨runs, -, -, htruncation⟩ := readMarkup_eq_ok_iff.1 (convert_eq_ok_iff.1 h).1
  exact htruncation

end Conversions

namespace Command

open Procedure

variable {settings : Settings} {markup : String} {conversion : Conversion}

theorem perform_convertText_ok (filter : LogFilter)
    (h : StyledMarkup.convert markup = .ok conversion) :
    ∃ log, (convertText filter markup).perform {} = (.ok conversion, ⟨"", log⟩) := by
  simp [convertText, Procedure.log, perform_bind, h, Except.mapError]

theorem perform_convertText_error (filter : LogFilter) {unknown : UnknownTag}
    (h : StyledMarkup.convert markup = .error unknown) :
    ∃ log, (convertText filter markup).perform {} =
      (.error (.failed (.unknownTag unknown)), ⟨"", log⟩) := by
  simp [convertText, Procedure.log, perform_bind, h, Except.mapError]

theorem refuseCut_of_truncated (hstrict : settings.strict = true) {truncation : Truncation}
    (htruncation : conversion.truncation = some truncation) :
    refuseCut settings conversion = throw (.failed (.truncated truncation)) := by
  rw [refuseCut, htruncation]
  exact if_pos hstrict

theorem refuseCut_of_whole
    (hwhole : ¬ (settings.strict = true ∧ conversion.isTruncated = true)) :
    refuseCut settings conversion = pure () := by
  unfold refuseCut
  split
  · rename_i truncation htruncation
    have hcut : conversion.isTruncated = true := by
      rw [Conversion.isTruncated, htruncation]
      rfl
    exact if_neg fun hstrict => hwhole ⟨hstrict, hcut⟩
  · rfl

theorem perform_listRuns (settings : Settings) (document : Document) (console : Console) :
    (listRuns settings document).perform console =
      (.ok (), { console with
        output := console.output ++ if settings.printRuns then document.listing else "" }) := by
  unfold listRuns
  split
  · rfl
  · rw [perform_pure, String.append_empty]

variable {filter : LogFilter} {inputs : Inputs} {path : String}

theorem perform_convert_of_unreadable {failure : Failure}
    (hread : inputs.read path = .error failure) :
    (convert settings filter inputs path).perform {} = (.error (.failed failure), {}) := by
  simp [convert, perform_bind, hread]

variable (hread : inputs.read path = .ok markup)

include hread

theorem perform_convert_of_unknown {unknown : UnknownTag}
    (h : StyledMarkup.convert markup = .error unknown) :
    ∃ log, (convert settings filter inputs path).perform {} =
      (.error (.failed (.unknownTag unknown)), ⟨"", log⟩) := by
  obtain ⟨log, hlog⟩ := perform_convertText_error filter h
  exact ⟨log, by simp [convert, perform_bind, hread, hlog]⟩

variable (h : StyledMarkup.convert markup = .ok conversion)

include h

theorem perform_convert_of_truncated (hstrict : settings.strict = true) {truncation : Truncation}
    (htruncation : conversion.truncation = some truncation) :
    ∃ log, (convert settings filter inputs path).perform {} =
      (.error (.failed (.truncated truncation)), ⟨"", log⟩) := by
  obtain ⟨log, hlog⟩ := perform_convertText_ok filter h
  refine ⟨log, ?_⟩
  simp [convert, perform_bind, hread, hlog, refuseCut_of_truncated hstrict htruncation]

/-- The runs are printed first, and then the markup. -/
theorem perform_convert_of_whole
    (hwhole : ¬ (settings.strict = true ∧ conversion.isTruncated = true)) :
    ∃ log, (convert settings filter inputs path).perform {} =
      (.ok (), ⟨(if settings.printRuns then conversion.document.listing else "") ++
        conversion.markup ++ "\n", log⟩) := by
  obtain ⟨log, hlog⟩ := perform_convertText_ok filter h
  refine ⟨log, ?_⟩
  simp [convert, perform_bind, hread, hlog, refuseCut_of_whole hwhole, perform_listRuns,
    String.append_assoc]

end Command

namespace Program

open Procedure

theorem failureLine_unknownTag (tag : String) :
    failureLine (.unknownTag ⟨tag⟩) = "Error: Unknown tag: <" ++ tag ++ ">\n" := by
  have hmessage : (Failure.unknownTag ⟨tag⟩).message = "Unknown tag: <" ++ tag ++ ">" := rfl
  rw [failureLine, hmessage, ← String.toList_inj]
  simp

theorem failureLine_truncated (truncation : Truncation) :
    failureLine (.truncated truncation) =
      "Error: Input truncated: " ++ truncation.message ++ "\n" := by
  have hmessage : (Failure.truncated truncation).message =
      "Input truncated: " ++ truncation.message := rfl
  rw [failureLine, hmessage, ← String.toList_inj]
  simp

theorem outcome_of_failed {procedure : Procedure Unit} {failure : Failure} {console : Console}
    (h : procedure.perform {} = (.error (.failed failure), console)) :
    outcome procedure = ⟨1, console.output, console.errors ++ failureLine failure⟩ := by
  rw [outcome, h]

theorem outcome_of_completed {procedure : Procedure Unit} {console : Console}
    (h : procedure.perform {} = (.ok (), console)) :
    outcome procedure = ⟨0, console.output, console.errors⟩ := by
  rw [outcome, h]

/-! ## Flags as single values -/

/-- The flags that are given, as values over the settings. -/
def flagged (arguments : List String) : List (String × SettingScalar) :=
  (if Given "--runs" arguments then [("convert.print_runs", .bool true)] else []) ++
    if Given "--strict" arguments then [("convert.strict", .bool true)] else []

theorem mem_keys_of_mem_flagged {arguments : List String} {entry : String × SettingScalar}
    (h : entry ∈ flagged arguments) : entry.1 ∈ Settings.keys := by
  have hkey : entry.1 = "convert.print_runs" ∨ entry.1 = "convert.strict" := by
    rcases List.mem_append.1 h with h | h
    · exact .inl (by split at h <;> simp_all)
    · exact .inr (by split at h <;> simp_all)
  rcases hkey with hkey | hkey <;> simp [hkey, Settings.keys]

theorem nodup_flagged (arguments : List String) :
    ((flagged arguments).map Prod.fst).Nodup := by
  unfold flagged
  split <;> split <;> simp

/-- The settings are put together from the file and the flags that are given. -/
def Builds (library : SettingsLibrary) (arguments : List String) (found : Arguments)
    (inputs : Inputs) (settings : Settings) : Prop :=
  library.load inputs.file (found.shared.value? "config").toList (flagged arguments) =
    .ok settings

instance (library : SettingsLibrary) (arguments : List String) (found : Arguments)
    (inputs : Inputs) (settings : Settings) :
    Decidable (Builds library arguments found inputs settings) :=
  inferInstanceAs (Decidable (library.load inputs.file
    (found.shared.value? "config").toList (flagged arguments) = .ok settings))

/-- What a conversion needs to succeed. -/
structure Succeeds (library : SettingsLibrary) (arguments : List String) (found : Arguments)
    (inputs : Inputs) (path : String) (settings : Settings) (markup : String) : Prop where
  builds : Builds library arguments found inputs settings
  holds : inputs.Holds path markup
  known : ∀ content, .opening content ∈ (tokenize markup).tokens → TagContent.IsKnown content
  whole : ¬ ((Given "--strict" arguments ∨ settings.strict = true) ∧
    (tokenize markup).isTruncated = true)

section Conversions

variable {libraries : Libraries} {arguments : List String} {found : Arguments} {inputs : Inputs}
  {settings : Settings} {path markup : String}

/-- A flag that is given changes nothing behind the settings, in which it is on. -/
theorem given_or_iff (hsettings : libraries.settings.IsLawful)
    (hbuilds : Builds libraries.settings arguments found inputs settings) :
    (Given "--runs" arguments ∨ settings.printRuns = true ↔ settings.printRuns = true) ∧
      (Given "--strict" arguments ∨ settings.strict = true ↔ settings.strict = true) := by
  unfold Builds SettingsLibrary.load at hbuilds
  obtain ⟨-, -, hbuilds⟩ := bind_eq_ok_iff.1 hbuilds
  obtain ⟨layers, hlayers, hread⟩ := bind_eq_ok_iff.1 hbuilds
  have hvalue := hsettings.get?_of_build hlayers (nodup_flagged arguments)
    fun _ => mem_keys_of_mem_flagged
  obtain ⟨hprintRuns, hstrict⟩ := hsettings.flags_of_read hread true
  constructor
  · refine or_iff_right_of_imp fun hgiven => hprintRuns (hvalue ("convert.print_runs", _) ?_)
    simp [flagged, hgiven]
  · refine or_iff_right_of_imp fun hgiven => hstrict (hvalue ("convert.strict", _) ?_)
    simp [flagged, hgiven]

/-- The arguments ask for the conversion of what stands at the path. -/
structure IsConversion (libraries : Libraries) (arguments : List String) (found : Arguments)
    (path : String) : Prop where
  lawful : libraries.arguments.IsLawful interface
  read : libraries.arguments interface arguments = .ok found
  command : found.command = "convert"
  path : found.own.value? "path" = some path

/-- A conversion always has a path. -/
theorem exists_isConversion (hlawful : libraries.arguments.IsLawful interface)
    (hread : libraries.arguments interface arguments = .ok found)
    (hcommand : found.command = "convert") :
    ∃ path, IsConversion libraries arguments found path := by
  obtain ⟨path, hpath⟩ :=
    hlawful.path hread ⟨"convert", true, _⟩ List.mem_cons_self hcommand.symm rfl
  exact ⟨path, hlawful, hread, hcommand, hpath⟩

namespace IsConversion

variable (h : IsConversion libraries arguments found path)

include h

theorem values_eq : values found = .ok (flagged arguments) := by
  have hruns := h.lawful.flag h.read ⟨"convert", true, _⟩ List.mem_cons_self h.command.symm
    ⟨"runs", none, .flag, none⟩ List.mem_cons_self rfl rfl
  have hstrict := h.lawful.flag h.read ⟨"convert", true, _⟩ List.mem_cons_self h.command.symm
    ⟨"strict", none, .flag, none⟩ (List.mem_cons_of_mem _ List.mem_cons_self) rfl rfl
  have hrunsName : "--" ++ "runs" = "--runs" := rfl
  have hstrictName : "--" ++ "strict" = "--strict" := rfl
  rw [hrunsName] at hruns
  rw [hstrictName] at hstrict
  unfold values
  rw [h.command]
  simp only [hruns, hstrict, flagged]

theorem settings_eq_ok_iff :
    Program.settings libraries.settings inputs found = .ok settings ↔
      Builds libraries.settings arguments found inputs settings := by
  rw [Program.settings, h.values_eq, Builds]
  cases hload : libraries.settings.load inputs.file (found.shared.value? "config").toList
    (flagged arguments) <;> simp [bind, Except.bind, Except.mapError, hload]

theorem run_eq_outcome :
    run libraries arguments inputs = outcome (program libraries.settings inputs found) := by
  rw [run, h.read]

/-- Settings that cannot be put together end the run. -/
theorem status_of_unbuilt
    (hunbuilt : ∀ settings, ¬ Builds libraries.settings arguments found inputs settings) :
    (run libraries arguments inputs).status = 1 := by
  cases hsettings : Program.settings libraries.settings inputs found with
  | ok settings => exact absurd (h.settings_eq_ok_iff.1 hsettings) (hunbuilt settings)
  | error failure =>
      have hfails : (program libraries.settings inputs found).perform {} =
          (.error (.failed failure), {}) := by
        simp [program, hsettings, perform_bind]
      rw [h.run_eq_outcome, outcome_of_failed hfails]

variable (hbuilds : Builds libraries.settings arguments found inputs settings)

include hbuilds

/-- Behind its settings the run is that of the command. -/
theorem run_of_builds :
    run libraries arguments inputs =
      outcome (Command.convert settings (logFilter settings found) inputs path) := by
  have hsettings := h.settings_eq_ok_iff.2 hbuilds
  have hperform : (program libraries.settings inputs found).perform {} =
      (Command.convert settings (logFilter settings found) inputs path).perform {} := by
    rw [program, hsettings, perform_bind, perform_ofExcept_ok]
    simp only [Program.command, h.command, h.path, perform_bind, perform_demand_some]
  rw [h.run_eq_outcome, outcome, outcome, hperform]

theorem status_of_unreadable (hunreadable : ∀ markup, ¬ inputs.Holds path markup) :
    (run libraries arguments inputs).status = 1 := by
  cases hinput : inputs.read path with
  | ok markup => exact absurd (Inputs.read_eq_ok_iff.1 hinput) (hunreadable markup)
  | error failure =>
      rw [h.run_of_builds hbuilds,
        outcome_of_failed (Command.perform_convert_of_unreadable hinput)]

theorem run_of_unknown (hholds : inputs.Holds path markup) {unknown : UnknownTag}
    (hconvert : convert markup = .error unknown) :
    ∃ log, run libraries arguments inputs =
      ⟨1, "", log ++ failureLine (.unknownTag unknown)⟩ := by
  obtain ⟨log, hlog⟩ :=
    Command.perform_convert_of_unknown (Inputs.read_eq_ok_iff.2 hholds) hconvert
  exact ⟨log, by rw [h.run_of_builds hbuilds, outcome_of_failed hlog]⟩

variable (hsettings : libraries.settings.IsLawful)

include hsettings

theorem run_of_truncated (hholds : inputs.Holds path markup) {conversion : Conversion}
    (hconvert : convert markup = .ok conversion)
    (hstrict : Given "--strict" arguments ∨ settings.strict = true) {truncation : Truncation}
    (htruncation : (tokenize markup).truncation = some truncation) :
    ∃ log, run libraries arguments inputs =
      ⟨1, "", log ++ failureLine (.truncated truncation)⟩ := by
  obtain ⟨log, hlog⟩ := Command.perform_convert_of_truncated (Inputs.read_eq_ok_iff.2 hholds)
    hconvert ((given_or_iff hsettings hbuilds).2.1 hstrict)
    ((truncation_of_convert hconvert).trans htruncation)
  exact ⟨log, by rw [h.run_of_builds hbuilds, outcome_of_failed hlog]⟩

omit hbuilds

theorem run_of_succeeds
    (hsucceeds : Succeeds libraries.settings arguments found inputs path settings markup) :
    ∃ document cut log, readMarkup markup = .ok (document, cut) ∧
      run libraries arguments inputs =
        ⟨0, (if Given "--runs" arguments ∨ settings.printRuns = true then document.listing
          else "") ++ document.markup ++ "\n", log⟩ := by
  obtain ⟨conversion, hconvert⟩ := exists_conversion hsucceeds.known
  obtain ⟨hdocument, hmarkup⟩ := convert_eq_ok_iff.1 hconvert
  obtain ⟨hruns, hstrict⟩ := given_or_iff hsettings hsucceeds.builds
  have hwhole : ¬ (settings.strict = true ∧ conversion.isTruncated = true) := by
    rw [Conversion.isTruncated, truncation_of_convert hconvert, ← hstrict]
    exact hsucceeds.whole
  obtain ⟨log, hlog⟩ := Command.perform_convert_of_whole
    (Inputs.read_eq_ok_iff.2 hsucceeds.holds) hconvert hwhole
  refine ⟨conversion.document, conversion.truncation, log, hdocument, ?_⟩
  rw [h.run_of_builds hsucceeds.builds, outcome_of_completed hlog, hmarkup]
  simp only [hruns]

theorem status_of_not_succeeds
    (hfails : ¬ ∃ settings markup,
      Succeeds libraries.settings arguments found inputs path settings markup) :
    (run libraries arguments inputs).status = 1 := by
  by_cases hbuilds : ∃ settings, Builds libraries.settings arguments found inputs settings
  · obtain ⟨settings, hbuilds⟩ := hbuilds
    by_cases hholds : ∃ markup, inputs.Holds path markup
    · obtain ⟨markup, hholds⟩ := hholds
      cases hconvert : convert markup with
      | error unknown =>
          obtain ⟨log, hrun⟩ := h.run_of_unknown hbuilds hholds hconvert
          rw [hrun]
      | ok conversion =>
          have hcut : (Given "--strict" arguments ∨ settings.strict = true) ∧
              (tokenize markup).isTruncated = true := by
            by_contra hwhole
            exact hfails ⟨settings, markup, hbuilds, hholds, isKnown_of_convert hconvert, hwhole⟩
          obtain ⟨truncation, htruncation⟩ := Option.isSome_iff_exists.1 hcut.2
          obtain ⟨log, hrun⟩ :=
            h.run_of_truncated hbuilds hsettings hholds hconvert hcut.1 htruncation
          rw [hrun]
    · exact h.status_of_unreadable hbuilds (not_exists.1 hholds)
  · exact h.status_of_unbuilt (not_exists.1 hbuilds)

end IsConversion

end Conversions

/-- A run of `convert` has the status 0 if and only if the settings can be put together, the
input is text in UTF-8, every opening tag before a cut is known, and the input is not cut or
the conversion not strict. It then prints the runs, if they are asked for, the markup and a
line feed. Otherwise its status is 1 and it prints nothing on the first channel. An unknown tag
is reported whether the input is cut or not, and the cut of strict input only if there is
none. -/
theorem convert_all_or_nothing (libraries : Libraries)
    (harguments : libraries.arguments.IsLawful interface)
    (hsettings : libraries.settings.IsLawful) {arguments : List String} {found : Arguments}
    (hread : libraries.arguments interface arguments = .ok found)
    (hcommand : found.command = "convert") (inputs : Inputs) :
    ∃ path, found.own.value? "path" = some path ∧
      ((run libraries arguments inputs).status = 0 ↔ ∃ settings markup,
        Succeeds libraries.settings arguments found inputs path settings markup) ∧
      (∀ settings markup,
        Succeeds libraries.settings arguments found inputs path settings markup →
          ∃ document cut, readMarkup markup = .ok (document, cut) ∧
            (run libraries arguments inputs).output =
              (if Given "--runs" arguments ∨ settings.printRuns = true then document.listing
                else "") ++ document.markup ++ "\n") ∧
      ((¬ ∃ settings markup,
          Succeeds libraries.settings arguments found inputs path settings markup) →
        (run libraries arguments inputs).status = 1 ∧
          (run libraries arguments inputs).output = "") ∧
      ∀ settings markup, Builds libraries.settings arguments found inputs settings →
        inputs.Holds path markup →
          (∀ tag,
            (Token.openings (tokenize markup).tokens).findSome? TagContent.blame? = some tag →
            ∃ log, (run libraries arguments inputs).errors =
              log ++ ("Error: Unknown tag: <" ++ tag ++ ">\n")) ∧
          ((∀ content, .opening content ∈ (tokenize markup).tokens →
              TagContent.IsKnown content) →
            (Given "--strict" arguments ∨ settings.strict = true) →
            ∀ truncation, (tokenize markup).truncation = some truncation →
            ∃ log, (run libraries arguments inputs).errors =
              log ++ ("Error: Input truncated: " ++ truncation.message ++ "\n")) := by
  obtain ⟨path, hconversion⟩ := exists_isConversion harguments hread hcommand
  refine ⟨path, hconversion.path, ⟨?_, ?_⟩, ?_, ?_, ?_⟩
  · intro hstatus
    by_contra hnone
    have hone := hconversion.status_of_not_succeeds hsettings hnone
    rw [hstatus] at hone
    cases hone
  · rintro ⟨settings, markup, hsucceeds⟩
    obtain ⟨document, cut, log, -, hrun⟩ := hconversion.run_of_succeeds hsettings hsucceeds
    rw [hrun]
  · intro settings markup hsucceeds
    obtain ⟨document, cut, log, hdocument, hrun⟩ :=
      hconversion.run_of_succeeds hsettings hsucceeds
    exact ⟨document, cut, hdocument, by rw [hrun]⟩
  · intro hnone
    have hone := hconversion.status_of_not_succeeds hsettings hnone
    exact ⟨hone, output_eq_empty_of_status_ne_zero (by rw [hone]; exact Nat.one_ne_zero)⟩
  · intro settings markup hbuilds hholds
    constructor
    · intro tag hblame
      have hconvert : convert markup = .error ⟨tag⟩ := convert_eq_error_iff_blame.2 hblame
      obtain ⟨log, hrun⟩ := hconversion.run_of_unknown hbuilds hholds hconvert
      exact ⟨log, by rw [hrun, failureLine_unknownTag]⟩
    · intro hknown hstrict truncation htruncation
      obtain ⟨conversion, hconvert⟩ := exists_conversion hknown
      obtain ⟨log, hrun⟩ := hconversion.run_of_truncated hbuilds hsettings hholds hconvert hstrict
        htruncation
      exact ⟨log, by rw [hrun, failureLine_truncated]⟩

/-- One flag is given; what looks like the other is a path. -/
def pathLikeFlag : List String := ["-vc", "s.toml", "convert", "--runs", "--", "--strict"]

def pathLikeFlagFound : Arguments where
  command := "convert"
  shared := ⟨[("config", "s.toml")], ["verbose"]⟩
  own := ⟨[("path", "--strict")], ["runs"]⟩

/-- A file of settings that makes the conversion strict, and markup at the path. -/
def strictInputs (markup : String) : Inputs where
  file name :=
    if name = "s.toml" then .ok "[Convert]\nstrict = 'ON' # a word\n".toByteArray
    else if name = "--strict" then .ok markup.toByteArray
    else .error .missing
  standard := .error .missing

theorem builds_pathLikeFlag :
    ∀ markup ∈ ["<B U>\u00e9  a</x>b", "<B>a</B>b<>", "<B>a<B Q R>b<>"],
      Builds Libraries.bundled.settings pathLikeFlag pathLikeFlagFound (strictInputs markup)
        ⟨.simple, true, true, "warn"⟩ := by
  intro markup hmarkup
  have hchecked : (flagged pathLikeFlag).forM
      (fun entry => Libraries.bundled.settings.checkKey entry.1) = .ok () := by
    decide +kernel
  have hbuilt : ∀ markup ∈ ["<B U>\u00e9  a</x>b", "<B>a</B>b<>", "<B>a<B Q R>b<>"],
      (Settings.build (strictInputs markup).file
          (Settings.defaultLines.flatMap fun line => line.toList ++ ['\n'])
          (pathLikeFlagFound.shared.value? "config").toList (flagged pathLikeFlag) >>=
        Settings.ofSetting) = .ok ⟨.simple, true, true, "warn"⟩ := by
    decide +kernel
  have hread := hbuilt markup hmarkup
  rw [← Settings.toList_defaults] at hread
  rw [Builds, SettingsLibrary.load_of_checked hchecked]
  exact hread

/-- Markup that is whole, markup that is cut, and cut markup with an unknown tag, under the
libraries of the executable. -/
theorem convert_all_or_nothing_pathLikeFlag :
    Libraries.bundled.arguments.IsLawful interface ∧ Libraries.bundled.settings.IsLawful ∧
      Libraries.bundled.arguments interface pathLikeFlag = .ok pathLikeFlagFound ∧
      pathLikeFlagFound.command = "convert" ∧
      (run .bundled pathLikeFlag (strictInputs "<B U>\u00e9  a</x>b")).status = 0 ∧
      (run .bundled pathLikeFlag (strictInputs "<B U>\u00e9  a</x>b")).output =
        "\x7bBeist-0_\x7d [\u00e9, a]\n\x7bbeist|0_\x7d [b]\n<B>\u00e9 a</B>b\n" ∧
      (run .bundled pathLikeFlag (strictInputs "<B>a</B>b<>")).status = 1 ∧
      (run .bundled pathLikeFlag (strictInputs "<B>a</B>b<>")).output = "" ∧
      (∃ log, (run .bundled pathLikeFlag (strictInputs "<B>a</B>b<>")).errors =
        log ++ ("Error: Input truncated: " ++ Truncation.message ⟨9, .emptyTag⟩ ++ "\n")) ∧
      ∃ log, (run .bundled pathLikeFlag (strictInputs "<B>a<B Q R>b<>")).errors =
        log ++ ("Error: Unknown tag: <" ++ "Q" ++ ">\n") := by
  have hread : Libraries.bundled.arguments interface pathLikeFlag = .ok pathLikeFlagFound := by
    decide +kernel
  have harguments : Libraries.bundled.arguments.IsLawful interface := isLawful_bundled
  have hsettings : Libraries.bundled.settings.IsLawful := SettingsLibrary.isLawful_layered
  have hcommand : pathLikeFlagFound.command = "convert" := rfl
  have hall (markup : String) := convert_all_or_nothing .bundled harguments hsettings hread
    hcommand (strictInputs markup)
  have hpathIs {path : String} (h : pathLikeFlagFound.own.value? "path" = some path) :
      path = "--strict" := by
    have hthere : pathLikeFlagFound.own.value? "path" = some "--strict" := by decide
    exact Option.some.inj (h.symm.trans hthere)
  have hbuilds := builds_pathLikeFlag
  have hholds (markup : String) : (strictInputs markup).Holds "--strict" markup := rfl
  have hwholeRead : convert "<B U>\u00e9  a</x>b" =
      .ok ⟨[⟨{ bold := true, underline := 1 }, ["\u00e9", "a"]⟩, ⟨{}, ["b"]⟩],
        "<B>\u00e9 a</B>b", none⟩ := by
    decide +kernel
  have hcutRead : convert "<B>a</B>b<>" =
      .ok ⟨[⟨{ bold := true }, ["a"]⟩, ⟨{}, ["b"]⟩], "<B>a</B>b", some ⟨9, .emptyTag⟩⟩ := by
    decide +kernel
  have htruncation : (tokenize "<B>a</B>b<>").truncation = some ⟨9, .emptyTag⟩ :=
    (truncation_of_convert hcutRead).symm
  -- the markup that is whole
  obtain ⟨path, hpath, hstatus, houtput, -, -⟩ := hall "<B U>\u00e9  a</x>b"
  obtain rfl := hpathIs hpath
  have hwhole : (tokenize "<B U>\u00e9  a</x>b").isTruncated = false := by decide +kernel
  have hsucceeds : Succeeds Libraries.bundled.settings pathLikeFlag pathLikeFlagFound
      (strictInputs "<B U>\u00e9  a</x>b") "--strict" ⟨.simple, true, true, "warn"⟩
      "<B U>\u00e9  a</x>b" :=
    ⟨hbuilds _ (by decide), hholds _, isKnown_of_convert hwholeRead,
      fun h => by simp [hwhole] at h⟩
  obtain ⟨document, cut, hdocument, hprinted⟩ := houtput _ _ hsucceeds
  have hsame := (convert_eq_ok_iff.1 hwholeRead).1.symm.trans hdocument
  obtain ⟨rfl, -⟩ := Prod.mk.inj (Except.ok.inj hsame)
  -- the markup that is cut
  obtain ⟨path, hpath, -, -, hfails, hreported⟩ := hall "<B>a</B>b<>"
  obtain rfl := hpathIs hpath
  have hnone : ¬ ∃ settings markup, Succeeds Libraries.bundled.settings pathLikeFlag
      pathLikeFlagFound (strictInputs "<B>a</B>b<>") "--strict" settings markup := by
    rintro ⟨settings, markup, h⟩
    obtain rfl : markup = "<B>a</B>b<>" :=
      String.toByteArray_inj.1 (Except.ok.inj (h.holds.symm.trans (hholds _)))
    obtain rfl : settings = ⟨.simple, true, true, "warn"⟩ :=
      Except.ok.inj (h.builds.symm.trans (hbuilds _ (by decide)))
    exact h.whole ⟨.inr rfl, Option.isSome_iff_exists.2 ⟨_, htruncation⟩⟩
  obtain ⟨hone, hempty⟩ := hfails hnone
  -- the markup with an unknown tag
  obtain ⟨path, hpath, -, -, -, hunknown⟩ := hall "<B>a<B Q R>b<>"
  obtain rfl := hpathIs hpath
  refine ⟨harguments, hsettings, hread, hcommand, hstatus.2 ⟨_, _, hsucceeds⟩, ?_, hone, hempty,
    ?_, ?_⟩
  · rw [hprinted]
    decide +kernel
  · exact (hreported _ _ (hbuilds _ (by decide)) (hholds _)).2 (isKnown_of_convert hcutRead)
      (.inr rfl) _ htruncation
  · exact (hunknown _ _ (hbuilds _ (by decide)) (hholds _)).1 "Q" (by decide +kernel)

end Program

end StyledMarkup

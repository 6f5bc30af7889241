import StyledMarkup.Program

/-!
# What a run that fails has printed

A run prints piece by piece, and nothing is taken back. That a run which fails leaves the first
channel empty therefore depends on the order of its steps: all steps that can halt come before
the first piece, and the steps from there on never halt. The first kind of step is quiet, which
means that it leaves the first channel as it was; the second kind completes. A quiet step before
one that is all or nothing is all or nothing, and this is how each of the four commands is put
together.
-/
namespace StyledMarkup

namespace Procedure

variable {α β : Type}

/-- Prints nothing on the first channel. -/
def IsQuiet (procedure : Procedure α) : Prop :=
  ∀ console, (procedure.perform console).2.output = console.output

/-- Never halts. -/
def Completes (procedure : Procedure α) : Prop :=
  ∀ console, ∃ value, (procedure.perform console).1 = .ok value

/-- Leaves the first channel as it was if it halts. -/
def IsAllOrNothing (procedure : Procedure α) : Prop :=
  ∀ console halt, (procedure.perform console).1 = .error halt →
    (procedure.perform console).2.output = console.output

theorem isQuiet_pure (value : α) : IsQuiet (pure value) := fun _ => rfl

theorem isQuiet_throw (halt : Halt) : IsQuiet (throw halt : Procedure α) := fun _ => rfl

theorem isQuiet_report (text : String) : IsQuiet (report text) := fun _ => rfl

theorem isQuiet_log (filter : LogFilter) (records : List LogRecord) :
    IsQuiet (log filter records) := isQuiet_report _

theorem isQuiet_ofExcept (result : Except Failure α) : IsQuiet (ofExcept result) := by
  cases result with
  | ok value => exact isQuiet_pure value
  | error failure => exact isQuiet_throw _

theorem isQuiet_demand (value? : Option α) : IsQuiet (demand value?) := by
  cases value? with
  | some value => exact isQuiet_pure value
  | none => exact isQuiet_throw _

theorem IsQuiet.bind {first : Procedure α} {next : α → Procedure β} (hfirst : IsQuiet first)
    (hnext : ∀ value, IsQuiet (next value)) : IsQuiet (first >>= next) := by
  intro console
  rw [perform_bind]
  have hbefore := hfirst console
  split
  · rename_i value after hperform
    rw [hperform] at hbefore
    exact (hnext value after).trans hbefore
  · rename_i halt after hperform
    rw [hperform] at hbefore
    exact hbefore

theorem completes_pure (value : α) : Completes (pure value) := fun _ => ⟨value, rfl⟩

theorem completes_print (text : String) : Completes (print text) := fun _ => ⟨(), rfl⟩

theorem completes_report (text : String) : Completes (report text) := fun _ => ⟨(), rfl⟩

theorem Completes.bind {first : Procedure α} {next : α → Procedure β} (hfirst : Completes first)
    (hnext : ∀ value, Completes (next value)) : Completes (first >>= next) := by
  intro console
  obtain ⟨value, hvalue⟩ := hfirst console
  rw [perform_bind]
  split
  · exact hnext _ _
  · rename_i halt after hperform
    rw [hperform] at hvalue
    cases hvalue

theorem IsQuiet.isAllOrNothing {procedure : Procedure α} (h : IsQuiet procedure) :
    IsAllOrNothing procedure := fun console _ _ => h console

theorem Completes.isAllOrNothing {procedure : Procedure α} (h : Completes procedure) :
    IsAllOrNothing procedure := by
  intro console halt hhalt
  obtain ⟨value, hvalue⟩ := h console
  rw [hvalue] at hhalt
  cases hhalt

/-- What halts before anything is printed may be followed by anything that is all or nothing. -/
theorem IsAllOrNothing.of_bind {first : Procedure α} {next : α → Procedure β}
    (hfirst : IsQuiet first) (hnext : ∀ value, IsAllOrNothing (next value)) :
    IsAllOrNothing (first >>= next) := by
  intro console halt hhalt
  rw [perform_bind] at hhalt ⊢
  have hbefore := hfirst console
  split at hhalt
  · rename_i value after hperform
    rw [hperform] at hbefore
    exact (hnext value after halt hhalt).trans hbefore
  · rename_i other after hperform
    rw [hperform] at hbefore
    exact hbefore

end Procedure

namespace Command

open Procedure

theorem isQuiet_refuseCut (settings : Settings) (conversion : Conversion) :
    IsQuiet (refuseCut settings conversion) := by
  unfold refuseCut
  split
  · split
    · exact isQuiet_throw _
    · exact isQuiet_pure _
  · exact isQuiet_pure _

theorem completes_listRuns (settings : Settings) (document : Document) :
    Completes (listRuns settings document) := by
  unfold listRuns
  split
  · exact completes_print _
  · exact completes_pure _

theorem completes_noteCut (stream : TokenStream) : Completes (noteCut stream) := by
  unfold noteCut
  split
  · exact completes_report _
  · exact completes_pure _

theorem isQuiet_convertText (filter : LogFilter) (markup : String) :
    IsQuiet (convertText filter markup) :=
  (isQuiet_log _ _).bind fun _ => isQuiet_ofExcept _

variable (settings : Settings) (filter : LogFilter) (inputs : Inputs) (path format : String)

theorem isAllOrNothing_convert : IsAllOrNothing (convert settings filter inputs path) := by
  refine .of_bind (isQuiet_ofExcept _) fun markup => ?_
  refine .of_bind (isQuiet_convertText _ _) fun conversion => ?_
  refine .of_bind (isQuiet_refuseCut _ _) fun _ => ?_
  -- from here on the run only prints
  exact ((completes_listRuns _ _).bind fun _ => completes_print _).isAllOrNothing

theorem isAllOrNothing_inspect : IsAllOrNothing (inspect settings filter inputs path) := by
  refine .of_bind (isQuiet_ofExcept _) fun markup => ?_
  refine .of_bind (isQuiet_log _ _) fun _ => ?_
  refine .of_bind (isQuiet_ofExcept _) fun document => ?_
  exact (completes_print _).isAllOrNothing

theorem isAllOrNothing_tokens : IsAllOrNothing (tokens filter inputs path format) := by
  refine .of_bind (isQuiet_ofExcept _) fun format => ?_
  refine .of_bind (isQuiet_ofExcept _) fun markup => ?_
  refine .of_bind (isQuiet_log _ _) fun _ => ?_
  exact ((completes_print _).bind fun _ => completes_noteCut _).isAllOrNothing

theorem isAllOrNothing_sample : IsAllOrNothing (sample filter) := by
  refine .of_bind (isQuiet_convertText _ _) fun conversion => ?_
  exact ((completes_print _).bind fun _ => completes_print _).isAllOrNothing

end Command

namespace Program

open Procedure

theorem isAllOrNothing_command (settings : Settings) (inputs : Inputs) (found : Arguments) :
    IsAllOrNothing (command settings inputs found) := by
  unfold command
  dsimp only
  split
  · exact .of_bind (isQuiet_demand _) fun path => Command.isAllOrNothing_convert _ _ _ path
  · exact .of_bind (isQuiet_demand _) fun path => Command.isAllOrNothing_inspect _ _ _ path
  · refine .of_bind (isQuiet_demand _) fun format => ?_
    exact .of_bind (isQuiet_demand _) fun path => Command.isAllOrNothing_tokens _ _ path format
  · exact Command.isAllOrNothing_sample _
  · exact (isQuiet_throw _).isAllOrNothing

theorem isAllOrNothing_program (library : SettingsLibrary) (inputs : Inputs)
    (found : Arguments) : IsAllOrNothing (program library inputs found) :=
  .of_bind (isQuiet_ofExcept _) fun settings => isAllOrNothing_command settings inputs found

theorem output_outcome {procedure : Procedure Unit} (hprocedure : IsAllOrNothing procedure)
    (h : (outcome procedure).status ≠ 0) : (outcome procedure).output = "" := by
  unfold outcome at h ⊢
  split at h
  · exact absurd rfl h
  · rename_i failure console hperform
    have hhalt := hprocedure {} (.failed failure)
    rw [hperform] at hhalt
    exact hhalt rfl
  · rename_i console hperform
    have hhalt := hprocedure {} .panicked
    rw [hperform] at hhalt
    exact hhalt rfl

/-- Whatever the libraries answer, a run of any command that fails has printed nothing on the
first channel. -/
theorem output_eq_empty_of_status_ne_zero {libraries : Libraries} {arguments : List String}
    {inputs : Inputs} (h : (run libraries arguments inputs).status ≠ 0) :
    (run libraries arguments inputs).output = "" := by
  unfold run at h ⊢
  split at h
  · rename_i stop _
    cases stop with
    | misuse => rfl
    | help => rfl
    | version => exact absurd rfl h
  · exact output_outcome (isAllOrNothing_program _ _ _) h

end Program

end StyledMarkup

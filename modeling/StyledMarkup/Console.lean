import StyledMarkup.Failure
import StyledMarkup.LogRecord

/-!
# What a run prints

A run prints on two channels, piece by piece, and may halt at any point. Nothing that has been
printed is taken back: where a run halts, the pieces printed so far stay on the channels.
Printing itself does not fail here.
-/
namespace StyledMarkup

/-- What has been printed. -/
structure Console where
  output : String := ""
  errors : String := ""
  deriving DecidableEq, Repr

/-- How a run ends before its end. -/
inductive Halt where
  | failed (failure : Failure)
  /-- Something is missing that the reading of arguments is relied on for. -/
  | panicked
  deriving DecidableEq, Repr

/-- A part of a run. -/
abbrev Procedure := ExceptT Halt (StateM Console)

namespace Procedure

/-- The result of a part of a run, and what has been printed then. -/
def perform {α : Type} (procedure : Procedure α) (console : Console) : Except Halt α × Console :=
  (ExceptT.run procedure).run console

def print (text : String) : Procedure Unit :=
  modify fun console => { console with output := console.output ++ text }

def report (text : String) : Procedure Unit :=
  modify fun console => { console with errors := console.errors ++ text }

/-- Reports the records that pass the filter. -/
def log (filter : LogFilter) (records : List LogRecord) : Procedure Unit :=
  report (String.join ((LogRecord.admitted filter records).map LogRecord.line))

def ofExcept {α : Type} : Except Failure α → Procedure α
  | .ok value => pure value
  | .error failure => throw (.failed failure)

/-- A value that is relied on. -/
def demand {α : Type} : Option α → Procedure α
  | some value => pure value
  | none => throw .panicked

section
variable {α β : Type} {console : Console}

@[simp] theorem perform_pure (value : α) :
    perform (pure value) console = (.ok value, console) := rfl

@[simp] theorem perform_throw (halt : Halt) :
    perform (throw halt : Procedure α) console = (.error halt, console) := rfl

theorem perform_bind (procedure : Procedure α) (next : α → Procedure β) :
    perform (procedure >>= next) console =
      match perform procedure console with
      | (.ok value, after) => perform (next value) after
      | (.error halt, after) => (.error halt, after) := by
  change (ExceptT.bindCont next (perform procedure console).1).run (perform procedure console).2 = _
  rcases perform procedure console with ⟨_ | _, after⟩ <;> rfl

@[simp] theorem perform_print (text : String) :
    perform (print text) console =
      (.ok (), { console with output := console.output ++ text }) := rfl

@[simp] theorem perform_report (text : String) :
    perform (report text) console =
      (.ok (), { console with errors := console.errors ++ text }) := rfl

@[simp] theorem perform_ofExcept_ok (value : α) :
    perform (ofExcept (.ok value)) console = (.ok value, console) := rfl

@[simp] theorem perform_ofExcept_error (failure : Failure) :
    perform (ofExcept (.error failure) : Procedure α) console =
      (.error (.failed failure), console) := rfl

@[simp] theorem perform_demand_some (value : α) :
    perform (demand (some value)) console = (.ok value, console) := rfl

end

end Procedure

end StyledMarkup

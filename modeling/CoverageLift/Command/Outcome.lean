import CoverageLift.Command.Arguments
import CoverageLift.Discovery.Register
import CoverageLift.Settings
import CoverageLift.Text.ControlSequence

/-!
# Outcomes of commands

A command ends with a status, and with what it has written to standard output and standard error by
then. It **stops** early in one of three ways: it refuses its input with a message of its own, its
arguments are misused, or it fails with an error that it has no message for. What the command itself
says is shown without control sequences; notices are shown as they are.
-/

namespace CoverageLift.Command

/-- An error that no command has a message of its own for. -/
inductive Failure
  | file (fault : FileFault)
  | encoding (error : Utf8.DecodeError)
  /-- A text for standard output has no encoding. -/
  | unwritable (error : Utf8.EncodeError)
  /-- A scalar of the settings does not stand for a value. -/
  | scalar (error : Yaml.Error)
  | search (error : Discovery.SearchError)
  | payload (error : PayloadError)
  | remap (error : RemapError)
  deriving DecidableEq

/-- The message of a failure. -/
def Failure.message : Failure → Text
  | file fault => fault.message
  | encoding error => error.message
  | unwritable error => error.message
  | scalar error => error.message
  | search error => error.message
  | payload error => error.message
  | remap error => error.message

/-- Why a command stops early. -/
inductive Stop
  | refused (message : Text)
  | misused (error : UsageError)
  | failed (failure : Failure)
  deriving DecidableEq

/-- A part of the work of a command: the notices of the part, and what it leads to unless the command
stops in it. -/
structure Stage (α : Type) where
  notices : List Notice
  result : Except Stop α

namespace Stage

variable {α β : Type}

/-- A part that leads to a value. -/
def done (a : α) : Stage α := ⟨[], .ok a⟩

/-- A part in which the command stops. -/
def stop (reason : Stop) : Stage α := ⟨[], .error reason⟩

/-- A part with notices in front. -/
def after (notices : List Notice) (stage : Stage α) : Stage α :=
  { stage with notices := notices ++ stage.notices }

/-- A part and the one that follows, unless the command stops in the first. -/
def andThen {m : Type → Type} [Monad m] (stage : Stage α) (next : α → m (Stage β)) : m (Stage β) :=
  match stage.result with
  | .error reason => pure ⟨stage.notices, .error reason⟩
  | .ok a => do return after stage.notices (← next a)

end Stage

/-- An entry of the log on standard error. -/
inductive LogEntry
  /-- A notice with its level and origin, or with its message only. -/
  | notice (n : Notice) (full : Bool)
  | line (t : Text)

/-- The line of an entry. -/
def LogEntry.text : LogEntry → Text
  | notice n full => if full then n.line else n.message
  | line t => t.withoutControls

/-- How a command ended. -/
structure Outcome where
  /-- The text on standard output. -/
  output : Text
  /-- What is on standard error, apart from the message of a stop. -/
  log : List LogEntry
  stop : Option Stop

namespace Outcome

/-- The outcome of a command that stops at once. -/
def stopped (reason : Stop) : Outcome := ⟨[], [], some reason⟩

/-- The status of the program. -/
def status (o : Outcome) : Nat :=
  match o.stop with
  | none => 0
  | some (.refused _) => 1
  | some (.misused _) => 2
  | some (.failed _) => 1

/-- A text for standard error, where a lone surrogate is written as an escape. -/
def escapeSurrogates (t : Text) : Text :=
  t.flatMap fun
    | .char c => [.char c]
    | .surrogate s => ("\\u" : Text) ++ Text.ofHex 4 (CodePoint.surrogate s).value

theorem escapeSurrogates_append (t t' : Text) :
    escapeSurrogates (t ++ t') = escapeSurrogates t ++ escapeSurrogates t' := List.flatMap_append

/-- A text of characters is written as it is. -/
theorem escapeSurrogates_ofString (s : String) : escapeSurrogates s = (s : Text) := by
  have hchars (cs : List Char) : escapeSurrogates (cs.map .char) = cs.map .char := by
    induction cs with
    | nil => rfl
    | cons c cs ih => exact congrArg (List.cons (.char c)) ih
  exact hchars s.toList

/-- A text with a line end. -/
def endLine (t : Text) : Text := t ++ [.char '\n']

/-- The text on standard error. -/
def errorOutput (o : Outcome) : Text :=
  let message := match o.stop with
    | some (.refused message) => [message.withoutControls]
    | _ => []
  escapeSurrogates ((o.log.map LogEntry.text ++ message).flatMap endLine)

end Outcome

end CoverageLift.Command

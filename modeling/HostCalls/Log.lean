/-!
# Log lines as part of a result

The core reports what it does in log lines of five levels. Reporting is no side effect here: an
operation that may report returns a `Logged` value, which pairs its result with the lines, oldest
first. `Logged` is a monad whose `bind` concatenates, and its two projections compute:
`value_bind` and `log_bind` hold by definition, so a statement about results never has to mention
the lines, and a statement about the lines is an equation between lists.
-/

namespace HostCalls
namespace Log

/-- How severe a line is, most severe first. -/
inductive Level
  | error
  | warn
  | info
  | debug
  | trace
deriving DecidableEq, Repr

namespace Level

/-- Every level, most severe first. -/
def all : List Level := [error, warn, info, debug, trace]

/-- Zero for the most severe level. -/
def rank : Level → Nat
  | error => 0
  | warn => 1
  | info => 2
  | debug => 3
  | trace => 4

/-- Whether a line of level `line` is shown when the threshold is `threshold`. -/
def admits (threshold line : Level) : Bool :=
  line.rank ≤ threshold.rank

/-- The word in front of a shown line. -/
def label : Level → String
  | error => "ERROR"
  | warn => "WARN"
  | info => "INFO"
  | debug => "DEBUG"
  | trace => "TRACE"

end Level

/-- One line of the log. -/
structure Line where
  level : Level
  text : String
deriving DecidableEq, Repr

/-- A line as it is shown. -/
def Line.render (line : Line) : String :=
  s!"{line.level.label} {line.text}"

/-- The shown lines among `lines`, in order. -/
def shown (threshold : Level) (lines : List Line) : List String :=
  (lines.filter fun line => threshold.admits line.level).map Line.render

end Log

/-- A result together with the lines reported on the way to it, oldest first. -/
structure Logged (α : Type) where
  value : α
  log : List Log.Line

namespace Logged

variable {α β : Type}

instance : Monad Logged where
  pure a := ⟨a, []⟩
  bind x f := ⟨(f x.value).value, x.log ++ (f x.value).log⟩

@[simp] theorem value_pure (a : α) : (pure a : Logged α).value = a := rfl

@[simp] theorem log_pure (a : α) : (pure a : Logged α).log = [] := rfl

@[simp] theorem value_bind (x : Logged α) (f : α → Logged β) :
    (x >>= f).value = (f x.value).value := rfl

@[simp] theorem log_bind (x : Logged α) (f : α → Logged β) :
    (x >>= f).log = x.log ++ (f x.value).log := rfl

@[simp] theorem value_map (f : α → β) (x : Logged α) : (f <$> x).value = f x.value := rfl

@[simp] theorem log_map (f : α → β) (x : Logged α) : (f <$> x).log = x.log ++ [] := rfl

@[ext] theorem ext {x y : Logged α} (hValue : x.value = y.value) (hLog : x.log = y.log) :
    x = y := by
  cases x
  cases y
  simp_all

/-- What follows a result may depend on its value alone. -/
theorem bind_congr_value {x : Logged α} {f g : α → Logged β} (h : f x.value = g x.value) :
    (x >>= f) = (x >>= g) := by
  apply Logged.ext
  · rw [value_bind, value_bind, h]
  · rw [log_bind, log_bind, h]

instance : LawfulMonad Logged := LawfulMonad.mk' Logged
  (fun _ => Logged.ext rfl (List.append_nil _))
  (fun _ _ => Logged.ext rfl rfl)
  (fun _ _ _ => Logged.ext rfl (List.append_assoc _ _ _))

end Logged

namespace Log

/-- Reports one line. -/
def report (level : Level) (text : String) : Logged Unit :=
  ⟨(), [⟨level, text⟩]⟩

/-- Reports a line of level `error`. -/
def error (text : String) : Logged Unit := report .error text

/-- Reports a line of level `warn`. -/
def warn (text : String) : Logged Unit := report .warn text

/-- Reports a line of level `info`. -/
def info (text : String) : Logged Unit := report .info text

/-- Reports a line of level `debug`. -/
def debug (text : String) : Logged Unit := report .debug text

/-- Reports a line of level `trace`. -/
def trace (text : String) : Logged Unit := report .trace text

@[simp] theorem value_report (level : Level) (text : String) :
    (report level text).value = () := rfl

@[simp] theorem log_report (level : Level) (text : String) :
    (report level text).log = [⟨level, text⟩] := rfl

end Log
end HostCalls

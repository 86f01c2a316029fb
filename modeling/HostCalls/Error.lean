/-!
# Errors

Every operation of the core that can fail, and every collaborator that it calls, reports an
`Error`: one of nine kinds, eight of which carry a text of their own. The wording shown to a user
is `Error.message`.

* `Error.ofKind` builds an error from a kind and a text; running out of memory has no text.
* `Error.during` says during which activity an error arose. The result is a system error
  whatever the kind was before.
-/

namespace HostCalls

/-- The kinds of error. -/
inductive ErrorKind
  | invalidArgument
  | invalidState
  | notImplemented
  | notFound
  | permissionDenied
  | outOfMemory
  | parseError
  | configError
  | systemError
deriving DecidableEq, Repr

namespace ErrorKind

/-- Every kind of error. -/
def all : List ErrorKind :=
  [invalidArgument, invalidState, notImplemented, notFound, permissionDenied, outOfMemory,
   parseError, configError, systemError]

/-- The name of a kind of error. -/
def name : ErrorKind → String
  | invalidArgument => "InvalidArgument"
  | invalidState => "InvalidState"
  | notImplemented => "NotImplemented"
  | notFound => "NotFound"
  | permissionDenied => "PermissionDenied"
  | outOfMemory => "OutOfMemory"
  | parseError => "ParseError"
  | configError => "ConfigError"
  | systemError => "SystemError"

end ErrorKind

/-- An error reported by the core or by one of its collaborators. -/
inductive Error
  | invalidArgument (text : String)
  | invalidState (text : String)
  | notImplemented (text : String)
  | notFound (text : String)
  | permissionDenied (text : String)
  | outOfMemory
  | parseError (text : String)
  | configError (text : String)
  | systemError (text : String)
deriving DecidableEq, Repr

namespace Error

/-- The kind of an error. -/
def kind : Error → ErrorKind
  | invalidArgument _ => .invalidArgument
  | invalidState _ => .invalidState
  | notImplemented _ => .notImplemented
  | notFound _ => .notFound
  | permissionDenied _ => .permissionDenied
  | outOfMemory => .outOfMemory
  | parseError _ => .parseError
  | configError _ => .configError
  | systemError _ => .systemError

/-- The error of a given kind and text. -/
def ofKind (kind : ErrorKind) (text : String) : Error :=
  match kind with
  | .invalidArgument => invalidArgument text
  | .invalidState => invalidState text
  | .notImplemented => notImplemented text
  | .notFound => notFound text
  | .permissionDenied => permissionDenied text
  | .outOfMemory => outOfMemory
  | .parseError => parseError text
  | .configError => configError text
  | .systemError => systemError text

/-- The text shown for an error. -/
def message : Error → String
  | invalidArgument text => s!"Invalid argument: {text}"
  | invalidState text => s!"Invalid state: {text}"
  | notImplemented text => s!"Not implemented: {text}"
  | notFound text => s!"Not found: {text}"
  | permissionDenied text => s!"Permission denied: {text}"
  | outOfMemory => "Out of memory"
  | parseError text => s!"Parse error: {text}"
  | configError text => s!"Configuration error: {text}"
  | systemError text => s!"System error: {text}"

/-- The error seen by a caller that was busy with `activity`. -/
def during (activity : String) (error : Error) : Error :=
  systemError s!"{activity}: {error.message}"

@[simp] theorem kind_ofKind (kind : ErrorKind) (text : String) :
    (ofKind kind text).kind = kind := by
  cases kind <;> rfl

@[simp] theorem kind_during (activity : String) (error : Error) :
    (error.during activity).kind = .systemError := rfl

end Error

/-- Adds the activity to the error of a result; a success stays as it is. -/
def during {α : Type} (activity : String) : Except Error α → Except Error α :=
  Except.mapError (Error.during activity)

end HostCalls

import HostCalls.Linker
import HostCalls.SavedState.Utf8
import HostCalls.SavedState.Varint

/-!
# The saved section

Of a core only the deferred imports are saved, as one section: a marker, a version, and the list
of imports. A text is the number of its bytes and those bytes; a list is the number of its
elements and those elements. `Section.read` accepts a section only if nothing follows it, and
tells apart bytes that are no section from sections of another marker or version.
-/

namespace HostCalls
namespace SavedState

/-- Writes a text behind its size. -/
def encodeText (text : String) : Bytes :=
  encodeVarint text.utf8ByteSize ++ Utf8.encode text

/-- Reads a text behind its size. -/
def decodeText : Decoder String := fun bytes => do
  let (size, bytes) ← decodeVarint .long bytes
  let (body, bytes) ← takeBytes size bytes
  let text ← Utf8.decode body
  return (text, bytes)

/-- Writes a word. -/
def encodeWord (w : Word) : Bytes :=
  encodeVarint w.toNat

/-- Reads a word. -/
def decodeWord : Decoder Word := fun bytes => do
  let (n, bytes) ← decodeVarint .word bytes
  return (UInt32.ofNat n, bytes)

/-- Writes a deferred import. -/
def encodeImport (entry : DeferredImport) : Bytes :=
  encodeText entry.moduleName ++ encodeWord entry.site ++ encodeWord entry.nid

/-- Reads a deferred import. -/
def decodeImport : Decoder DeferredImport := fun bytes => do
  let (moduleName, bytes) ← decodeText bytes
  let (site, bytes) ← decodeWord bytes
  let (nid, bytes) ← decodeWord bytes
  return (⟨moduleName, site, nid⟩, bytes)

/-- Reads a number of deferred imports. -/
def decodeImports : Nat → Decoder (List DeferredImport)
  | 0, bytes => .ok ([], bytes)
  | count + 1, bytes => do
      let (entry, bytes) ← decodeImport bytes
      let (entries, bytes) ← decodeImports count bytes
      return (entry :: entries, bytes)

/-- A saved section. -/
structure Section where
  marker : String
  version : UInt8
  entries : List DeferredImport
deriving DecidableEq, Repr

/-- Why bytes are not accepted as a section of this core. -/
inductive SectionError
  /-- They cannot be read. -/
  | malformed (cause : DecodeError)
  /-- A section is followed by more bytes. -/
  | trailing (count : Nat)
  /-- The section has another marker. -/
  | foreignMarker (found : String)
  /-- The section has a version that is not known. -/
  | unsupportedVersion (found : UInt8)
deriving DecidableEq, Repr

namespace Section

/-- The marker of the sections of this core. -/
def ownMarker : String := "HLE"

/-- The version that is written. -/
def currentVersion : UInt8 := 1

/-- Writes a section. -/
def encode (s : Section) : Bytes :=
  encodeText s.marker ++ s.version
    :: (encodeVarint s.entries.length ++ s.entries.flatMap encodeImport)

/-- Reads a section. -/
def decode : Decoder Section := fun bytes => do
  let (marker, bytes) ← decodeText bytes
  let (version, bytes) ← takeByte bytes
  let (count, bytes) ← decodeVarint .count bytes
  let (entries, bytes) ← decodeImports count bytes
  return (⟨marker, version, entries⟩, bytes)

/-- The section that saves some deferred imports. -/
def ofImports (entries : List DeferredImport) : Section :=
  ⟨ownMarker, currentVersion, entries⟩

/-- Checks that a section was saved by a core of this kind and of a known version. -/
def check (s : Section) : Except SectionError (List DeferredImport) :=
  if s.marker ≠ ownMarker then .error (.foreignMarker s.marker)
  else if s.version = 0 || currentVersion < s.version then .error (.unsupportedVersion s.version)
  else .ok s.entries

/-- Reads the deferred imports that are saved in some bytes. -/
def read (bytes : Bytes) : Except SectionError (List DeferredImport) :=
  match decode bytes with
  | .error e => .error (.malformed e)
  | .ok (s, []) => s.check
  | .ok (_, b :: rest) => .error (.trailing (b :: rest).length)

end Section

/-- The error reported for bytes that are not accepted. -/
def SectionError.toError : SectionError → Error
  | malformed cause => .parseError s!"HLE section: {cause.message}"
  | trailing count => .parseError s!"HLE section: {count} trailing bytes"
  | foreignMarker found =>
      .invalidState s!"expected section {Section.ownMarker}, found {found}"
  | unsupportedVersion found =>
      .invalidState s!"unsupported HLE section version {found.toNat}"

end SavedState

namespace Linker

/-- The saved form of the deferred imports. -/
def save (linker : Linker) : SavedState.Bytes :=
  (SavedState.Section.ofImports linker.deferred).encode

/-- Puts saved deferred imports in place of the present ones. Bytes that are not accepted leave
the linker as it is. -/
def load (linker : Linker) (bytes : SavedState.Bytes) : Logged (Except Error Unit × Linker) :=
  match SavedState.Section.read bytes with
  | .error e => return (.error e.toError, linker)
  | .ok entries => do
      Log.debug s!"restored {entries.length} deferred syscalls"
      return (.ok (), linker.restoreDeferred entries)

end Linker
end HostCalls

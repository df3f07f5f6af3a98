-- The mute preference: a flag that outlives the program in a file, and that
-- everybody who watches it is told of.
import HuntBoard.Text.Blank

namespace HuntBoard

/-- What is at the place of the file. -/
inductive FilePlace where
  | missing
  | file (bytes : List UInt8)
  | directory
  /-- What should be the directory of the file is a file itself. -/
  | underFile
  deriving DecidableEq

namespace FilePlace

/-- The text of the file, or none where there is no file; fails on what cannot
be read as text. -/
def read? : FilePlace → Option (Option String)
  | missing => some none
  | file bytes => (String.fromUTF8? ⟨bytes.toArray⟩).map some
  | directory | underFile => none

/-- The place with a file of this text, together with its directory. -/
def write? (text : String) : FilePlace → Option FilePlace
  | missing | file _ => some (file text.toUTF8.toList)
  | directory | underFile => none

end FilePlace

/-- The flag, and how often it was set; setting it anew is news even when it
stays as it is. -/
structure Mute where
  muted : Bool
  version : Nat := 0
  deriving DecidableEq

/-- Somebody who watches the flag, and the version they saw. -/
structure MuteWatcher where
  version : Nat
  deriving DecidableEq

namespace Mute

/-- The text of the flag. -/
def text (muted : Bool) : String := if muted then "1" else "0"

/-- The flag in a text: one, with blanks around it, says muted. -/
def ofText (s : String) : Bool := Text.trim s = "1"

/-- The flag of a file; without a file it is not set. -/
def open? (p : FilePlace) : Option Mute := p.read?.map fun s => { muted := s.any ofText }

/-- Set the flag in the file, then here; nothing changes when the file cannot
be written. -/
def set? (m : Mute) (p : FilePlace) (muted : Bool) : Option (Mute × FilePlace) :=
  (p.write? (text muted)).map fun p => ({ muted, version := m.version + 1 }, p)

def toggle? (m : Mute) (p : FilePlace) : Option (Mute × FilePlace) := m.set? p !m.muted

/-- Watch the flag from now on. -/
def watch (m : Mute) : MuteWatcher := ⟨m.version⟩

/-- The flag was set since the watcher looked. -/
def isNews (m : Mute) (w : MuteWatcher) : Bool := w.version != m.version

/-- What the flag is called. -/
def word (muted : Bool) : String := if muted then "muted" else "unmuted"

end Mute

end HuntBoard

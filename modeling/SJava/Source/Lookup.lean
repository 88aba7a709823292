/-
What is found at a path, and the source text that can be had from it.  Only a regular file
whose name has the right extension and whose content is UTF-8 is a source.
-/
import SJava.Source.Path
import SJava.Verifier

namespace SJava

/-- What is found at a path. -/
inductive Lookup where
  /-- Nothing has this path. -/
  | missing
  /-- The path goes on after a regular file. -/
  | notADirectory
  /-- No file can have this path. -/
  | invalidPath
  /-- There is something, but it has no content. -/
  | notRegular
  | regular (content : ByteArray)

namespace Lookup

/-- The text of a file, if it has one. -/
def text? : Lookup → Option Text
  | regular content => (String.fromUTF8? content).map String.toList
  | _ => none

/-- The text of a file, empty where there is none. -/
def text (found : Lookup) : Text := found.text?.getD []

end Lookup

/-- Why no text can be had from a path. -/
inductive Unreadable where
  | notFound
  | notADirectory
  | invalidInput
  | invalidData
  deriving DecidableEq, Repr

/-- What can be wrong with a source file before its first line is looked at. -/
inductive InputFault where
  | invalidExtension (path : Text)
  | unreadable (path : Text) (reason : Unreadable)
  deriving DecidableEq, Repr

namespace InputFault

def message : InputFault → String
  | invalidExtension path =>
    s!"invalid file extension for {Fault.quote path}, expected {String.ofList Path.sourceExtension}"
  | unreadable path _ => s!"file does not exist or is not readable: {Fault.quote path}"

end InputFault

namespace Source

/-- Checks that there is a source file at a path.  The name is checked before anything is
looked up. -/
def validate (path : Text) (found : Lookup) : Except InputFault Unit :=
  if !Path.isSource path then .error (.invalidExtension path)
  else
    match found with
    | .missing => .error (.unreadable path .notFound)
    | .notADirectory => .error (.unreadable path .notADirectory)
    | .invalidPath | .notRegular => .error (.unreadable path .invalidInput)
    | .regular _ => .ok ()

/-- The text of the source file at a path. -/
def read (path : Text) (found : Lookup) : Except InputFault Text :=
  (validate path found).bind fun _ =>
    match found.text? with
    | none => .error (.unreadable path .invalidData)
    | some text => .ok text

/-- The first fault of the program in the source file at a path, if it has one. -/
def verify (path : Text) (found : Lookup) : Except InputFault (Option Diagnostic) :=
  (read path found).map verifySource

end Source
end SJava

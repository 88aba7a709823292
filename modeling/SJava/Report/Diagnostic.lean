/-
The report of a diagnostic: the kind of fault with advice, the file, the line with its
text underlined, and the message.
-/
import SJava.Fault
import SJava.Report.Style
import SJava.Text.Blank
import SJava.Text.Lines

namespace SJava
namespace Diagnostic

open Text

/-- The first line of a report. -/
def heading (colored : Bool) (fault : Fault) : Text :=
  let title := Style.boldRed.paint colored "Error".toList ++ ": ".toList ++
    Style.bold.paint colored fault.name.toList
  match fault.tip? with
  | none => title
  | some tip => title ++ " (".toList ++ tip.toList ++ ")".toList

/-- The bar beside a text that has no number, under the bar of a line whose number has
`width` digits. -/
def gutter (colored : Bool) (width : Nat) : Text :=
  Style.blue.paint colored (List.replicate (width + 1) ' ' ++ ['|'])

/-- The line that is reported and the marks under it, as many as its text has bytes and at
least one.  A line past the last one has no marks. -/
def excerpt (colored : Bool) (line : Nat) (content : Text) : List Text :=
  let number := (toString line).toList
  let start := Style.blue.paint colored number ++ [' '] ++ Style.blue.paint colored ['|'] ++ [' ']
  match line? content line with
  | none => [start ++ Style.dimmed.paint colored "<end of file>".toList]
  | some text =>
    let marks := List.replicate (max (utf8Length (trim text)) 1) '^'
    [start ++ trim text,
      gutter colored number.length ++ [' '] ++ Style.red.paint colored marks]

/-- The lines of a report on the file at `path` with the given content. -/
def report (d : Diagnostic) (colored : Bool) (path content : Text) : List Text :=
  [heading colored d.fault,
    Style.blue.paint colored "->".toList ++ [' '] ++ path,
    gutter colored (toString d.line).length] ++
  excerpt colored d.line content ++
  [Style.dimmed.paint colored d.message.toList]

/-- A report as one text, in which every line is ended. -/
def render (d : Diagnostic) (colored : Bool) (path content : Text) : Text :=
  (d.report colored path content).flatMap fun l => l ++ ['\n']

end Diagnostic
end SJava

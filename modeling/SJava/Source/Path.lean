/-
Paths of source files, as they are written: names separated by slashes.
-/
import SJava.Text.Basic

namespace SJava
namespace Path

/-- The parts of a path between its slashes. -/
def parts (path : Text) : List Text := path.splitOn '/'

/-- The name a path ends in.  Slashes and single dots after it do not count; a path that
ends in two dots has no such name. -/
def fileName? (path : Text) : Option Text :=
  ((parts path).filter fun p => p ≠ [] && p ≠ ['.']).getLast?.filter fun p => p ≠ ['.', '.']

/-- What follows the last dot of the name, unless that dot begins the name. -/
def extension? (path : Text) : Option Text :=
  (fileName? path).bind fun name =>
    let back := name.reverse
    match back.dropWhile (· != '.') with
    | [] | [_] => none
    | _ :: _ :: _ => some (back.takeWhile (· != '.')).reverse

/-- The extension of source files. -/
def sourceExtension : Text := "sjava".toList

def isSource (path : Text) : Bool := extension? path = some sourceExtension

end Path
end SJava

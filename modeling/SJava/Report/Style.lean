/-
Colours on a terminal.  A styled text begins with the codes of its style and ends with a
reset; a reset within it is followed by the codes again, so that the style lasts to the
end.
-/
import SJava.Text.Basic

namespace SJava

inductive Style where
  | boldRed
  | bold
  | blue
  | red
  | dimmed
  deriving DecidableEq, Repr

namespace Style

def codes : Style → Text
  | boldRed => "\x1b[1;31m".toList
  | bold => "\x1b[1m".toList
  | blue => "\x1b[34m".toList
  | red => "\x1b[31m".toList
  | dimmed => "\x1b[2m".toList

def reset : Text := "\x1b[0m".toList

/-- Puts `codes` after every reset in a text. -/
def renew (codes : Text) : Text → Text
  | [] => []
  | '\x1b' :: '[' :: '0' :: 'm' :: s => reset ++ codes ++ renew codes s
  | c :: s => c :: renew codes s

/-- A text in a style, or as it is where there are no colours. -/
def paint (style : Style) (colored : Bool) (s : Text) : Text :=
  if colored then style.codes ++ renew style.codes s ++ reset else s

end Style

/-- The settings of the surroundings that decide on colours. -/
structure ColorSettings where
  /-- Colours are wanted whatever the output is. -/
  forced : Option String
  /-- Colours are not wanted, unless they are forced. -/
  refused : Option String
  /-- Colours are wanted on a terminal, which is so without this setting. -/
  onTerminal : Option String
  isTerminal : Bool

namespace ColorSettings

/-- Whether the output has colours.  A setting counts as made if it has a value other than
`0`; the refusal counts with any value. -/
def colored (s : ColorSettings) : Bool :=
  if s.forced.any (· != "0") then true
  else if s.refused.isSome then false
  else s.onTerminal.all (· != "0") && s.isTerminal

end ColorSettings
end SJava

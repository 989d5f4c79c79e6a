import ReleasePicker.Text.Basic

/-!
Styled text on a terminal. A style is switched on by an escape sequence and off by a common one. A
styled text may hold the common one itself; the style is switched on again after it, so that it
lasts to the end.
-/
namespace ReleasePicker.Terminal

/-- How text is set off from its surroundings. -/
inductive Style
  | bold | dim | italic | underlined | red | green | blue | cyan | redBold | greenBold
  deriving DecidableEq, Repr

/-- The parameters that select a style. -/
def Style.parameters : Style → String
  | bold => "1"
  | dim => "2"
  | italic => "3"
  | underlined => "4"
  | red => "31"
  | green => "32"
  | blue => "34"
  | cyan => "36"
  | redBold => "1;31"
  | greenBold => "1;32"

/-- The sequence with the given parameters. -/
def sequence (parameters : String) : Text :=
  ['\x1b', '['] ++ parameters.toList ++ ['m']

/-- The sequence that ends every style. -/
def reset : Text :=
  ['\x1b', '[', '0', 'm']

/-- Text in which a style is switched on again after every end of a style. -/
def renew (style : Style) : Text → Text
  | '\x1b' :: '[' :: '0' :: 'm' :: rest => reset ++ sequence style.parameters ++ renew style rest
  | c :: rest => c :: renew style rest
  | [] => []

/-- Text in a style, or as it is where styles are off. -/
def paint (styled : Bool) (style : Style) (text : Text) : Text :=
  if styled then sequence style.parameters ++ renew style text ++ reset else text

end ReleasePicker.Terminal

import TriBench.Text.Basic

/-!
# Styled text

A terminal shows the text between an escape code and the reset code in a style. Blanks that fill a
styled text up to a width stand inside the codes. Without colours a styled text is the text.
-/

namespace TriBench

inductive Colour
  | red
  | green
  | yellow
  | brightBlack
  | brightRed
  | brightGreen
  | brightWhite
  deriving DecidableEq, Repr

namespace Colour

def code : Colour → Text
  | red => "31"
  | green => "32"
  | yellow => "33"
  | brightBlack => "90"
  | brightRed => "91"
  | brightGreen => "92"
  | brightWhite => "97"

end Colour

structure Style where
  colour : Colour
  bold : Bool
  deriving DecidableEq, Repr

namespace Style

def plain (c : Colour) : Style := ⟨c, false⟩

def heading : Style := ⟨.brightGreen, true⟩

def escape : Char := '\x1b'

def reset : Text := [escape, '[', '0', 'm']

def opening (st : Style) : Text :=
  [escape, '['] ++ (if st.bold then "1;" else "") ++ st.colour.code ++ ['m']

/-- The text in the style, which is taken up again after a reset inside the text; `fill` is applied
to what then stands between the codes. -/
def paintFilled (colours : Bool) (st : Style) (fill : Text → Text) (s : Text) : Text :=
  if colours then
    st.opening ++ fill (Text.replaceAll reset (reset ++ st.opening) s) ++ reset
  else fill s

def paint (colours : Bool) (st : Style) (s : Text) : Text := paintFilled colours st id s

end Style

end TriBench

import Keystroke.Numeral
import Keystroke.Text.Printable

namespace Keystroke.Text

def spelledOut (c : CodePoint) : Text :=
  let digits := Numeral.natural 16 c.val
  if c.val ≤ 0xFF then "\\x" ++ Numeral.zeroPadded 2 digits
  else if c.val ≤ 0xFFFF then "\\u" ++ Numeral.zeroPadded 4 digits
  else "\\U" ++ Numeral.zeroPadded 8 digits

def quotedChar (quote c : CodePoint) : Text :=
  if c = quote ∨ c = '\\' then ['\\', c]
  else if c = '\t' then "\\t"
  else if c = '\n' then "\\n"
  else if c = '\r' then "\\r"
  else if c.isPrintable then [c]
  else spelledOut c

/-- The apostrophe quotes, unless the text holds one and no double quote. -/
def quoteFor (t : Text) : CodePoint :=
  if CodePoint.ofChar '\'' ∈ t ∧ CodePoint.ofChar '"' ∉ t then '"' else '\''

def quoted (t : Text) : Text :=
  let quote := quoteFor t
  [quote] ++ t.flatMap (quotedChar quote) ++ [quote]

end Keystroke.Text

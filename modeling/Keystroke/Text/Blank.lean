import Keystroke.Text

namespace Keystroke

/-- The six blanks of ASCII, and every space of Unicode from U+0085 on. The four separators
U+001C to U+001F are not among them. -/
def CodePoint.isBlank (c : CodePoint) : Bool :=
  c.isIn [(0x9, 0xD), (0x20, 0x20), (0x85, 0x85), (0xA0, 0xA0), (0x1680, 0x1680), (0x2000, 0x200A),
    (0x2028, 0x2029), (0x202F, 0x202F), (0x205F, 0x205F), (0x3000, 0x3000)]

def Text.trimmed (t : Text) : Text :=
  ((t.dropWhile CodePoint.isBlank).reverse.dropWhile CodePoint.isBlank).reverse

end Keystroke

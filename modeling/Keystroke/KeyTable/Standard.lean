import Keystroke.KeyTable

namespace Keystroke.KeyTable

structure NamedKey where
  code : Int
  labelId : String
  label : String
  action : Bool

def namedKeys : List NamedKey :=
  [
    ⟨0x0, "undefined", "Undefined", false⟩, ⟨0xA, "enter", "Enter", false⟩,
    ⟨0x8, "backSpace", "Backspace", false⟩, ⟨0x9, "tab", "Tab", false⟩,
    ⟨0x3, "clear", "Clear", false⟩, ⟨0x10, "shift", "Shift", true⟩,
    ⟨0x11, "control", "Control", true⟩, ⟨0x12, "alt", "Alt", true⟩, ⟨0x9D, "meta", "Meta", true⟩,
    ⟨0x20C, "windows", "Windows", true⟩, ⟨0x20D, "context", "Context Menu", true⟩,
    ⟨0x13, "pause", "Pause", true⟩, ⟨0x14, "capsLock", "Caps Lock", true⟩,
    ⟨0x1B, "escape", "Escape", false⟩, ⟨0x20, "space", "Space", false⟩, ⟨0x26, "up", "Up", true⟩,
    ⟨0x28, "down", "Down", true⟩, ⟨0x25, "left", "Left", true⟩, ⟨0x27, "right", "Right", true⟩,
    ⟨0x2C, "comma", "Comma", false⟩, ⟨0x2D, "minus", "Minus", false⟩,
    ⟨0x2E, "period", "Period", false⟩, ⟨0x2F, "slash", "Slash", false⟩,
    ⟨0x3D, "equals", "Equals", false⟩, ⟨0x3B, "semicolon", "Semicolon", false⟩,
    ⟨0x5B, "openBracket", "Open Bracket", false⟩, ⟨0x5C, "backSlash", "Back Slash", false⟩,
    ⟨0x5D, "closeBracket", "Close Bracket", false⟩, ⟨0xE0, "up", "Up", true⟩,
    ⟨0xE1, "down", "Down", true⟩, ⟨0xE2, "left", "Left", true⟩, ⟨0xE3, "right", "Right", true⟩,
    ⟨0x6A, "multiply", "NumPad *", false⟩, ⟨0x6B, "add", "NumPad +", false⟩,
    ⟨0x6D, "subtract", "NumPad -", false⟩, ⟨0x6E, "decimal", "NumPad .", false⟩,
    ⟨0x6F, "divide", "NumPad /", false⟩, ⟨0x7F, "delete", "Delete", false⟩,
    ⟨0x90, "numLock", "Num Lock", true⟩, ⟨0x91, "scrollLock", "Scroll Lock", true⟩,
    ⟨0x9A, "printScreen", "Print Screen", true⟩, ⟨0x9B, "insert", "Insert", true⟩,
    ⟨0x9C, "help", "Help", true⟩, ⟨0x21, "pgup", "Page Up", true⟩,
    ⟨0x22, "pgdn", "Page Down", true⟩, ⟨0x24, "home", "Home", true⟩, ⟨0x23, "end", "End", true⟩,
    ⟨0xDE, "quote", "Quote", false⟩, ⟨0xC0, "backQuote", "Back Quote", false⟩,
    ⟨0x80, "deadGrave", "Dead Grave", false⟩, ⟨0x81, "deadAcute", "Dead Acute", false⟩,
    ⟨0x82, "deadCircumflex", "Dead Circumflex", false⟩, ⟨0x83, "deadTilde", "Dead Tilde", false⟩,
    ⟨0x84, "deadMacron", "Dead Macron", false⟩, ⟨0x85, "deadBreve", "Dead Breve", false⟩,
    ⟨0x86, "deadAboveDot", "Dead Above Dot", false⟩,
    ⟨0x87, "deadDiaeresis", "Dead Diaeresis", false⟩,
    ⟨0x88, "deadAboveRing", "Dead Above Ring", false⟩,
    ⟨0x89, "deadDoubleAcute", "Dead Double Acute", false⟩,
    ⟨0x8A, "deadCaron", "Dead Caron", false⟩, ⟨0x8B, "deadCedilla", "Dead Cedilla", false⟩,
    ⟨0x8C, "deadOgonek", "Dead Ogonek", false⟩, ⟨0x8D, "deadIota", "Dead Iota", false⟩,
    ⟨0x8E, "deadVoicedSound", "Dead Voiced Sound", false⟩,
    ⟨0x8F, "deadSemivoicedSound", "Dead Semivoiced Sound", false⟩,
    ⟨0x96, "ampersand", "Ampersand", false⟩, ⟨0x97, "asterisk", "Asterisk", false⟩,
    ⟨0x98, "quoteDbl", "Double Quote", false⟩, ⟨0x99, "less", "Less", false⟩,
    ⟨0xA0, "greater", "Greater", false⟩, ⟨0xA1, "braceLeft", "Left Brace", false⟩,
    ⟨0xA2, "braceRight", "Right Brace", false⟩, ⟨0x200, "at", "At", false⟩,
    ⟨0x201, "colon", "Colon", false⟩, ⟨0x202, "circumflex", "Circumflex", false⟩,
    ⟨0x203, "dollar", "Dollar", false⟩, ⟨0x204, "euro", "Euro", false⟩,
    ⟨0x205, "exclamationMark", "Exclamation Mark", false⟩,
    ⟨0x206, "invertedExclamationMark", "Inverted Exclamation Mark", false⟩,
    ⟨0x207, "leftParenthesis", "Left Parenthesis", false⟩,
    ⟨0x208, "numberSign", "Number Sign", false⟩, ⟨0x209, "plus", "Plus", false⟩,
    ⟨0x20A, "rightParenthesis", "Right Parenthesis", false⟩,
    ⟨0x20B, "underscore", "Underscore", false⟩, ⟨0x18, "final", "Final", true⟩,
    ⟨0x1C, "convert", "Convert", true⟩, ⟨0x1D, "noconvert", "No Convert", true⟩,
    ⟨0x1E, "accept", "Accept", true⟩, ⟨0x1F, "modechange", "Mode Change", true⟩,
    ⟨0x15, "kana", "Kana", true⟩, ⟨0x19, "kanji", "Kanji", true⟩,
    ⟨0xF0, "alphanumeric", "Alphanumeric", true⟩, ⟨0xF1, "katakana", "Katakana", true⟩,
    ⟨0xF2, "hiragana", "Hiragana", true⟩, ⟨0xF3, "fullWidth", "Full-Width", true⟩,
    ⟨0xF4, "halfWidth", "Half-Width", true⟩, ⟨0xF5, "romanCharacters", "Roman Characters", true⟩,
    ⟨0x100, "allCandidates", "All Candidates", true⟩,
    ⟨0x101, "previousCandidate", "Previous Candidate", true⟩,
    ⟨0x102, "codeInput", "Code Input", true⟩,
    ⟨0x103, "japaneseKatakana", "Japanese Katakana", true⟩,
    ⟨0x104, "japaneseHiragana", "Japanese Hiragana", true⟩,
    ⟨0x105, "japaneseRoman", "Japanese Roman", true⟩, ⟨0x106, "kanaLock", "Kana Lock", true⟩,
    ⟨0x107, "inputMethodOnOff", "Input Method On/Off", true⟩, ⟨0xFFC9, "again", "Again", true⟩,
    ⟨0xFFCB, "undo", "Undo", true⟩, ⟨0xFFCD, "copy", "Copy", true⟩,
    ⟨0xFFCF, "paste", "Paste", true⟩, ⟨0xFFD1, "cut", "Cut", true⟩,
    ⟨0xFFD0, "find", "Find", true⟩, ⟨0xFFCA, "props", "Props", true⟩,
    ⟨0xFFC8, "stop", "Stop", true⟩, ⟨0xFF20, "compose", "Compose", false⟩,
    ⟨0xFF7E, "altGraph", "Alt Graph", false⟩, ⟨0xFF58, "begin", "Begin", true⟩]

/-- The codes of F1 to F24. The first twelve and the others are in two blocks. -/
def functionKey (n : Nat) : Int := if n ≤ 12 then 0x70 + (n - 1) else 0xF000 + (n - 13)

def functionRow (n : Nat) : Row where
  key := .plain (functionKey n)
  labelId := "f" ++ Numeral.natural 10 n
  label := "F" ++ Numeral.natural 10 n
  action := true

def standardRows : List Row :=
  (namedKeys.map fun k => ⟨.plain k.code, k.labelId, k.label, k.action⟩) ++
    (List.range 24).map fun n => functionRow (n + 1)

def standard : KeyTable := (build standardRows).toOption.getD builtin

end Keystroke.KeyTable

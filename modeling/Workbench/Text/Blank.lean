/-!
# Blank characters

* `isBlank c` : the characters that separate words and that are cut from the ends of a message.
  The class is the white space of the Unicode bidirectional and separator categories together with
  the four information separators `U+001C` to `U+001F`;
* `trim s` : `s` without the blanks at its two ends (`trimmed` for strings).
-/

namespace Workbench.Text

/-- The blank characters: tab to carriage return, the four information separators, the space, next
line, the no-break space and the Unicode space, line and paragraph separators. -/
def isBlank (c : Char) : Bool :=
  let n := c.toNat
  (9 ≤ n && n ≤ 13) || (28 ≤ n && n ≤ 32) || n == 0x85 || n == 0xA0 || n == 0x1680 ||
    (0x2000 ≤ n && n ≤ 0x200A) || n == 0x2028 || n == 0x2029 || n == 0x202F || n == 0x205F ||
    n == 0x3000

/-- The text without its leading blanks. -/
def trimStart (s : List Char) : List Char := s.dropWhile isBlank

/-- The text without its trailing blanks. -/
def trimEnd (s : List Char) : List Char := (s.reverse.dropWhile isBlank).reverse

/-- The text without the blanks at its two ends. -/
def trim (s : List Char) : List Char := trimEnd (trimStart s)

/-- The string without the blanks at its two ends. -/
def trimmed (s : String) : String := String.ofList (trim s.toList)

@[simp] theorem trim_nil : trim [] = [] := rfl

end Workbench.Text

import DisplayTopology.Text.Visible

/-!
# Quoted text

Messages quote the text they complain about. NUL, tab, carriage return, newline, the backslash
and the quote itself stand behind a backslash; a character that does not show as itself is written
as its code in lower-case hexadecimal between braces; every other character stands for itself.
-/

namespace DisplayTopology.Text

/-- The short escape of a character inside quotes of the kind `mark`, where it has one. -/
def shortEscape? (mark c : Char) : Option Char :=
  if c = '\x00' then some '0'
  else if c = '\t' then some 't'
  else if c = '\r' then some 'r'
  else if c = '\n' then some 'n'
  else if c = '\\' ∨ c = mark then some c
  else none

/-- A character as written inside quotes of the kind `mark`. -/
def escape (mark c : Char) : List Char :=
  match shortEscape? mark c with
  | some e => ['\\', e]
  | none =>
    if isVisible c then [c]
    else '\\' :: 'u' :: '\x7b' :: Nat.toDigits 16 c.toNat ++ ['\x7d']

/-- Characters between two quotes of the kind `mark`. -/
def quote (mark : Char) (cs : List Char) : String :=
  String.ofList (mark :: cs.flatMap (escape mark) ++ [mark])

/-- A text in double quotes. -/
def quoteText (text : String) : String := quote '"' text.toList

/-- A character in single quotes. -/
def quoteChar (c : Char) : String := quote '\'' [c]

end DisplayTopology.Text

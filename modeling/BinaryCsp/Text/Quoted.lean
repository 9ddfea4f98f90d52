import BinaryCsp.Text.Shown

/-!
# Quoted text

A text is quoted by double quotes.  Inside them a quote and a backslash follow a backslash; tab,
line feed, carriage return and the null character are written by a letter or digit after a
backslash; any other character that does not show is written by its number.
-/

namespace BinaryCsp.Text

/-- A character by its number, in lower-case hexadecimal without padding. -/
def numbered (c : Char) : String :=
  "\\u\x7b" ++ String.ofList (Nat.toDigits 16 c.toNat) ++ "\x7d"

/-- A character as it stands in quoted text. -/
def escaped (c : Char) : String :=
  if c = '"' then "\\\""
  else if c = '\\' then "\\\\"
  else if c = '\t' then "\\t"
  else if c = '\n' then "\\n"
  else if c = '\r' then "\\r"
  else if c = '\x00' then "\\0"
  else if shows c then c.toString
  else numbered c

def quoted (s : String) : String := "\"" ++ String.join (s.toList.map escaped) ++ "\""

end BinaryCsp.Text

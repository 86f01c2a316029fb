import HostCalls.Hex
import HostCalls.Text.Hidden

/-!
# Quoted text

Text is quoted by enclosing it in double quotes. The quote, the backslash, the null character and
the three common white-space controls have short escapes; a hidden character is written by its
code point in braces; every other character stands for itself.
-/

namespace HostCalls
namespace Text

/-- How one character is written inside quotes. -/
def quotedChar (c : Char) : String :=
  if c = '\x00' then "\\0"
  else if c = '\t' then "\\t"
  else if c = '\r' then "\\r"
  else if c = '\n' then "\\n"
  else if c = '"' then "\\\""
  else if c = '\\' then "\\\\"
  else if isHidden c then "\\u\x7b" ++ Hex.digits c.toNat ++ "\x7d"
  else c.toString

/-- Text in double quotes. -/
def quoted (text : String) : String :=
  "\"" ++ String.join (text.toList.map quotedChar) ++ "\""

end Text
end HostCalls

import PeerProtocol.Text.Hex
import PeerProtocol.Text.Unprintable

/-!
# Quoted text

Text between double quotes in which the reader can see every character: quotes and backslashes
are escaped, the usual controls have letters, and whatever has no glyph of its own is written as
its code point.
-/

namespace PeerProtocol.Text

/-- How one character is shown between double quotes. -/
def quotedChar (c : Char) : String :=
  if c = '"' then "\\\""
  else if c = '\\' then "\\\\"
  else if c = '\x00' then "\\0"
  else if c = '\t' then "\\t"
  else if c = '\r' then "\\r"
  else if c = '\n' then "\\n"
  else if isUnprintable c then "\\u\x7b" ++ hexNumber c.toNat ++ "\x7d"
  else String.singleton c

/-- Text between double quotes. -/
def quoted (text : String) : String :=
  "\"" ++ String.join (text.toList.map quotedChar) ++ "\""

end PeerProtocol.Text

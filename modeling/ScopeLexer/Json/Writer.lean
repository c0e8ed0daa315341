import ScopeLexer.Token

/-!
# Writing JSON text

Strings, lists and tokens as JSON text without blanks.
-/

namespace ScopeLexer.Json

def hexDigit (n : Nat) : Char := "0123456789abcdef".toList.getD n '0'

def writeChar (c : Char) : List Char :=
  if c == '"' then ['\\', '"']
  else if c == '\\' then ['\\', '\\']
  else if c == '\n' then ['\\', 'n']
  else if c == '\r' then ['\\', 'r']
  else if c == '\t' then ['\\', 't']
  else if c == '\x08' then ['\\', 'b']
  else if c == '\x0c' then ['\\', 'f']
  else if c.toNat < 0x20 then
    ['\\', 'u', '0', '0', hexDigit (c.toNat / 16), hexDigit (c.toNat % 16)]
  else [c]

def writeText (text : String) : String :=
  "\"" ++ String.ofList (text.toList.flatMap writeChar) ++ "\""

def writeList (items : List String) : String := "[" ++ ",".intercalate items ++ "]"

def writeObject (entries : List (String × String)) : String :=
  "\x7b" ++ ",".intercalate (entries.map fun (key, value) => writeText key ++ ":" ++ value)
    ++ "\x7d"

def writeToken (token : Token) : String :=
  writeObject [
    ("start", toString token.start),
    ("end", toString token.stop),
    ("scopes", writeList (token.scopes.map writeText))]

end ScopeLexer.Json
